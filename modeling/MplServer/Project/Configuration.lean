import MplServer.FileSystem.Basic
import MplServer.Json.Reader
import MplServer.Text.Basic

/-!
Project configurations: what the file `mpl.json` says about building one entry point.
-/

namespace MplServer

/-- A project configuration. Optional fields that are absent stay absent; values from the settings
take their place when a command line is built, not before. -/
structure Configuration where
  compilerPath : Option String
  includePaths : Option (List String)
  triple : Option String
  entryPoint : String
  output : String
  debug : Option Bool
  metaInfo : Option Bool
deriving DecidableEq, Repr

/-- What is wrong with a JSON value that is no configuration. -/
inductive InvalidConfiguration where
  | shape (cause : Json.Cause)
  | missingEntryPoint
  | blankEntryPoint
  | missingOutput
deriving Repr

def InvalidConfiguration.message : InvalidConfiguration → String
  | .shape cause => cause.message
  | .missingEntryPoint => "missing required field `entryPoint`"
  | .blankEntryPoint => "field `entryPoint` must not be empty"
  | .missingOutput => "missing required field `output`"

inductive ConfigurationError where
  | unreadable (cause : FileError)
  /-- The text, which is not JSON, and its fault. -/
  | malformed (text : String) (fault : Json.Fault)
  | invalid (reason : InvalidConfiguration)
deriving Repr

def ConfigurationError.message : ConfigurationError → String
  | .unreadable cause => "failed to read configuration: " ++ cause.message
  | .malformed text fault => "malformed configuration: " ++ fault.message text.toList
  | .invalid reason => "invalid configuration: " ++ reason.message

namespace Configuration

def asString : Json → Except Json.Cause String
  | .string value => .ok value
  | other => .error (.mismatch other .string)

def asBoolean : Json → Except Json.Cause Bool
  | .boolean value => .ok value
  | other => .error (.mismatch other .boolean)

/-- A list of strings where one is asked for; the first item that is no string is at fault. -/
def asStrings : Json → Except Json.Cause (List String)
  | .array items => items.mapM asString
  | other => .error (.mismatch other .sequence)

/-- A field that may be left out or be null. -/
def optional {α : Type} (decode : Json → Except Json.Cause α) :
    Option Json → Except Json.Cause (Option α)
  | none => .ok none
  | some .null => .ok none
  | some value => (decode value).map some

/-- The fields of a configuration, all of them optional. -/
structure Draft where
  compilerPath : Option String
  includePaths : Option (List String)
  triple : Option String
  entryPoint : Option String
  output : Option String
  debug : Option Bool
  metaInfo : Option Bool
deriving DecidableEq, Repr

/-- The fields of an object. They are looked at in the order of their names, so of several ill-typed
ones the one with the least name is at fault. -/
def Draft.ofMembers (members : List (String × Json)) : Except Json.Cause Draft := do
  let compilerPath ← optional asString (Json.binding? "compilerPath" members)
  let debug ← optional asBoolean (Json.binding? "debug" members)
  let entryPoint ← optional asString (Json.binding? "entryPoint" members)
  let includePaths ← optional asStrings (Json.binding? "includePaths" members)
  let metaInfo ← optional asBoolean (Json.binding? "metaInfo" members)
  let output ← optional asString (Json.binding? "output" members)
  let triple ← optional asString (Json.binding? "triple" members)
  return { compilerPath, includePaths, triple, entryPoint, output, debug, metaInfo }

/-- An item of a list that stands for a configuration. All seven must be there. -/
def item {α : Type} (decode : Json → Except Json.Cause α) (items : List Json) (index : Nat) :
    Except Json.Cause (Option α) :=
  match items[index]? with
  | some value => optional decode (some value)
  | none => .error (.tooFew index .configuration 7)

/-- The fields given as a list, in the order in which they are declared. -/
def Draft.ofItems (items : List Json) : Except Json.Cause Draft := do
  let compilerPath ← item asString items 0
  let includePaths ← item asStrings items 1
  let triple ← item asString items 2
  let entryPoint ← item asString items 3
  let output ← item asString items 4
  let debug ← item asBoolean items 5
  let metaInfo ← item asBoolean items 6
  if 7 < items.length then throw (.tooMany items.length)
  return { compilerPath, includePaths, triple, entryPoint, output, debug, metaInfo }

def Draft.ofJson : Json → Except Json.Cause Draft
  | .object members => ofMembers members
  | .array items => ofItems items
  | other => .error (.mismatch other .configuration)

/-- A draft with its required fields: an entry point that is not blank, and an output. -/
def Draft.complete (draft : Draft) : Except InvalidConfiguration Configuration :=
  match draft.entryPoint with
  | none => .error .missingEntryPoint
  | some entryPoint =>
      if Text.isBlankText entryPoint then .error .blankEntryPoint
      else
        match draft.output with
        | none => .error .missingOutput
        | some output =>
            .ok {
              compilerPath := draft.compilerPath
              includePaths := draft.includePaths
              triple := draft.triple
              entryPoint
              output
              debug := draft.debug
              metaInfo := draft.metaInfo }

def ofJson (value : Json) : Except InvalidConfiguration Configuration :=
  match Draft.ofJson value with
  | .error cause => .error (.shape cause)
  | .ok draft => draft.complete

def parse (text : String) : Except ConfigurationError Configuration :=
  match Json.read text.toList with
  | .error fault => .error (.malformed text fault)
  | .ok value => (ofJson value).mapError .invalid

def fileName : String := "mpl.json"

/-- The configuration of the project in a directory. -/
def load (files : FileSystem) (directory : Path) : Except ConfigurationError Configuration :=
  match files.readText (directory.child fileName) with
  | .error cause => .error (.unreadable cause)
  | .ok text => parse text

/-- The file name of the entry point without its extension. It names the metadata of a build
without an output. -/
def entryBase (configuration : Configuration) : String :=
  ((Path.mk configuration.entryPoint).stem?).getD ""

end Configuration

end MplServer
