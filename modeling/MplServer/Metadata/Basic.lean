import MplServer.Json.Reader
import MplServer.Metadata.Occurrence

/-!
Compiler metadata: a table from symbols to the places where they are defined. The entries stay as
they were written until a symbol is looked up, so a broken entry hides only its own symbol.
-/

namespace MplServer

structure Metadata where
  globals : List (String × Json)
deriving Repr

namespace Metadata

/-- The recorded places of a symbol. Items that are no occurrences are skipped. -/
def occurrences (metadata : Metadata) (symbol : String) : List Occurrence :=
  match Json.binding? symbol metadata.globals with
  | some (.array items) => items.filterMap Occurrence.ofJson?
  | _ => []

open Json

/-- The scalar at the front of a text where a container is asked for. Its own faults come first; a
container is refused before it is read. -/
def refuse {α : Type} (wanted : Shape) (text : List Char) : Except Fault α :=
  match text with
  | '[' :: _ => .error ⟨.mismatch (.array []) wanted, text, 0⟩
  | '{' :: _ => .error ⟨.mismatch (.object []) wanted, text, 0⟩
  | _ =>
      match scalar .full text with
      | .ok (value, rest) => .error ⟨.mismatch value wanted, rest, 0⟩
      | .error fault => .error fault

/-- The table of symbols, itself a container `depth - 1` deep at most. -/
def readTable (depth : Nat) (text : List Char) : Except Fault (List (String × Json) × List Char) :=
  match skipSpace text with
  | [] => faultAt .endInValue []
  | '{' :: rest =>
      match skipSpace rest with
      | [] => faultAt .endInObject []
      | '}' :: behind => .ok ([], behind)
      | first => membersWithin .full (stepBound text) (depth - 1) first
  | other => refuse .map other

/-- The fault of a second table, found behind its name. -/
def repeatedTable {α : Type} (text : List Char) : Except Fault α :=
  match skipSpace text with
  | '}' :: rest => .error ⟨.repeated "globals", rest, 0⟩
  | rest => .error ⟨.repeated "globals", rest, 0⟩

/-- The value of a field, read from behind its name on, and the table that is known after it. Fields
other than the table are passed over. -/
def readField (table : Option (List (String × Json))) (name : String) (text : List Char) :
    Except Fault (Option (List (String × Json)) × List Char) :=
  if name = "globals" then
    match table with
    | some _ => repeatedTable text
    | none => do
        let (found, behind) ← readTable (maxDepth - 1) (← colon text)
        return (some found, behind)
  else do
    let start ← colon text
    let (_, behind) ← valueWithin .skim (stepBound start) maxDepth start
    return (table, behind)

/-- The fields of a metadata object from the next one on, and its closing brace. `bound` limits the
number of fields. -/
def readFields (table : Option (List (String × Json))) :
    Nat → List Char → Except Fault (List (String × Json) × List Char)
  | 0, text => faultAt .endInObject text
  | bound + 1, text =>
      match text with
      | [] => faultAt .endInObject []
      | '"' :: rest => do
          let (name, behind) ← quotedString .full rest
          let (table, behind) ← readField table name behind
          match skipSpace behind with
          | '}' :: rest => return (table.getD [], rest)
          | ',' :: rest => do readFields table bound (← afterComma .full '}' rest)
          | [] => faultAt .endInObject []
          | other => faultAt .expectedObjectEnd other
      | other => faultAt .keyNotString other

/-- The end of a list that holds the table alone. -/
def closeList (text : List Char) : Except Fault (List Char) :=
  match skipSpace text with
  | ']' :: rest => .ok rest
  | ',' :: rest =>
      match skipSpace rest with
      | ']' :: more => faultAt .trailingComma (']' :: more)
      | other => faultAt .trailingCharacters other
  | [] => faultAt .endInList []
  | other => faultAt .trailingCharacters other

/-- The table at the front of a document: the field of an object, or the only item of a list. -/
def readDocument (text : List Char) : Except Fault (List (String × Json) × List Char) :=
  match skipSpace text with
  | [] => faultAt .endInValue []
  | '{' :: rest =>
      match skipSpace rest with
      | [] => faultAt .endInObject []
      | '}' :: behind => .ok ([], behind)
      | first => readFields none (text.length + 1) first
  | '[' :: rest =>
      match skipSpace rest with
      | [] => faultAt .endInList []
      | ']' :: behind => .ok ([], behind)
      | first => do
          let (table, behind) ← readTable (maxDepth - 1) first
          let behind ← closeList behind
          return (table, behind)
  | other => refuse .metadata other

def read (text : List Char) : Except Fault Metadata := do
  let (table, rest) ← readDocument text
  finish rest
  return ⟨table⟩

def parse (text : String) : Except Fault Metadata :=
  read text.toList

end Metadata

end MplServer
