import MplServer.Json.Basic

/-!
TOML documents as values, and how statements build them up: a key is bound once, and a table is
opened once.
-/

namespace MplServer

inductive Toml where
  | string (value : String)
  | integer (value : Int)
  | float (value : Binary64)
  | boolean (value : Bool)
  /-- A date, a time or both, in its standard form. -/
  | moment (text : String)
  | array (items : List Toml)
  /-- A table written between braces. It is complete. -/
  | inline (entries : List (String × Toml))
  /-- A table that statements build up. It is implicit as long as no header has named it, and dotted
  when it came about through a dotted key. -/
  | table (implicit dotted : Bool) (entries : List (String × Toml))
  /-- The tables made by headers in double brackets. -/
  | tables (elements : List Toml)
deriving Repr, Inhabited

namespace Toml

abbrev Entries := List (String × Toml)

/-- Entries with one name bound anew; a new name comes last. -/
def bind (name : String) (value : Toml) : Entries → Entries
  | [] => [(name, value)]
  | (other, old) :: rest =>
      if other = name then (name, value) :: rest else (other, old) :: bind name value rest

/-- Changes the table that a header's names lead to. Tables missing on the way are made; the last of
several tables stands for all of them. -/
def editTable (edit : Toml → Option Toml) : List String → Toml → Option Toml
  | [], target => edit target
  | name :: rest, .table implicit dotted entries =>
      match entries.lookup name with
      | none => do
          let made ← editTable edit rest (.table true false [])
          return .table implicit dotted (bind name made entries)
      | some (.table i d inner) => do
          let changed ← editTable edit rest (.table i d inner)
          return .table implicit dotted (bind name changed entries)
      | some (.tables elements) => do
          let changed ← editTable edit rest (← elements.getLast?)
          return .table implicit dotted
            (bind name (.tables (elements.dropLast ++ [changed])) entries)
      | some _ => none
  | _ :: _, _ => none

/-- Binds a dotted key below a table. The tables on its way must have come about in the same way,
and the last name must be free. -/
def bindDotted (value : Toml) : (dottedWay : Bool) → List String → Toml → Option Toml
  | way, [name], .table implicit dotted entries =>
      if dotted ≠ way || (entries.lookup name).isSome then none
      else some (.table implicit dotted (bind name value entries))
  | _, name :: rest, .table implicit dotted entries =>
      match entries.lookup name with
      | none => do
          let made ← bindDotted value true rest (.table true true [])
          return .table implicit dotted (bind name made entries)
      | some (.table true d inner) => do
          let changed ← bindDotted value true rest (.table true d inner)
          return .table implicit dotted (bind name changed entries)
      | some _ => none
  | _, _, _ => none

/-- Opens the table of a header below a table: the name is free, or an implicit table has it. -/
def openTable (name : String) : Toml → Option Toml
  | .table implicit dotted entries =>
      match entries.lookup name with
      | none => some (.table implicit dotted (bind name (.table false false []) entries))
      | some (.table true false inner) =>
          some (.table implicit dotted (bind name (.table false false inner) entries))
      | some _ => none
  | _ => none

/-- Appends a table for a header in double brackets: the name is free, or it stands for such
tables. -/
def appendTable (name : String) : Toml → Option Toml
  | .table implicit dotted entries =>
      match entries.lookup name with
      | none => some (.table implicit dotted (bind name (.tables [.table false false []]) entries))
      | some (.tables elements) =>
          some (.table implicit dotted
            (bind name (.tables (elements ++ [.table false false []])) entries))
      | some _ => none
  | _ => none

/-- One statement of a document. -/
inductive Statement where
  | header (names : List String)
  | doubleHeader (names : List String)
  | binding (names : List String) (value : Toml)
deriving Repr

/-- A document under way: its root table, and the names of the table that bindings go to. -/
structure Draft where
  root : Toml
  current : List String
deriving Repr

/-- The document after one more statement. -/
def Draft.add (draft : Draft) : Statement → Option Draft
  | .header names => do
      let root ← editTable (openTable (← names.getLast?)) names.dropLast draft.root
      return ⟨root, names⟩
  | .doubleHeader names => do
      let root ← editTable (appendTable (← names.getLast?)) names.dropLast draft.root
      return ⟨root, names⟩
  | .binding names value => do
      let root ← editTable (bindDotted value false names) draft.current draft.root
      return { draft with root }

/-- The root table of a list of statements. -/
def ofStatements? (statements : List Statement) : Option Toml :=
  (statements.foldlM Draft.add ⟨.table false false [], []⟩).map Draft.root

/-- The table of bindings between braces. -/
def inlineOf? (bindings : List (List String × Toml)) : Option Toml :=
  let root := bindings.foldlM (fun root (names, value) => bindDotted value false names root)
    (.table false false [])
  match root with
  | some (.table _ _ entries) => some (.inline entries)
  | _ => none

/-- The name under which a moment is passed on. -/
def momentKey : String := "$__toml_private_datetime"

mutual

/-- The JSON value with the same contents. A number that is not finite becomes null. -/
def toJson : Toml → Json
  | .string value => .string value
  | .integer value => .integer value
  | .float value => if value.isFinite then .float value else .null
  | .boolean value => .boolean value
  | .moment text => .object [(momentKey, .string text)]
  | .array items => .array (itemsToJson items)
  | .inline entries => .object (entriesToJson entries)
  | .table _ _ entries => .object (entriesToJson entries)
  | .tables elements => .array (itemsToJson elements)

def itemsToJson : List Toml → List Json
  | [] => []
  | item :: rest => item.toJson :: itemsToJson rest

def entriesToJson : List (String × Toml) → List (String × Json)
  | [] => []
  | (name, value) :: rest => (name, value.toJson) :: entriesToJson rest

end

def get? : Toml → String → Option Toml
  | .table _ _ entries, name => entries.lookup name
  | .inline entries, name => entries.lookup name
  | _, _ => none

end Toml

end MplServer
