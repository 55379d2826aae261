import MplServer.Json.Basic

/-!
Occurrences: the places the compiler records for a symbol.
-/

namespace MplServer

/-- A recorded place. Line and column are counted from one. -/
structure Occurrence where
  file : Option String
  line : Option Int
  column : Option Int
deriving DecidableEq, Repr

namespace Occurrence

/-- A text that may be left out or be null. The outer option is none for any other value. -/
def fileField? : Option Json → Option (Option String)
  | none => some none
  | some .null => some none
  | some (.string value) => some (some value)
  | some _ => none

/-- A number of 64 bits that may be left out or be null. -/
def numberField? : Option Json → Option (Option Int)
  | none => some none
  | some .null => some none
  | some (.integer value) =>
      if -Int.pow 2 63 ≤ value ∧ value < Int.pow 2 63 then some (some value) else none
  | some _ => none

/-- The occurrence a JSON value stands for: an object with the three fields, or a list of at most
three items in their order. -/
def ofJson? : Json → Option Occurrence
  | .object members => do
      let file ← fileField? (Json.binding? "file" members)
      let line ← numberField? (Json.binding? "line" members)
      let column ← numberField? (Json.binding? "column" members)
      return { file, line, column }
  | .array items => do
      let file ← fileField? items[0]?
      let line ← numberField? items[1]?
      let column ← numberField? items[2]?
      if 3 < items.length then none else return { file, line, column }
  | _ => none

/-- The recorded path; one that is missing is empty. -/
def path (occurrence : Occurrence) : String :=
  occurrence.file.getD ""

def maxPosition : Nat := Nat.pow 2 32 - 1

/-- A recorded number counted from zero. One that is missing or zero reads as one; numbers below
one give zero, and those too large the largest. The difference has 64 bits and wraps around, so
the least number there is counts as too large. -/
def zeroBased (recorded : Option Int) : Nat :=
  let value := recorded.getD 1
  let difference := Int.bmod ((if value = 0 then 1 else value) - 1) (Nat.pow 2 64)
  min difference.toNat maxPosition

/-- The line and the column, counted from zero. -/
def position (occurrence : Occurrence) : Nat × Nat :=
  (zeroBased occurrence.line, zeroBased occurrence.column)

end Occurrence

end MplServer
