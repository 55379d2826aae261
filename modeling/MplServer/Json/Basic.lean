import MplServer.Number.Shortest

/-!
JSON values. The members of an object are kept as they were written; where a name is bound more
than once, the last binding counts.
-/

namespace MplServer

inductive Json where
  | null
  | boolean (value : Bool)
  | integer (value : Int)
  | float (value : Binary64)
  | string (value : String)
  | array (items : List Json)
  | object (members : List (String × Json))
deriving Repr, Inhabited

namespace Json

/-- What a list of members binds a name to. -/
def binding? (name : String) : List (String × Json) → Option Json
  | [] => none
  | (other, value) :: rest =>
      match binding? name rest with
      | some later => some later
      | none => if other = name then some value else none

/-- The value of a member; only objects have members. -/
def get? (value : Json) (name : String) : Option Json :=
  match value with
  | .object members => binding? name members
  | _ => none

def isObject : Json → Bool
  | .object _ => true
  | _ => false

def isNull : Json → Bool
  | .null => true
  | _ => false

def integerText (n : Int) : List Char :=
  if n < 0 then '-' :: Nat.toDigits 10 n.natAbs else Nat.toDigits 10 n.natAbs

def text? : Json → Option String
  | .string value => some value
  | _ => none

end Json

end MplServer
