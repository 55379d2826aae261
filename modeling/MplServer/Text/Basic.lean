/-!
Texts: cut at a separator and put back together, cut into lines, freed from blanks, and searched for
identifiers.
-/

namespace MplServer.Text

/-! ## Pieces and lines -/

/-- The pieces between the occurrences of `separator`; a text without one is a single piece. -/
def splitAt (separator : Char) (text : String) : List String :=
  (text.toList.splitOn separator).map String.ofList

/-- The pieces with one `separator` between neighbours. -/
def joinWith (separator : Char) (pieces : List String) : String :=
  String.ofList (List.intercalate [separator] (pieces.map String.toList))

section Lines

variable {α : Type} [DecidableEq α]

/-- A line as it is handed out: one carriage return that stands right before the line end is not
part of it. The line is given last element first. -/
def closeLine (carriageReturn : α) : List α → List α
  | [] => []
  | last :: earlier =>
      if last = carriageReturn then earlier.reverse else (last :: earlier).reverse

/-- `lines` with the elements of the line under way, last one first. -/
def linesFrom (lineFeed carriageReturn : α) (pending : List α) : List α → List (List α)
  | [] => if pending.isEmpty then [] else [pending.reverse]
  | element :: rest =>
      if element = lineFeed then
        closeLine carriageReturn pending :: linesFrom lineFeed carriageReturn [] rest
      else
        linesFrom lineFeed carriageReturn (element :: pending) rest

/-- The lines of a sequence. A line ends at a line feed; an unterminated tail is a line of its own
when it is not empty, and it keeps a final carriage return. -/
def lines (lineFeed carriageReturn : α) (elements : List α) : List (List α) :=
  linesFrom lineFeed carriageReturn [] elements

end Lines

/-! ## Blanks -/

/-- The Unicode property White_Space. -/
def isBlank (c : Char) : Bool :=
  let code := c.toNat
  (0x9 ≤ code && code ≤ 0xD) || code == 0x20 || code == 0x85 || code == 0xA0 || code == 0x1680 ||
    (0x2000 ≤ code && code ≤ 0x200A) || code == 0x2028 || code == 0x2029 || code == 0x202F ||
    code == 0x205F || code == 0x3000

def trim (text : String) : String :=
  String.ofList ((text.toList.dropWhile isBlank).reverse.dropWhile isBlank).reverse

def isBlankText (text : String) : Bool :=
  text.toList.all isBlank

/-! ## Identifiers -/

def isIdentifierChar (c : Char) : Bool :=
  c.isAlphanum || c == '_'

/-- The identifier that touches the gap before character number `column` of a line, if there is
one: the identifier characters right before the gap and those right after it. -/
def identifierInLine (line : List Char) (column : Nat) : Option (List Char) :=
  if line.length < column then none
  else
    let before := ((line.take column).reverse.takeWhile isIdentifierChar).reverse
    let after := (line.drop column).takeWhile isIdentifierChar
    if (before ++ after).isEmpty then none else some (before ++ after)

/-- The identifier at a zero-based line and character of a text. -/
def identifierAt (text : String) (line column : Nat) : Option String := do
  let characters ← (lines '\n' '\r' text.toList)[line]?
  let word ← identifierInLine characters column
  return String.ofList word

end MplServer.Text
