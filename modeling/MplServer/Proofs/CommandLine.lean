import MplServer.CommandLine
import MplServer.Proofs.Text.Identifier
import MplServer.Proofs.Text.Pieces

/-!
# What is read from a command line, and what is printed

An absolute path and an identifier are arguments as they stand. A printed place tells its path, its
line and its column.
-/

namespace MplServer

/-! ## Arguments -/

namespace Command

/-- A word that does not begin with a dash is no option. -/
theorem positional_cons_of_plain
    {word : String} (plain : word.toList.head? ≠ some '-') (rest : List String) :
    positional (word :: rest) = word :: positional rest := by
  have notEnd : word ≠ "--" := by
    rintro rfl
    exact plain rfl
  have notLog : word.toList ≠ logOption := by
    intro same
    rw [same] at plain
    exact plain rfl
  have notLogSet : (logOption ++ ['=']).isPrefixOf word.toList = false := by
    rw [Bool.eq_false_iff, Ne, List.isPrefixOf_iff_prefix]
    rintro ⟨behind, whole⟩
    rw [← whole] at plain
    exact plain rfl
  rw [positional.eq_def]
  dsimp only
  rw [if_neg notEnd, if_neg notLog, notLogSet, if_neg Bool.false_ne_true]

theorem parse?_definition
    {file : Path} {text symbol : String} {line column : Nat}
    (absolute : file.isAbsolute = true)
    (identified : Text.identifierAt text line column = some symbol) :
    parse? ["definition", file.text, symbol] = some (.definition file symbol) := by
  have filePlain : file.text.toList.head? ≠ some '-' := by
    rw [Path.isAbsolute, beq_iff_eq] at absolute
    rw [absolute]
    decide
  have symbolPlain : symbol.toList.head? ≠ some '-' := by
    intro dash
    have isIdentifier :=
      Text.isIdentifierChar_of_mem_identifierAt identified (List.mem_of_mem_head? dash)
    exact absurd isIdentifier (by decide)
  unfold parse?
  rw [positional_cons_of_plain (by decide), positional_cons_of_plain filePlain,
    positional_cons_of_plain symbolPlain]
  rfl

/-! ## Printed places -/

theorem colon_not_mem_toString (number : Nat) : ':' ∉ (toString number).toList := by
  rw [Nat.toString_eq_ofList_toDigits, String.toList_ofList]
  intro colon
  have isDigit := Nat.isDigit_of_mem_toDigits (by decide) (by decide) colon
  exact absurd isDigit (by decide)

theorem numberText_injective
    {left right : Nat} (same : toString left = toString right) : left = right := by
  have digits : Nat.toDigits 10 left = Nat.toDigits 10 right := by
    rw [Nat.toString_eq_ofList_toDigits, Nat.toString_eq_ofList_toDigits] at same
    exact String.ofList_injective same
  have number := congrArg (fun digits => Nat.ofDigitChars 10 digits 0) digits
  rw [Nat.ofDigitChars_ten_toDigits, Nat.ofDigitChars_ten_toDigits] at number
  exact number

/-- A path and the numbers of a line and a column, as they are printed. -/
def printed (path : Path) (line column : Nat) : String :=
  path.text ++ ":" ++ toString line ++ ":" ++ toString column

/-- What is printed tells the path and the numbers. -/
theorem printed_injective
    {path other : Path} {line column otherLine otherColumn : Nat}
    (same : printed path line column = printed other otherLine otherColumn) :
    path = other ∧ line = otherLine ∧ column = otherColumn := by
  have characters := congrArg String.toList same
  simp only [printed, String.toList_append] at characters
  obtain ⟨sameFront, sameColumn⟩ :=
    @Text.append_separator_inj ':' (path.text ++ ":" ++ toString line)
      (other.text ++ ":" ++ toString otherLine) _ _ (colon_not_mem_toString column)
      (colon_not_mem_toString otherColumn) (by simpa using characters)
  have frontCharacters := congrArg String.toList sameFront
  simp only [String.toList_append] at frontCharacters
  obtain ⟨sameText, sameLine⟩ :=
    @Text.append_separator_inj ':' path.text other.text _ _ (colon_not_mem_toString line)
      (colon_not_mem_toString otherLine) (by simpa using frontCharacters)
  exact ⟨congrArg Path.mk sameText, numberText_injective sameLine,
    numberText_injective sameColumn⟩

theorem placeText_eq_printed (location : Location) :
    placeText location =
      printed location.path (oneBased location.line) (oneBased location.column) := rfl

/-- A number of 32 bits is counted from one, but for the greatest. -/
theorem oneBased_eq_succ_iff
    {number counted : Nat} (inRange : number ≤ Occurrence.maxPosition)
    (below : counted < Occurrence.maxPosition) :
    oneBased number = counted + 1 ↔ number = counted := by
  have size : Nat.pow 2 32 = 4294967296 := by decide
  unfold Occurrence.maxPosition at inRange below
  rw [size] at inRange below
  rw [oneBased, size]
  omega

/-- A printed place tells its path, its line and its column, if these are not the greatest. -/
theorem placeText_eq_printed_succ_iff
    {location : Location} {path : Path} {row column : Nat}
    (lineInRange : location.line ≤ Occurrence.maxPosition)
    (columnInRange : location.column ≤ Occurrence.maxPosition)
    (rowBelow : row < Occurrence.maxPosition) (columnBelow : column < Occurrence.maxPosition) :
    placeText location = printed path (row + 1) (column + 1) ↔
      location.path = path ∧ location.line = row ∧ location.column = column := by
  rw [placeText_eq_printed, ← oneBased_eq_succ_iff lineInRange rowBelow,
    ← oneBased_eq_succ_iff columnInRange columnBelow]
  constructor
  · exact printed_injective
  · rintro ⟨rfl, line_eq, column_eq⟩
    rw [line_eq, column_eq]

end Command

end MplServer
