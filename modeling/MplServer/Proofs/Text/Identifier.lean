import MplServer.Proofs.Text.Lines
import MplServer.Proofs.Text.Pieces
import MplServer.Text.Basic

/-!
# The identifier at a cursor

The identifier at a cursor is the run of name characters that the cursor stands in or next to, from
the last character before it that is none to the first one behind it that is none.
-/

namespace MplServer.Text

/-- ASCII letters, digits and underscores. -/
def IsNameChar (c : Char) : Prop :=
  'a' ≤ c ∧ c ≤ 'z' ∨ 'A' ≤ c ∧ c ≤ 'Z' ∨ '0' ≤ c ∧ c ≤ '9' ∨ c = '_'

theorem isIdentifierChar_iff (c : Char) : isIdentifierChar c = true ↔ IsNameChar c := by
  have asked :
      isIdentifierChar c =
        ((decide ('A' ≤ c ∧ c ≤ 'Z') || decide ('a' ≤ c) && decide (c ≤ 'z')) ||
          decide ('0' ≤ c) && decide (c ≤ '9') || c == '_') := rfl
  rw [asked]
  simp only [Bool.or_eq_true, Bool.and_eq_true, decide_eq_true_eq, beq_iff_eq]
  rw [IsNameChar, or_assoc, or_assoc, or_left_comm]

instance : DecidablePred IsNameChar := fun c =>
  decidable_of_iff _ (isIdentifierChar_iff c)

/-! ## Runs -/

/-- The characters of a line between two gaps. -/
def between (characters : List Char) (start stop : Nat) : List Char :=
  (characters.drop start).take (stop - start)

/-- There are only name characters between two gaps of a line, and none right before or behind. -/
structure IsRun (characters : List Char) (start stop : Nat) : Prop where
  ordered : start ≤ stop
  inLine : stop ≤ characters.length
  inside : ∀ c ∈ between characters start stop, IsNameChar c
  before : ∀ index c, start = index + 1 → characters[index]? = some c → ¬ IsNameChar c
  behind : ∀ c, characters[stop]? = some c → ¬ IsNameChar c

variable {characters : List Char} {column start stop : Nat}

theorem between_append
    (startLe : start ≤ column) (leStop : column ≤ stop) :
    between characters start column ++ between characters column stop =
      between characters start stop := by
  have gaps : stop - start = (column - start) + (stop - column) := by
    omega
  have meet : start + (column - start) = column := by
    omega
  rw [between, between, between, gaps, List.take_add, List.drop_drop, meet]

theorem take_append_between (startLe : start ≤ column) :
    characters.take start ++ between characters start column = characters.take column := by
  rw [between, ← List.take_add, Nat.add_sub_cancel' startLe]

theorem between_append_drop (leStop : column ≤ stop) :
    between characters column stop ++ characters.drop stop = characters.drop column := by
  have rest : characters.drop stop = (characters.drop column).drop (stop - column) := by
    rw [List.drop_drop, Nat.add_sub_cancel' leStop]
  rw [between, rest, List.take_append_drop]

theorem length_between (inLine : stop ≤ characters.length) :
    (between characters start stop).length = stop - start := by
  rw [between, List.length_take, List.length_drop]
  omega

theorem takeWhile_isIdentifierChar_eq
    {front rest : List Char}
    (inside : ∀ c ∈ front, IsNameChar c) (stops : ∀ c, rest.head? = some c → ¬ IsNameChar c) :
    (front ++ rest).takeWhile isIdentifierChar = front := by
  apply takeWhile_append_of_stop
  · exact fun c member => (isIdentifierChar_iff c).mpr (inside c member)
  · intro c isFirst
    rw [Bool.eq_false_iff, Ne, isIdentifierChar_iff]
    exact stops c isFirst

/-- The name characters right behind a gap in a run are those up to the end of the run. -/
theorem IsRun.takeWhile_drop
    (run : IsRun characters start stop) (startLe : start ≤ column) (leStop : column ≤ stop) :
    (characters.drop column).takeWhile isIdentifierChar = between characters column stop := by
  rw [← between_append_drop leStop]
  apply takeWhile_isIdentifierChar_eq
  · intro c member
    apply run.inside
    rw [← between_append startLe leStop]
    exact List.mem_append_right _ member
  · intro c isFirst
    rw [List.head?_drop] at isFirst
    exact run.behind c isFirst

/-- The name characters right before a gap in a run are those from the start of the run. -/
theorem IsRun.takeWhile_reverse_take
    (run : IsRun characters start stop) (startLe : start ≤ column) (leStop : column ≤ stop) :
    (characters.take column).reverse.takeWhile isIdentifierChar =
      (between characters start column).reverse := by
  rw [← take_append_between startLe, List.reverse_append]
  apply takeWhile_isIdentifierChar_eq
  · intro c member
    apply run.inside
    rw [← between_append startLe leStop]
    exact List.mem_append_left _ (List.mem_reverse.mp member)
  · intro c isLast
    rw [List.head?_reverse] at isLast
    cases start with
    | zero => cases isLast
    | succ index =>
        rw [List.getLast?_take, if_neg (Nat.succ_ne_zero index), Nat.add_sub_cancel] at isLast
        have inLine : index < characters.length := by
          have := run.ordered
          have := run.inLine
          omega
        rw [List.getElem?_eq_getElem inLine, Option.some_or] at isLast
        apply run.before index c rfl
        rw [List.getElem?_eq_getElem inLine, isLast]

/-- No two runs touch one gap. -/
theorem IsRun.unique
    {otherStart otherStop : Nat}
    (run : IsRun characters start stop) (startLe : start ≤ column) (leStop : column ≤ stop)
    (other : IsRun characters otherStart otherStop)
    (otherStartLe : otherStart ≤ column) (leOtherStop : column ≤ otherStop) :
    start = otherStart ∧ stop = otherStop := by
  have inLine : column ≤ characters.length :=
    Nat.le_trans leStop run.inLine
  have sameBefore : column - start = column - otherStart := by
    rw [← length_between inLine, ← length_between inLine, ← List.length_reverse,
      ← run.takeWhile_reverse_take startLe leStop,
      other.takeWhile_reverse_take otherStartLe leOtherStop, List.length_reverse]
  have sameBehind : stop - column = otherStop - column := by
    rw [← length_between run.inLine, ← length_between other.inLine,
      ← run.takeWhile_drop startLe leStop, other.takeWhile_drop otherStartLe leOtherStop]
  omega

/-- The identifier at a gap is the run that it touches, unless that is empty. -/
theorem IsRun.identifierInLine_eq
    (run : IsRun characters start stop) (startLe : start ≤ column) (leStop : column ≤ stop) :
    identifierInLine characters column =
      if start < stop then some (between characters start stop) else none := by
  have inLine : ¬ characters.length < column := by
    have := run.inLine
    omega
  have empty_iff : (between characters start stop).isEmpty = true ↔ ¬ start < stop := by
    rw [List.isEmpty_iff_length_eq_zero, length_between run.inLine]
    omega
  rw [identifierInLine, if_neg inLine]
  simp only [run.takeWhile_reverse_take startLe leStop, run.takeWhile_drop startLe leStop,
    List.reverse_reverse, between_append startLe leStop, empty_iff]
  exact ite_not (start < stop) none (some _)

/-! ## Scanning -/

/-- The start of the name characters before a gap, read one by one. Nothing if a character is read
that is not there. -/
def startBefore? (characters : List Char) : Nat → Option Nat
  | 0 => some 0
  | index + 1 => do
      let c ← characters[index]?
      if isIdentifierChar c then startBefore? characters index else some (index + 1)

/-- The end of the name characters behind a gap, read one by one. -/
def stopBehind? (characters : List Char) (column : Nat) : Option Nat :=
  if column < characters.length then do
    let c ← characters[column]?
    if isIdentifierChar c then stopBehind? characters (column + 1) else some column
  else some column
termination_by characters.length - column

/-- The characters between two gaps. Nothing if there are no such gaps. -/
def between? (characters : List Char) (start stop : Nat) : Option (List Char) :=
  if start ≤ stop ∧ stop ≤ characters.length then some (between characters start stop) else none

/-- The identifier that touches a gap, by scanning both ways from it. Nothing if a character is read
that is not there. -/
def scanIdentifier? (characters : List Char) (column : Nat) : Option (Option (List Char)) :=
  if characters.length < column then some none
  else do
    let start ← startBefore? characters column
    let stop ← stopBehind? characters column
    if start < stop then (between? characters start stop).map some else some none

theorem between_self (characters : List Char) (column : Nat) :
    between characters column column = [] := by
  simp [between]

theorem between_succ {index : Nat} (inLine : index < characters.length) :
    between characters index (index + 1) = [characters[index]] := by
  rw [between, Nat.add_sub_cancel_left, List.drop_eq_getElem_cons inLine]
  rfl

theorem exists_startBefore?
    (inLine : column ≤ characters.length) :
    ∃ start, startBefore? characters column = some start ∧ start ≤ column ∧
      (∀ c ∈ between characters start column, IsNameChar c) ∧
        ∀ index c, start = index + 1 → characters[index]? = some c → ¬ IsNameChar c := by
  induction column with
  | zero =>
      refine ⟨0, rfl, Nat.le_refl 0, by simp [between_self], ?_⟩
      intro index c impossible
      cases impossible
  | succ index inductionHypothesis =>
      have read : characters[index]? = some characters[index] := List.getElem?_eq_getElem inLine
      by_cases isName : isIdentifierChar characters[index] = true
      · obtain ⟨start, scanned, startLe, inside, before⟩ :=
          inductionHypothesis (Nat.le_of_succ_le inLine)
        refine ⟨start, by simp [startBefore?, read, isName, scanned], by omega, ?_, before⟩
        rw [← between_append startLe (Nat.le_succ index), between_succ inLine,
          List.forall_mem_append, List.forall_mem_singleton]
        exact ⟨inside, (isIdentifierChar_iff _).mp isName⟩
      · refine ⟨index + 1, by simp [startBefore?, read, isName], Nat.le_refl _,
          by simp [between_self], ?_⟩
        rintro _ c ⟨⟩ isLast
        rw [read, Option.some.injEq] at isLast
        rwa [← isLast, ← isIdentifierChar_iff]

theorem exists_stopBehind?
    (inLine : column ≤ characters.length) :
    ∃ stop, stopBehind? characters column = some stop ∧ column ≤ stop ∧ stop ≤ characters.length ∧
      (∀ c ∈ between characters column stop, IsNameChar c) ∧
        ∀ c, characters[stop]? = some c → ¬ IsNameChar c := by
  induction left : characters.length - column generalizing column with
  | zero =>
      have atEnd : column = characters.length := by
        omega
      subst atEnd
      refine ⟨characters.length, by simp [stopBehind?], Nat.le_refl _, Nat.le_refl _,
        by simp [between_self], ?_⟩
      simp
  | succ fewer inductionHypothesis =>
      have more : column < characters.length := by
        omega
      have read : characters[column]? = some characters[column] := List.getElem?_eq_getElem more
      by_cases isName : isIdentifierChar characters[column] = true
      · obtain ⟨stop, scanned, leStop, stopInLine, inside, behind⟩ :=
          inductionHypothesis more (by omega)
        refine ⟨stop, ?_, by omega, stopInLine, ?_, behind⟩
        · rw [stopBehind?]
          simp [more, isName, scanned]
        · rw [← between_append (Nat.le_succ column) leStop, between_succ more]
          exact List.forall_mem_cons.mpr ⟨(isIdentifierChar_iff _).mp isName, inside⟩
      · refine ⟨column, ?_, Nat.le_refl _, inLine, by simp [between_self], ?_⟩
        · rw [stopBehind?]
          simp [more, isName]
        · intro c isFirst
          rw [read, Option.some.injEq] at isFirst
          rwa [← isFirst, ← isIdentifierChar_iff]

/-- Every gap of a line touches a run, and scanning finds its ends. -/
theorem exists_run
    (inLine : column ≤ characters.length) :
    ∃ start stop, IsRun characters start stop ∧ start ≤ column ∧ column ≤ stop ∧
      startBefore? characters column = some start ∧ stopBehind? characters column = some stop := by
  obtain ⟨start, startScanned, startLe, insideBefore, before⟩ := exists_startBefore? inLine
  obtain ⟨stop, stopScanned, leStop, stopInLine, insideBehind, behind⟩ :=
    exists_stopBehind? inLine
  have inside : ∀ c ∈ between characters start stop, IsNameChar c := by
    rw [← between_append startLe leStop, List.forall_mem_append]
    exact ⟨insideBefore, insideBehind⟩
  exact ⟨start, stop, ⟨Nat.le_trans startLe leStop, stopInLine, inside, before, behind⟩,
    startLe, leStop, startScanned, stopScanned⟩

/-- Scanning reads only characters that are there, and finds the identifier. -/
theorem scanIdentifier?_eq_some (characters : List Char) (column : Nat) :
    scanIdentifier? characters column = some (identifierInLine characters column) := by
  by_cases outside : characters.length < column
  · rw [scanIdentifier?, if_pos outside, identifierInLine, if_pos outside]
  · obtain ⟨start, stop, run, startLe, leStop, startScanned, stopScanned⟩ :=
      exists_run (Nat.le_of_not_lt outside)
    rw [scanIdentifier?, if_neg outside, startScanned, stopScanned,
      run.identifierInLine_eq startLe leStop]
    by_cases nonempty : start < stop
    · simp [nonempty, between?, run.ordered, run.inLine]
    · simp [nonempty]

/-- A line has an identifier at a gap just when the gap touches a run that is not empty. -/
theorem identifierInLine_eq_some_iff (word : List Char) :
    identifierInLine characters column = some word ↔
      ∃ start stop, IsRun characters start stop ∧ start < stop ∧ start ≤ column ∧ column ≤ stop ∧
        word = between characters start stop := by
  constructor
  · intro identified
    by_cases outside : characters.length < column
    · rw [identifierInLine, if_pos outside] at identified
      cases identified
    · obtain ⟨start, stop, run, startLe, leStop, _, _⟩ :=
        exists_run (Nat.le_of_not_lt outside)
      rw [run.identifierInLine_eq startLe leStop] at identified
      split at identified
      next nonempty =>
        exact ⟨start, stop, run, nonempty, startLe, leStop, (Option.some.inj identified).symm⟩
      next => cases identified
  · rintro ⟨start, stop, run, nonempty, startLe, leStop, rfl⟩
    rw [run.identifierInLine_eq startLe leStop, if_pos nonempty]

/-! ## The identifier -/

theorem isIdentifierChar_of_mem_identifierAt
    {text symbol : String} {line column : Nat} {c : Char}
    (identified : identifierAt text line column = some symbol) (member : c ∈ symbol.toList) :
    isIdentifierChar c = true := by
  unfold identifierAt at identified
  simp only [Option.bind_eq_bind, Option.bind_eq_some_iff] at identified
  obtain ⟨characters, _, word, inLine, written⟩ := identified
  obtain rfl := Option.some.inj written
  obtain ⟨start, stop, run, _, _, _, rfl⟩ := (identifierInLine_eq_some_iff word).mp inLine
  rw [String.toList_ofList] at member
  exact (isIdentifierChar_iff c).mpr (run.inside c member)

/-- The identifier at a position is the longest run of name characters around it, so it is the same
from every gap of the run. Where the scans read there is always a character. -/
theorem identifierAt_is_longest_run (text : String) (line column : Nat) :
    (∃ ended rest, Parted '\n' text.toList ended rest) ∧
    ∀ ended rest, Parted '\n' text.toList ended rest →
      (∀ word, identifierAt text line column = some word ↔
        ∃ characters start stop,
          (handedOut '\r' ended rest)[line]? = some characters ∧ column ≤ characters.length ∧
            IsRun characters start stop ∧ start < stop ∧ start ≤ column ∧ column ≤ stop ∧
              word = String.ofList (between characters start stop)) ∧
      ∀ characters, (handedOut '\r' ended rest)[line]? = some characters →
        (∀ start stop, IsRun characters start stop → start ≤ column → column ≤ stop →
          (∀ otherStart otherStop, IsRun characters otherStart otherStop →
            otherStart ≤ column → column ≤ otherStop →
              otherStart = start ∧ otherStop = stop) ∧
          ∀ other, start ≤ other → other ≤ stop →
            identifierAt text line other = identifierAt text line column) ∧
        scanIdentifier? characters column = some (identifierInLine characters column) := by
  refine ⟨exists_parted '\n' text.toList, fun ended rest parted => ?_⟩
  have identifierAt_eq (position : Nat) :
      identifierAt text line position =
        (handedOut '\r' ended rest)[line]?.bind fun characters =>
          (identifierInLine characters position).map String.ofList := by
    rw [identifierAt, parted.lines_eq]
    simp only [Option.map_eq_bind]
    rfl
  refine ⟨fun word => ?_, fun characters isLine => ⟨?_, scanIdentifier?_eq_some _ _⟩⟩
  · simp only [identifierAt_eq, Option.bind_eq_some_iff, Option.map_eq_some_iff,
      identifierInLine_eq_some_iff]
    constructor
    · rintro ⟨characters, isLine, _, ⟨start, stop, run, nonempty, startLe, leStop, rfl⟩, rfl⟩
      exact ⟨characters, start, stop, isLine, Nat.le_trans leStop run.inLine, run, nonempty,
        startLe, leStop, rfl⟩
    · rintro ⟨characters, start, stop, isLine, _, run, nonempty, startLe, leStop, rfl⟩
      exact ⟨characters, isLine, _, ⟨start, stop, run, nonempty, startLe, leStop, rfl⟩, rfl⟩
  · intro start stop run startLe leStop
    refine ⟨?_, ?_⟩
    · intro otherStart otherStop other otherStartLe leOtherStop
      exact other.unique otherStartLe leOtherStop run startLe leStop
    · intro other startLeOther otherLeStop
      rw [identifierAt_eq, identifierAt_eq, isLine, Option.bind_some, Option.bind_some,
        run.identifierInLine_eq startLe leStop, run.identifierInLine_eq startLeOther otherLeStop]

theorem isRun_of_call : IsRun "let foo_1(é)".toList 4 9 where
  ordered := by decide
  inLine := by decide
  inside := by
    have allNames :
        (between "let foo_1(é)".toList 4 9).all isIdentifierChar = true := by
      decide
    intro c member
    exact (isIdentifierChar_iff c).mp (List.all_eq_true.mp allNames c member)
  before := by
    rintro index c ⟨⟩ isBefore
    cases isBefore
    decide
  behind := by
    intro c isBehind
    cases isBehind
    decide

/-- The name of a call on the second line, from the gaps on both its sides. Behind the closing
parenthesis there is none. -/
theorem name_of_call_is_longest_run :
    Parted '\n' "a\r\nlet foo_1(é)".toList ["a\r".toList] "let foo_1(é)".toList ∧
      identifierAt "a\r\nlet foo_1(é)" 1 9 = some "foo_1" ∧
        identifierAt "a\r\nlet foo_1(é)" 1 4 = some "foo_1" ∧
          scanIdentifier? "let foo_1(é)".toList 12 = some none := by
  have parted :
      Parted '\n' "a\r\nlet foo_1(é)".toList ["a\r".toList] "let foo_1(é)".toList :=
    ⟨by decide, by decide, by decide⟩
  have isLine :
      (handedOut '\r' ["a\r".toList] "let foo_1(é)".toList)[1]? = some "let foo_1(é)".toList :=
    rfl
  have ⟨identified, sameRun⟩ :=
    (identifierAt_is_longest_run "a\r\nlet foo_1(é)" 1 9).2 _ _ parted
  have ⟨_, fromGaps⟩ :=
    (sameRun _ isLine).1 4 9 isRun_of_call (by decide) (by decide)
  have atEnd : identifierAt "a\r\nlet foo_1(é)" 1 9 = some "foo_1" :=
    (identified _).mpr ⟨_, 4, 9, isLine, by decide, isRun_of_call, by decide, by decide, by decide,
      by decide⟩
  have ⟨_, atParenthesis⟩ :=
    (identifierAt_is_longest_run "a\r\nlet foo_1(é)" 1 12).2 _ _ parted
  refine ⟨parted, atEnd, ?_, ?_⟩
  · rw [fromGaps 4 (by decide) (by decide), atEnd]
  · rw [(atParenthesis _ isLine).2]
    decide

end MplServer.Text
