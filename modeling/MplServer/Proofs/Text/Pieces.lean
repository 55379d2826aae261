import Mathlib.Data.List.Infix
import MplServer.Text.Basic

/-!
# Cutting and joining

A text cut at a separator and joined again is the same text, and pieces without the separator
survive being joined and cut. Cutting distributes over a separator in the middle of a text.
-/

namespace MplServer.Text

/-- What is taken while a condition holds ends where the condition first fails. -/
theorem takeWhile_append_of_stop
    {alpha : Type} {holds : alpha → Bool} {front rest : List alpha}
    (inside : ∀ item ∈ front, holds item = true)
    (stops : ∀ item, rest.head? = some item → holds item = false) :
    (front ++ rest).takeWhile holds = front := by
  rw [List.takeWhile_append_of_pos inside]
  cases rest with
  | nil => simp
  | cons first others =>
      rw [List.takeWhile_cons_of_neg, List.append_nil]
      rw [stops first rfl]
      exact Bool.false_ne_true

theorem dropWhile_append_of_stop
    {alpha : Type} {holds : alpha → Bool} {front rest : List alpha}
    (inside : ∀ item ∈ front, holds item = true)
    (stops : ∀ item, rest.head? = some item → holds item = false) :
    (front ++ rest).dropWhile holds = rest := by
  rw [List.dropWhile_append_of_pos inside]
  cases rest with
  | nil => rfl
  | cons first others =>
      rw [List.dropWhile_cons_of_neg]
      rw [stops first rfl]
      exact Bool.false_ne_true

theorem separates_eq_false_of_mem_splitOnP
    {alpha : Type} {separates : alpha → Bool} {items piece : List alpha}
    (member : piece ∈ items.splitOnP separates) :
    ∀ item ∈ piece, separates item = false := by
  induction items generalizing piece with
  | nil =>
      rw [List.splitOnP_nil, List.mem_singleton] at member
      simp [member]
  | cons head tail inductionHypothesis =>
      rw [List.splitOnP_cons_eq_if_modifyHead] at member
      by_cases isSeparator : separates head = true
      · rw [if_pos isSeparator] at member
        rcases List.mem_cons.mp member with rfl | later
        · simp
        · exact inductionHypothesis later
      · rw [if_neg isSeparator] at member
        -- The head joins the first piece of the tail, and there always is one.
        cases pieces : tail.splitOnP separates with
        | nil => exact absurd pieces (List.splitOnP_ne_nil separates tail)
        | cons first others =>
            rw [pieces] at member inductionHypothesis
            rw [List.modifyHead_cons, List.mem_cons] at member
            rcases member with rfl | later
            · rw [List.forall_mem_cons]
              exact ⟨Bool.eq_false_iff.mpr isSeparator, inductionHypothesis List.mem_cons_self⟩
            · exact inductionHypothesis (List.mem_cons_of_mem first later)

theorem not_mem_of_mem_splitOn
    {alpha : Type} [DecidableEq alpha] {separator : alpha} {items piece : List alpha}
    (member : piece ∈ items.splitOn separator) :
    separator ∉ piece := by
  rw [List.splitOn_eq_splitOnP] at member
  intro present
  simpa using separates_eq_false_of_mem_splitOnP member separator present

theorem not_mem_of_mem_splitAt
    {separator : Char} {text piece : String}
    (member : piece ∈ splitAt separator text) :
    separator ∉ piece.toList := by
  obtain ⟨characters, inCharacters, rfl⟩ := List.mem_map.mp member
  rw [String.toList_ofList]
  exact not_mem_of_mem_splitOn inCharacters

theorem mem_intercalate_iff
    {alpha : Type} {separator item : alpha} (apart : item ≠ separator)
    (pieces : List (List alpha)) :
    item ∈ List.intercalate [separator] pieces ↔ ∃ piece ∈ pieces, item ∈ piece := by
  induction pieces with
  | nil => simp
  | cons first others inductionHypothesis =>
      cases others with
      | nil => simp
      | cons second more => simp [List.intercalate_cons_cons, apart, inductionHypothesis]

theorem mem_of_mem_splitOn
    {alpha : Type} [DecidableEq alpha] {separator item : alpha} {items piece : List alpha}
    (member : piece ∈ items.splitOn separator)
    (inPiece : item ∈ piece) :
    item ∈ items := by
  have apart : item ≠ separator := by
    rintro rfl
    exact not_mem_of_mem_splitOn member inPiece
  have whole : List.intercalate [separator] (items.splitOn separator) = items :=
    List.intercalate_splitOn separator
  rw [← whole, mem_intercalate_iff apart]
  exact ⟨piece, member, inPiece⟩

theorem mem_of_mem_splitAt
    {separator c : Char} {text piece : String}
    (member : piece ∈ splitAt separator text)
    (inPiece : c ∈ piece.toList) :
    c ∈ text.toList := by
  obtain ⟨characters, inCharacters, rfl⟩ := List.mem_map.mp member
  rw [String.toList_ofList] at inPiece
  exact mem_of_mem_splitOn inCharacters inPiece

theorem exists_mem_splitOn
    {alpha : Type} [DecidableEq alpha] {separator item : alpha} {items : List alpha}
    (member : item ∈ items) (apart : item ≠ separator) :
    ∃ piece ∈ items.splitOn separator, item ∈ piece := by
  rwa [← mem_intercalate_iff apart, List.intercalate_splitOn]

theorem exists_mem_splitAt
    {separator c : Char} {text : String}
    (member : c ∈ text.toList) (apart : c ≠ separator) :
    ∃ piece ∈ splitAt separator text, c ∈ piece.toList := by
  obtain ⟨characters, inCharacters, inPiece⟩ := exists_mem_splitOn member apart
  refine ⟨String.ofList characters, List.mem_map_of_mem inCharacters, ?_⟩
  rwa [String.toList_ofList]

theorem splitAt_ne_nil (separator : Char) (text : String) :
    splitAt separator text ≠ [] := by
  simp [splitAt, List.splitOn_ne_nil]

@[simp]
theorem splitAt_empty (separator : Char) :
    splitAt separator "" = [""] := by
  simp [splitAt]

theorem splitAt_eq_singleton
    {separator : Char} {text : String}
    (apart : separator ∉ text.toList) :
    splitAt separator text = [text] := by
  simp [splitAt, List.splitOn_eq_singleton apart]

theorem splitAt_append_slash (left right : String) :
    splitAt '/' (left ++ "/" ++ right) =
      splitAt '/' left ++ splitAt '/' right := by
  have characters :
      (left ++ "/" ++ right).toList = left.toList ++ '/' :: right.toList := by
    simp
  rw [splitAt, characters, List.splitOn_append_cons_self, List.map_append]
  rfl

@[simp]
theorem joinWith_nil (separator : Char) :
    joinWith separator [] = "" := rfl

@[simp]
theorem joinWith_singleton (separator : Char) (piece : String) :
    joinWith separator [piece] = piece := by
  simp [joinWith]

theorem toList_joinWith (separator : Char) (pieces : List String) :
    (joinWith separator pieces).toList =
      List.intercalate [separator] (pieces.map String.toList) := by
  simp [joinWith]

theorem splitAt_joinWith
    {separator : Char} {pieces : List String}
    (nonempty : pieces ≠ [])
    (apart : ∀ piece ∈ pieces, separator ∉ piece.toList) :
    splitAt separator (joinWith separator pieces) = pieces := by
  have cut :
      (List.intercalate [separator] (pieces.map String.toList)).splitOn separator =
        pieces.map String.toList := by
    apply List.splitOn_intercalate
    · simpa using apart
    · simpa using nonempty
  rw [splitAt, toList_joinWith, cut, List.map_map]
  simp [Function.comp_def]

theorem joinWith_splitAt (separator : Char) (text : String) :
    joinWith separator (splitAt separator text) = text := by
  simp [splitAt, joinWith, Function.comp_def, List.intercalate_splitOn]

theorem toList_joinWith_cons
    (separator : Char) (first : String) {others : List String} (more : others ≠ []) :
    (joinWith separator (first :: others)).toList =
      first.toList ++ separator :: (joinWith separator others).toList := by
  obtain ⟨second, rest, rfl⟩ := List.exists_cons_of_ne_nil more
  rw [toList_joinWith, toList_joinWith, List.map_cons, List.map_cons,
    List.intercalate_cons_cons, List.append_assoc, List.singleton_append]

theorem joinWith_append_slash
    {left right : List String}
    (leftNonempty : left ≠ []) (rightNonempty : right ≠ []) :
    joinWith '/' (left ++ right) = joinWith '/' left ++ "/" ++ joinWith '/' right := by
  apply String.toList_injective
  induction left with
  | nil => exact absurd rfl leftNonempty
  | cons first others inductionHypothesis =>
      by_cases alone : others = []
      · subst alone
        rw [List.singleton_append, toList_joinWith_cons '/' first rightNonempty]
        simp
      · have more : others ++ right ≠ [] := List.append_ne_nil_of_left_ne_nil alone right
        rw [List.cons_append, toList_joinWith_cons '/' first more, inductionHypothesis alone,
          String.toList_append, String.toList_append, String.toList_append, String.toList_append,
          toList_joinWith_cons '/' first alone]
        simp

/-- A slash before each piece is as much as a slash before all and one between neighbours. -/
theorem slash_append_joinWith
    {pieces : List String} (nonempty : pieces ≠ []) :
    ("/" ++ joinWith '/' pieces).toList = pieces.flatMap fun piece => '/' :: piece.toList := by
  induction pieces with
  | nil => exact absurd rfl nonempty
  | cons first others inductionHypothesis =>
      by_cases alone : others = []
      · subst alone
        simp
      · have shorter := inductionHypothesis alone
        have parts := joinWith_append_slash (List.cons_ne_nil first []) alone
        rw [List.singleton_append] at parts
        rw [parts, List.flatMap_cons, ← shorter]
        simp

theorem size_joinWith_cons (first : String) {others : List String} (more : others ≠ []) :
    (joinWith '/' (first :: others)).utf8ByteSize =
      first.utf8ByteSize + 1 + (joinWith '/' others).utf8ByteSize := by
  have parts := joinWith_append_slash (List.cons_ne_nil first []) more
  have slash : "/".utf8ByteSize = 1 := by decide
  rw [List.singleton_append, joinWith_singleton] at parts
  rw [parts, String.utf8ByteSize_append, String.utf8ByteSize_append, slash]

theorem size_joinWith_le_of_sublist
    {part whole : List String} (sublist : part.Sublist whole) :
    (joinWith '/' part).utf8ByteSize ≤ (joinWith '/' whole).utf8ByteSize := by
  induction sublist with
  | slnil => exact Nat.le_refl _
  | @cons part others dropped inSublist inductionHypothesis =>
      by_cases alone : others = []
      · subst alone
        rw [List.sublist_nil.mp inSublist]
        simp
      · rw [size_joinWith_cons dropped alone]
        omega
  | @cons_cons part others first inSublist inductionHypothesis =>
      by_cases alone : part = []
      · subst alone
        by_cases last : others = []
        · rw [last]
        · rw [size_joinWith_cons first last, joinWith_singleton]
          omega
      · have more : others ≠ [] := by
          rintro rfl
          exact alone (List.sublist_nil.mp inSublist)
        rw [size_joinWith_cons first alone, size_joinWith_cons first more]
        omega

/-- What follows the last separator of a text can be told from what comes before. -/
theorem append_separator_inj
    {separator : Char} {left right first second : String}
    (firstApart : separator ∉ first.toList) (secondApart : separator ∉ second.toList)
    (same :
      left.toList ++ separator :: first.toList = right.toList ++ separator :: second.toList) :
    left = right ∧ first = second := by
  have sameEnds := congrArg (List.splitOn separator) same
  rw [List.splitOn_append_cons_self, List.splitOn_append_cons_self,
    List.splitOn_eq_singleton firstApart, List.splitOn_eq_singleton secondApart] at sameEnds
  obtain ⟨sameFront, sameLast⟩ := List.append_inj' sameEnds rfl
  have sameSplit : splitAt separator left = splitAt separator right := by
    rw [splitAt, splitAt, sameFront]
  constructor
  · rw [← joinWith_splitAt separator left, sameSplit, joinWith_splitAt]
  · exact String.toList_injective (List.cons.inj sameLast).1

/-- A text is its first piece, or begins with its first piece and a slash. -/
theorem exists_first_piece (text : String) :
    ∃ first : String,
      '/' ∉ first.toList ∧
        (text = first ∨ ∃ behind : String, text = first ++ "/" ++ behind) := by
  have whole := joinWith_splitAt '/' text
  cases pieces : splitAt '/' text with
  | nil => exact absurd pieces (splitAt_ne_nil '/' text)
  | cons first others =>
      have inPieces : first ∈ splitAt '/' text := by
        rw [pieces]
        exact List.mem_cons_self
      refine ⟨first, not_mem_of_mem_splitAt inPieces, ?_⟩
      rw [pieces] at whole
      by_cases alone : others = []
      · subst alone
        left
        rw [← whole]
        simp
      · right
        refine ⟨joinWith '/' others, ?_⟩
        rw [← whole, ← List.singleton_append,
          joinWith_append_slash (List.cons_ne_nil first []) alone]
        simp

/-- A text is its last piece, or ends with a slash and its last piece. -/
theorem exists_last_piece (text : String) :
    ∃ last : String,
      '/' ∉ last.toList ∧
        (text = last ∨ ∃ before : String, text = before ++ "/" ++ last) := by
  have whole := joinWith_splitAt '/' text
  rcases List.eq_nil_or_concat' (splitAt '/' text) with none | ⟨front, last, pieces⟩
  · exact absurd none (splitAt_ne_nil '/' text)
  · have inPieces : last ∈ splitAt '/' text := by
      rw [pieces]
      simp
    refine ⟨last, not_mem_of_mem_splitAt inPieces, ?_⟩
    rw [pieces] at whole
    by_cases alone : front = []
    · subst alone
      left
      rw [← whole]
      simp
    · right
      refine ⟨joinWith '/' front, ?_⟩
      rw [← whole, joinWith_append_slash alone (List.cons_ne_nil last [])]
      simp

end MplServer.Text
