import Mathlib.Data.List.Infix
import MplServer.Proofs.Path.Components

/-!
# The directories above a path

Going up from an absolute path cuts off one step after the other until the root is left. Every path
on the way is absolute and its text begins the text it started from.
-/

namespace MplServer.Path

/-! ## Cutting off the last piece -/

theorem filterMap_dropWhile_meaningless (pieces : List String) :
    (pieces.dropWhile fun piece => (Component.ofPiece? piece).isNone).filterMap
        Component.ofPiece? =
      pieces.filterMap Component.ofPiece? := by
  induction pieces with
  | nil => rfl
  | cons first others inductionHypothesis =>
      cases read : Component.ofPiece? first with
      | none =>
          rw [List.dropWhile_cons_of_pos (by simp [read]), inductionHypothesis,
            List.filterMap_cons_none read]
      | some step => rw [List.dropWhile_cons_of_neg (by simp [read])]

theorem filterMap_drop_dropWhile_meaningless (pieces : List String) :
    ((pieces.dropWhile fun piece => (Component.ofPiece? piece).isNone).drop 1).filterMap
        Component.ofPiece? =
      (pieces.filterMap Component.ofPiece?).tail := by
  have meaningful :=
    List.head?_dropWhile_not (fun piece => (Component.ofPiece? piece).isNone) pieces
  rw [← filterMap_dropWhile_meaningless pieces]
  cases kept : pieces.dropWhile fun piece => (Component.ofPiece? piece).isNone with
  | nil => rfl
  | cons first others =>
      rw [kept] at meaningful
      cases read : Component.ofPiece? first with
      | none => simp [read] at meaningful
      | some step =>
          rw [List.filterMap_cons_some read]
          rfl

theorem filterMap_withoutLast (pieces : List String) :
    (withoutLast pieces).filterMap Component.ofPiece? =
      (pieces.filterMap Component.ofPiece?).dropLast := by
  unfold withoutLast
  dsimp only
  rw [List.filterMap_reverse, filterMap_dropWhile_meaningless,
    filterMap_drop_dropWhile_meaningless, List.filterMap_reverse, List.tail_reverse,
    List.reverse_reverse]

theorem withoutLast_prefix (pieces : List String) : withoutLast pieces <+: pieces := by
  unfold withoutLast
  dsimp only
  rw [← List.reverse_suffix, List.reverse_reverse]
  exact ((List.dropWhile_suffix _).trans (List.drop_suffix 1 _)).trans
    (List.dropWhile_suffix _)

/-- When nothing with a meaning is left, nothing is left. -/
theorem withoutLast_eq_nil
    {pieces : List String}
    (meaningless : (withoutLast pieces).filterMap Component.ofPiece? = []) :
    withoutLast pieces = [] := by
  by_contra someLeft
  unfold withoutLast at meaningless someLeft
  dsimp only at meaningless someLeft
  rw [List.reverse_eq_nil_iff] at someLeft
  have meaningful := List.head_dropWhile_not _ someLeft
  have member := List.head_mem someLeft
  rw [List.filterMap_eq_nil_iff] at meaningless
  have noMeaning := meaningless _ (List.mem_reverse.mpr member)
  rw [noMeaning] at meaningful
  cases meaningful

/-! ## The path above an absolute path -/

theorem steps_slash_joinWith
    {parts : List String}
    (apart : ∀ part ∈ parts, '/' ∉ part.toList) :
    steps ⟨"/" ++ Text.joinWith '/' parts⟩ = parts.filterMap Component.ofPiece? := by
  have cut := steps_append_slash "" (Text.joinWith '/' parts)
  rw [String.empty_append, steps_empty, List.nil_append] at cut
  rw [cut]
  by_cases none : parts = []
  · subst none
    exact steps_empty
  · rw [steps, pieces, Text.splitAt_joinWith none apart]

theorem pieces_eq_cons_of_isAbsolute
    {path : Path}
    (absolute : path.isAbsolute = true) :
    path.pieces = "" :: path.pieces.tail := by
  have first := head?_pieces_of_isAbsolute absolute
  rw [List.head?_eq_some_iff] at first
  obtain ⟨rest, whole⟩ := first
  rw [whole, List.tail_cons]

theorem steps_eq_filterMap_tail
    {path : Path}
    (absolute : path.isAbsolute = true) :
    path.steps = path.pieces.tail.filterMap Component.ofPiece? := by
  have whole := pieces_eq_cons_of_isAbsolute absolute
  have blank : Component.ofPiece? "" = none := by
    decide
  rw [steps, whole, List.filterMap_cons_none blank, List.tail_cons]

theorem components_of_isAbsolute
    {path : Path}
    (absolute : path.isAbsolute = true) :
    path.components = .root :: path.steps := by
  rw [components_eq_opening_append, opening, if_pos absolute]
  rfl

theorem text_ne_empty_of_isAbsolute
    {path : Path}
    (absolute : path.isAbsolute = true) :
    path.text ≠ "" := by
  intro empty
  rw [isAbsolute, empty] at absolute
  cases absolute

theorem any_pieces_iff (path : Path) :
    (path.pieces.any fun piece => (Component.ofPiece? piece).isSome) = true ↔
      path.steps ≠ [] := by
  rw [List.any_eq_true, steps, Ne, List.filterMap_eq_nil_iff]
  constructor
  · rintro ⟨piece, member, meaning⟩ meaningless
    rw [meaningless piece member] at meaning
    cases meaning
  · intro someMeaning
    by_contra noMeaning
    apply someMeaning
    intro piece member
    by_contra meaning
    exact noMeaning ⟨piece, member, Option.isSome_iff_ne_none.mpr meaning⟩

theorem exists_joinWith_eq_append
    {front parts : List String}
    (isPrefix : front <+: parts) :
    ∃ cut : String, Text.joinWith '/' parts = Text.joinWith '/' front ++ cut := by
  obtain ⟨behind, rfl⟩ := isPrefix
  by_cases frontEmpty : front = []
  · refine ⟨Text.joinWith '/' behind, ?_⟩
    rw [frontEmpty, List.nil_append, Text.joinWith_nil, String.empty_append]
  by_cases behindEmpty : behind = []
  · refine ⟨"", ?_⟩
    rw [behindEmpty, List.append_nil, String.append_empty]
  · refine ⟨"/" ++ Text.joinWith '/' behind, ?_⟩
    rw [Text.joinWith_append_slash frontEmpty behindEmpty, String.append_assoc]

theorem text_eq_slash_append
    {path : Path}
    (absolute : path.isAbsolute = true) :
    path.text = "/" ++ Text.joinWith '/' path.pieces.tail := by
  have joined : Text.joinWith '/' path.pieces = path.text :=
    Text.joinWith_splitAt '/' path.text
  have whole := pieces_eq_cons_of_isAbsolute absolute
  cases behind : path.pieces.tail with
  | nil =>
      rw [behind] at whole
      have empty : path.text = "" := by
        rw [← joined, whole]
        decide
      exact absurd empty (text_ne_empty_of_isAbsolute absolute)
  | cons first others =>
      have split : path.pieces = [""] ++ (first :: others) := by
        rw [whole, behind]
        rfl
      rw [← joined, split,
        Text.joinWith_append_slash (List.cons_ne_nil _ _) (List.cons_ne_nil _ _)]
      have blank : Text.joinWith '/' [""] = "" := by
        decide
      rw [blank, String.empty_append]

/-- A path that lies some levels above an absolute path: the last steps are gone, and when none is
left it is the root. -/
structure IsAbove (path : Path) (levels : Nat) (up : Path) : Prop where
  absolute : up.isAbsolute = true
  steps : up.steps = path.steps.take (path.steps.length - levels)
  root : 0 < levels → up.steps = [] → up = ⟨"/"⟩
  cut : ∃ behind : String, path.text = up.text ++ behind

theorem exists_parent?_of_isAbsolute
    {path : Path}
    (absolute : path.isAbsolute = true)
    (someStep : path.steps ≠ []) :
    ∃ up, path.parent? = some up ∧ IsAbove path 1 up := by
  refine ⟨⟨"/" ++ Text.joinWith '/' (withoutLast path.pieces.tail)⟩, ?_, ?_⟩
  · have hasName := (any_pieces_iff path).mpr someStep
    simp only [parent?, absolute, hasName, if_true]
  · have isPrefix := withoutLast_prefix path.pieces.tail
    have apart : ∀ piece ∈ withoutLast path.pieces.tail, '/' ∉ piece.toList := by
      intro piece member
      have inTail := isPrefix.subset member
      exact Text.not_mem_of_mem_splitAt (List.mem_of_mem_tail inTail)
    have steps_eq := steps_slash_joinWith apart
    have cut := filterMap_withoutLast path.pieces.tail
    constructor
    · simp [isAbsolute]
    · rw [steps_eq, cut, steps_eq_filterMap_tail absolute, List.dropLast_eq_take]
    · intro _ noSteps
      rw [steps_eq] at noSteps
      rw [withoutLast_eq_nil noSteps]
      decide
    · obtain ⟨behind, joined⟩ := exists_joinWith_eq_append isPrefix
      refine ⟨behind, ?_⟩
      rw [text_eq_slash_append absolute, joined, String.append_assoc]

theorem IsAbove.length_succ
    {path up : Path}
    (isAbove : IsAbove path 1 up)
    (someStep : path.steps ≠ []) :
    up.steps.length + 1 = path.steps.length := by
  have positive := List.length_pos_of_ne_nil someStep
  rw [isAbove.steps, List.length_take]
  omega

theorem parent?_of_steps_eq_nil
    {path : Path}
    (absolute : path.isAbsolute = true)
    (noSteps : path.steps = []) :
    path.parent? = none := by
  have noName := mt (any_pieces_iff path).mp (not_not_intro noSteps)
  rw [Bool.not_eq_true] at noName
  simp only [parent?, absolute, noName, if_true]
  rfl

/-! ## Paths made absolute -/

theorem isAbsolute_ofComponents
    {components : List Component}
    (allSteps : ∀ step ∈ components, step.IsStep) :
    (ofComponents components).isAbsolute = false := by
  have noOpening := opening_joinWith allSteps
  rw [← ofComponents_of_steps allSteps] at noOpening
  rw [Bool.eq_false_iff]
  intro absolute
  rw [opening, if_pos absolute] at noOpening
  cases noOpening

/-- Seen from an absolute directory every path is absolute, unless it is empty. -/
theorem isAbsolute_absolute
    {directory path : Path}
    (fromRoot : directory.isAbsolute = true)
    (nonempty : path.text ≠ "") :
    (absolute directory path).isAbsolute = true := by
  have namesRelative : (ofComponents path.steps).isAbsolute = false :=
    isAbsolute_ofComponents fun step member => isStep_of_mem_steps member
  have closing : (⟨""⟩ : Path).isAbsolute = false := by
    decide
  have startAbsolute :
      ∀ start : Path, start.isAbsolute = true →
        ∀ names : Path, names.isAbsolute = false → ∀ noSteps closed : Bool,
          (let whole := if noSteps then start else start.join names
            if closed then whole.join ⟨""⟩ else whole).isAbsolute = true := by
    intro start isAbsolute names relative noSteps closed
    cases noSteps <;> cases closed <;> simp [isAbsolute_join, relative, closing, isAbsolute]
  unfold absolute
  rw [if_neg (by simpa using nonempty), filter_components]
  apply startAbsolute _ _ _ namesRelative
  split
  · split <;> decide
  · exact fromRoot

theorem steps_absolute
    {path : Path} (alreadyAbsolute : path.isAbsolute = true) (directory : Path) :
    (absolute directory path).steps = path.steps := by
  have allSteps : ∀ step ∈ path.steps, step.IsStep :=
    fun step member => isStep_of_mem_steps member
  have namesRelative := isAbsolute_ofComponents allSteps
  have closing : (⟨""⟩ : Path).isAbsolute = false := by
    decide
  have names_steps : (ofComponents path.steps).steps = path.steps := by
    rw [ofComponents_of_steps allSteps, steps_joinWith allSteps]
  have behind :
      ∀ start : Path, start.steps = [] → ∀ closed : Bool,
        (let whole :=
            if path.steps.isEmpty then start else start.join (ofComponents path.steps)
          if closed then whole.join ⟨""⟩ else whole).steps = path.steps := by
    intro start noSteps closed
    have whole_steps :
        (if path.steps.isEmpty then start
          else start.join (ofComponents path.steps)).steps = path.steps := by
      split
      · next none => rw [noSteps, List.isEmpty_iff.mp none]
      · rw [steps_join namesRelative, noSteps, names_steps, List.nil_append]
    dsimp only
    cases closed with
    | true => rw [if_pos rfl, steps_join closing, whole_steps, steps_empty, List.append_nil]
    | false => rw [if_neg Bool.false_ne_true, whole_steps]
  have nonempty := text_ne_empty_of_isAbsolute alreadyAbsolute
  unfold absolute
  rw [if_neg (by simpa using nonempty), filter_components, if_pos alreadyAbsolute]
  apply behind
  split <;> decide

/-- A path that is absolute keeps its components when it is made absolute. -/
theorem components_absolute
    {directory path : Path}
    (fromRoot : directory.isAbsolute = true) (alreadyAbsolute : path.isAbsolute = true) :
    (absolute directory path).components = path.components := by
  have nonempty := text_ne_empty_of_isAbsolute alreadyAbsolute
  rw [components_of_isAbsolute (isAbsolute_absolute fromRoot nonempty),
    components_of_isAbsolute alreadyAbsolute, steps_absolute alreadyAbsolute]

/-! ## Going up -/

/-- The path some levels above a path. Where nothing lies above, it stays. -/
def above (path : Path) : Nat → Path
  | 0 => path
  | levels + 1 =>
      match path.parent? with
      | some up => up.above levels
      | none => path

@[simp]
theorem above_zero (path : Path) : path.above 0 = path := rfl

theorem above_succ
    {path up : Path}
    (parent : path.parent? = some up) (levels : Nat) :
    path.above (levels + 1) = up.above levels := by
  rw [above, parent]

theorem isAbove_above
    {path : Path} {levels : Nat}
    (absolute : path.isAbsolute = true)
    (within : levels ≤ path.steps.length) :
    IsAbove path levels (path.above levels) := by
  induction levels generalizing path with
  | zero =>
      refine ⟨absolute, ?_, fun impossible => absurd impossible (Nat.lt_irrefl 0), "", ?_⟩
      · rw [above_zero, Nat.sub_zero, List.take_length]
      · rw [above_zero, String.append_empty]
  | succ fewer inductionHypothesis =>
      have someStep : path.steps ≠ [] := by
        intro none
        rw [none] at within
        cases within
      obtain ⟨up, parent, isAbove⟩ := exists_parent?_of_isAbsolute absolute someStep
      have length_eq := isAbove.length_succ someStep
      have onward := inductionHypothesis isAbove.absolute (by omega)
      rw [above_succ parent]
      refine ⟨onward.absolute, ?_, ?_, ?_⟩
      · rw [onward.steps, isAbove.steps, List.take_take, List.length_take]
        congr 1
        omega
      · intro _ noSteps
        cases fewer with
        | zero => exact isAbove.root Nat.one_pos noSteps
        | succ evenFewer => exact onward.root (Nat.succ_pos evenFewer) noSteps
      · obtain ⟨first, first_eq⟩ := isAbove.cut
        obtain ⟨second, second_eq⟩ := onward.cut
        exact ⟨second ++ first, by rw [first_eq, second_eq, String.append_assoc]⟩

/-- The steps that are gone some levels above are the last ones. -/
theorem exists_steps_eq_append
    {path : Path} {levels : Nat}
    (absolute : path.isAbsolute = true)
    (within : levels ≤ path.steps.length) :
    ∃ behind, path.steps = (path.above levels).steps ++ behind ∧ behind.length = levels := by
  refine ⟨path.steps.drop (path.steps.length - levels), ?_, ?_⟩
  · rw [(isAbove_above absolute within).steps, List.take_append_drop]
  · rw [List.length_drop]
    omega

theorem steps_above_length
    {path : Path} {front behind : List Component}
    (absolute : path.isAbsolute = true)
    (parts : path.steps = front ++ behind) :
    (path.above behind.length).steps = front := by
  have within : behind.length ≤ path.steps.length := by
    rw [parts, List.length_append]
    omega
  rw [(isAbove_above absolute within).steps, parts, List.length_append,
    Nat.add_sub_cancel, List.take_left]

/-- The last path on the way up is the root. -/
theorem above_length_eq_root
    {path : Path}
    (absolute : path.isAbsolute = true)
    (someStep : path.steps ≠ []) :
    path.above path.steps.length = ⟨"/"⟩ := by
  have isAbove := isAbove_above absolute (Nat.le_refl path.steps.length)
  apply isAbove.root (List.length_pos_of_ne_nil someStep)
  rw [isAbove.steps, Nat.sub_self, List.take_zero]

end MplServer.Path
