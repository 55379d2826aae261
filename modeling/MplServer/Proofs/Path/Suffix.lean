import MplServer.Path.Lexical
import MplServer.Proofs.Path.Components

/-!
# Paths that end alike

One path ends with another as a text, from a slash on, just when its components end with those of
the other.
-/

namespace MplServer.Path

/-! ## Texts -/

theorem endsOnBoundary_eq_true_iff (text suffix : String) :
    endsOnBoundary text suffix = true ↔
      text = suffix ∨ ∃ before : String, text = before ++ "/" ++ suffix := by
  simp only [endsOnBoundary, Bool.and_eq_true, List.isSuffixOf_iff_suffix,
    Bool.or_eq_true, List.isEmpty_iff, beq_iff_eq]
  constructor
  · rintro ⟨⟨front, whole⟩, boundary⟩
    have front_eq :
        text.toList.take (text.toList.length - suffix.toList.length) = front := by
      rw [← whole, List.length_append, Nat.add_sub_cancel, List.take_left]
    rw [front_eq] at boundary
    rcases boundary with empty | slashed
    · left
      rw [empty, List.nil_append] at whole
      exact String.toList_injective whole.symm
    · right
      obtain ⟨shorter, front_eq⟩ := List.getLast?_eq_some_iff.mp slashed
      refine ⟨String.ofList shorter, String.toList_injective ?_⟩
      rw [← whole, front_eq]
      simp
  · rintro (rfl | ⟨before, rfl⟩)
    · simp
    · refine ⟨⟨(before ++ "/").toList, by simp⟩, Or.inr ?_⟩
      have front_eq :
          (before ++ "/" ++ suffix).toList.take
              ((before ++ "/" ++ suffix).toList.length - suffix.toList.length) =
            (before ++ "/").toList := by
        rw [String.toList_append, List.length_append, Nat.add_sub_cancel, List.take_left]
      rw [front_eq]
      simp

/-- One text ends with another on a boundary when its pieces between slashes end with those of the
other. -/
theorem endsOnBoundary_iff_pieces (text suffix : String) :
    endsOnBoundary text suffix = true ↔
      Text.splitAt '/' suffix <:+ Text.splitAt '/' text := by
  rw [endsOnBoundary_eq_true_iff]
  constructor
  · rintro (rfl | ⟨before, rfl⟩)
    · exact List.suffix_refl _
    · rw [Text.splitAt_append_slash]
      exact List.suffix_append _ _
  · rintro ⟨front, whole⟩
    have joined := congrArg (Text.joinWith '/') whole
    rw [Text.joinWith_splitAt] at joined
    by_cases alone : front = []
    · left
      rw [← joined, alone, List.nil_append, Text.joinWith_splitAt]
    · right
      rw [Text.joinWith_append_slash alone (Text.splitAt_ne_nil '/' suffix),
        Text.joinWith_splitAt] at joined
      exact ⟨_, joined.symm⟩

/-! ## Components -/

/-- A component that is written between slashes. -/
inductive Component.IsPiece : Component → Prop where
  | current : IsPiece .current
  | step {component : Component} (isStep : component.IsStep) : IsPiece component

theorem Component.IsPiece.unbroken
    {component : Component} (isPiece : component.IsPiece) :
    '/' ∉ component.text.toList := by
  cases isPiece with
  | current => decide
  | step isStep => exact isStep.unbroken

theorem Component.IsPiece.text_ne_empty
    {component : Component} (isPiece : component.IsPiece) :
    component.text ≠ "" := by
  cases isPiece with
  | current => decide
  | step isStep => exact isStep.text_ne_empty

theorem Component.IsPiece.eq_of_text_eq
    {left right : Component}
    (leftPiece : left.IsPiece) (rightPiece : right.IsPiece)
    (same : left.text = right.text) :
    left = right := by
  cases leftPiece with
  | current =>
      cases rightPiece with
      | current => rfl
      | step isStep => exact absurd same.symm isStep.text_ne_dot
  | step leftStep =>
      cases rightPiece with
      | current => exact absurd same leftStep.text_ne_dot
      | step rightStep =>
          have read := Component.ofPiece?_text leftStep
          rw [same, Component.ofPiece?_text rightStep, Option.some.injEq] at read
          exact read.symm

theorem eq_of_map_text_eq
    {left right : List Component}
    (leftPieces : ∀ component ∈ left, component.IsPiece)
    (rightPieces : ∀ component ∈ right, component.IsPiece)
    (same : left.map Component.text = right.map Component.text) :
    left = right := by
  induction left generalizing right with
  | nil =>
      rw [List.map_nil, eq_comm, List.map_eq_nil_iff] at same
      exact same.symm
  | cons first others inductionHypothesis =>
      cases right with
      | nil => simp at same
      | cons second rest =>
          rw [List.map_cons, List.map_cons, List.cons.injEq] at same
          rw [List.forall_mem_cons] at leftPieces rightPieces
          rw [leftPieces.1.eq_of_text_eq rightPieces.1 same.1,
            inductionHypothesis leftPieces.2 rightPieces.2 same.2]

theorem map_text_suffix_iff
    {ending components : List Component}
    (endingPieces : ∀ component ∈ ending, component.IsPiece)
    (allPieces : ∀ component ∈ components, component.IsPiece) :
    ending.map Component.text <:+ components.map Component.text ↔
      ending <:+ components := by
  constructor
  · rintro ⟨front, whole⟩
    obtain ⟨before, behind, rfl, _, same⟩ := List.map_eq_append_iff.mp whole.symm
    have behindPieces : ∀ component ∈ behind, component.IsPiece :=
      fun component member => allPieces component (List.mem_append_right before member)
    rw [eq_of_map_text_eq behindPieces endingPieces same]
    exact List.suffix_append before ending
  · exact fun endsWith => endsWith.map Component.text

/-- The components of a path but its root. -/
def rootless (path : Path) : List Component :=
  path.components.filter (· != .root)

theorem isPiece_of_mem_rootless
    {path : Path} {component : Component}
    (member : component ∈ path.rootless) :
    component.IsPiece := by
  obtain ⟨inComponents, notRoot⟩ := List.mem_filter.mp member
  rw [components_eq_opening_append, List.mem_append] at inComponents
  rcases inComponents with opened | isStep
  · unfold opening at opened
    split at opened
    · rw [List.mem_singleton] at opened
      subst opened
      simp at notRoot
    · split at opened
      · rw [List.mem_singleton] at opened
        subst opened
        exact .current
      · cases opened
  · exact .step (isStep_of_mem_steps isStep)

/-- Between the slashes stand the components, and nothing if there are none. -/
theorem splitAt_slashed (path : Path) :
    Text.splitAt '/' path.slashed =
      if path.rootless = [] then [""] else path.rootless.map Component.text := by
  have written : path.slashed = Text.joinWith '/' (path.rootless.map Component.text) := rfl
  rw [written]
  split
  · next nameless => rw [nameless, List.map_nil, Text.joinWith_nil, Text.splitAt_empty]
  · next named =>
    apply Text.splitAt_joinWith
    · rwa [Ne, List.map_eq_nil_iff]
    · intro piece member
      obtain ⟨component, inPath, rfl⟩ := List.mem_map.mp member
      exact (isPiece_of_mem_rootless inPath).unbroken

theorem empty_not_mem_map_text (path : Path) : "" ∉ path.rootless.map Component.text := by
  intro member
  obtain ⟨component, inPath, empty⟩ := List.mem_map.mp member
  exact (isPiece_of_mem_rootless inPath).text_ne_empty empty

/-- One path ends with another on a boundary when its components end with those of the other. -/
theorem endsOnBoundary_slashed_iff
    (path suffix : Path) (nonempty : suffix.rootless ≠ []) :
    endsOnBoundary path.slashed suffix.slashed = true ↔
      suffix.rootless <:+ path.rootless := by
  rw [endsOnBoundary_iff_pieces, splitAt_slashed, splitAt_slashed, if_neg nonempty]
  split
  · next nameless =>
    rw [nameless, List.suffix_cons_iff, List.suffix_nil, List.suffix_nil, List.map_eq_nil_iff]
    refine ⟨fun endsWith => endsWith.resolve_left fun alone => ?_, Or.inr⟩
    apply empty_not_mem_map_text suffix
    rw [alone]
    exact List.mem_cons_self
  · exact map_text_suffix_iff
      (fun _ member => isPiece_of_mem_rootless member)
      (fun _ member => isPiece_of_mem_rootless member)

/-- A path without components is written as nothing, which only such a path ends with. -/
theorem endsOnBoundary_slashed_iff_of_nameless
    (path : Path) {suffix : Path} (nameless : suffix.rootless = []) :
    endsOnBoundary path.slashed suffix.slashed = true ↔ path.rootless = [] := by
  rw [endsOnBoundary_iff_pieces, splitAt_slashed, splitAt_slashed, if_pos nameless]
  split
  · next alsoNameless => exact iff_of_true (List.suffix_refl [""]) alsoNameless
  · next named =>
    refine iff_of_false (fun endsWith => ?_) named
    exact empty_not_mem_map_text path (endsWith.mem List.mem_cons_self)

theorem components_eq_rootless
    {path : Path} (relative : path.isAbsolute = false) :
    path.components = path.rootless := by
  refine (List.filter_eq_self.mpr fun component member => ?_).symm
  rw [bne_iff_ne]
  rintro rfl
  rw [components_eq_opening_append, opening, relative, if_neg Bool.false_ne_true,
    List.mem_append] at member
  rcases member with opened | isStep
  · split at opened <;> simp at opened
  · cases isStep_of_mem_steps isStep

theorem components_eq_root_cons_rootless
    {path : Path} (absolute : path.isAbsolute = true) :
    path.components = .root :: path.rootless := by
  have opened : path.opening = [.root] := by
    rw [opening, if_pos absolute]
  have noRoot : path.steps.filter (· != .root) = path.steps := by
    refine List.filter_eq_self.mpr fun component member => ?_
    rw [bne_iff_ne]
    rintro rfl
    cases isStep_of_mem_steps member
  rw [rootless, components_eq_opening_append, opened, List.filter_append, noRoot]
  rfl

/-- Against a relative suffix the root of a path makes no difference. -/
theorem endsOnBoundary_slashed_iff_of_relative
    {path suffix : Path}
    (relative : suffix.isAbsolute = false)
    (nonempty : suffix.components ≠ []) :
    endsOnBoundary path.slashed suffix.slashed = true ↔
      suffix.components <:+ path.components := by
  have suffix_eq := components_eq_rootless relative
  rw [suffix_eq] at nonempty ⊢
  rw [endsOnBoundary_slashed_iff path suffix nonempty]
  by_cases absolute : path.isAbsolute = true
  · rw [components_eq_root_cons_rootless absolute, List.suffix_cons_iff]
    refine ⟨Or.inr, fun endsWith => endsWith.resolve_left fun same => ?_⟩
    have rootMember : Component.root ∈ suffix.rootless := by
      rw [same]
      exact List.mem_cons_self
    simp [rootless] at rootMember
  · rw [components_eq_rootless (Bool.eq_false_iff.mpr absolute)]

/-- The test on texts is the test on components, whatever the names look like: a path ends with
another if the components of the other, its root aside, come last among its own. Only a path without
components ends with another one that has none. -/
theorem endsOnBoundary_is_componentwise (path suffix : Path) :
    (suffix.rootless ≠ [] →
      (endsOnBoundary path.slashed suffix.slashed = true ↔
        suffix.rootless <:+ path.rootless)) ∧
      (suffix.rootless = [] →
        (endsOnBoundary path.slashed suffix.slashed = true ↔ path.rootless = [])) :=
  ⟨endsOnBoundary_slashed_iff path suffix, endsOnBoundary_slashed_iff_of_nameless path⟩

/-- A file in a directory whose name only ends like the one looked for is another file. -/
theorem source_file_ends_componentwise :
    rootless ⟨"/src/foo.mpl"⟩ ≠ [] ∧
      endsOnBoundary (slashed ⟨"tmp/./p//src/foo.mpl/"⟩) (slashed ⟨"/src/foo.mpl"⟩) = true ∧
        endsOnBoundary (slashed ⟨"tmp/p/xsrc/foo.mpl"⟩) (slashed ⟨"/src/foo.mpl"⟩) = false ∧
          endsOnBoundary (slashed ⟨"/src/foo.mpl"⟩) (slashed ⟨"/"⟩) = false := by
  have named : rootless ⟨"/src/foo.mpl"⟩ ≠ [] := by decide
  refine ⟨named, ?_, ?_, ?_⟩
  · rw [(endsOnBoundary_is_componentwise ⟨"tmp/./p//src/foo.mpl/"⟩ ⟨"/src/foo.mpl"⟩).1 named]
    decide
  · rw [Bool.eq_false_iff, Ne,
      (endsOnBoundary_is_componentwise ⟨"tmp/p/xsrc/foo.mpl"⟩ ⟨"/src/foo.mpl"⟩).1 named]
    decide
  · rw [Bool.eq_false_iff, Ne,
      (endsOnBoundary_is_componentwise ⟨"/src/foo.mpl"⟩ ⟨"/"⟩).2 (by decide)]
    exact named

end MplServer.Path
