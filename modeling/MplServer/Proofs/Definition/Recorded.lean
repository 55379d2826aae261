import MplServer.Definition.Resolver
import MplServer.Proofs.Path.NormalForm

/-!
# Recorded paths

What is left of a recorded path is a relative path with at least one component. Below any folder,
and in normal form, it keeps its file name.
-/

namespace MplServer

/-- What every recorded path looks like once it has been normalised. -/
structure IsRecorded (path : Path) : Prop where
  relative : path.isAbsolute = false
  nonempty : path.components ≠ []

theorem isRecorded_of_normalizeRecorded?
    {recorded : String} {path : Path}
    (normalized : normalizeRecorded? recorded = some path) :
    IsRecorded path := by
  unfold normalizeRecorded? at normalized
  dsimp only at normalized
  split at normalized
  · cases normalized
  next someLeft =>
  rw [Option.some.injEq] at normalized
  rw [List.isEmpty_iff] at someLeft
  obtain ⟨first, others, pieces_eq⟩ := List.exists_cons_of_ne_nil someLeft
  rw [pieces_eq] at normalized
  have fromSplit : ∀ piece ∈ first :: others, '/' ∉ piece.toList ∧ piece ≠ "" := by
    intro piece member
    rw [← pieces_eq, List.mem_filter] at member
    exact ⟨Text.not_mem_of_mem_splitAt member.1, by simpa using member.2⟩
  have path_pieces : path.pieces = first :: others := by
    rw [← normalized]
    exact Text.splitAt_joinWith (List.cons_ne_nil first others)
      fun piece member => (fromSplit piece member).1
  obtain ⟨unbroken, firstNonempty⟩ := fromSplit first List.mem_cons_self
  have relative : path.isAbsolute = false := by
    rw [Bool.eq_false_iff]
    intro absolute
    have blank := Path.head?_pieces_of_isAbsolute absolute
    rw [path_pieces, List.head?_cons, Option.some.injEq] at blank
    exact firstNonempty blank
  refine ⟨relative, fun none => ?_⟩
  unfold Path.components at none
  rw [relative, path_pieces] at none
  by_cases dot : first = "."
  · simp [dot] at none
  · by_cases dots : first = ".."
    · simp [dots, Path.Component.ofPiece?] at none
    · simp [dot, dots, firstNonempty, Path.Component.ofPiece?] at none

/-- Going on to a name, a path in normal form ends with that name. -/
theorem fileName?_normalize_join
    {path next : Path} {name : String}
    (relative : next.isAbsolute = false)
    (named : next.fileName? = some name) :
    (path.join next).normalize.fileName? = some name := by
  rw [Path.fileName?_eq_some_iff, List.getLast?_eq_some_iff] at named
  obtain ⟨front, steps_eq⟩ := named
  have components_eq :
      (path.join next).normalize.components =
        front.foldl Path.climb (Path.normalComponents path.components) ++ [.name name] := by
    rw [Path.components_normalize, Path.normalComponents_join relative, steps_eq,
      List.foldl_append]
    rfl
  rw [Path.fileName?, components_eq, List.getLast?_concat]

end MplServer
