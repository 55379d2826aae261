import MplServer.Proofs.Definition.Resolution
import MplServer.Proofs.FileSystem.Order

/-!
# What a search picks

A search picks the least accepted file below the first root that has one. Whatever is not accepted,
or lies below a later root, makes no difference to the pick.
-/

namespace MplServer

namespace FileSystem

variable {files : FileSystem}

def isNote (path : Path) : Bool :=
  path.fileName? == some "note.mpl"

/-- Notes in two directories and in a hidden one, with another file beside them. -/
def shelves (other : String) : FileSystem where
  root := .directory
    [(other, .file [] false),
      ("a-b", .directory [("note.mpl", .file [] false)]),
      ("a", .directory [("note.mpl", .file [] false)]),
      (".a", .directory [("note.mpl", .file [] false)])]
  workingDirectory := []

theorem shelves_lawful
    {other : String} (isOther : other = "a.mpl" ∨ other = "A") :
    (shelves other).root.Lawful := by
  have noteLawful : (Node.directory [("note.mpl", .file [] false)]).Lawful :=
    .directory (by decide) (by decide) (by simp [Node.Lawful.file])
  rcases isOther with rfl | rfl <;>
    exact .directory (by decide) (by decide) (by simp [Node.Lawful.file, noteLawful])

theorem meetsAt_shelves_iff
    {other : String} (isOther : other = "a.mpl" ∨ other = "A") (names : Place) :
    (shelves other).MeetsAt ⟨"/"⟩ names ↔
      names = [other] ∨ names = ["a-b", "note.mpl"] ∨ names = ["a", "note.mpl"] := by
  have found : (shelves other).find ⟨"/"⟩ = .ok (shelves other).root := rfl
  have listedHere : listed ⟨"/"⟩ [other] = true := rfl
  have listedBelow :
      listed ⟨"/"⟩ ["a-b", "note.mpl"] = true ∧ listed ⟨"/"⟩ ["a", "note.mpl"] = true := by
    decide
  rw [← mem_namesUnder_iff (shelves_lawful isOther), namesUnder, if_neg (by decide), found]
  have visible :
      names ∈ (shelves other).root.visibleFiles ↔
        names = [other] ∨ names = ["a-b", "note.mpl"] ∨ names = ["a", "note.mpl"] := by
    rcases isOther with rfl | rfl <;>
      simp [shelves, Node.visibleFiles, Node.visibleEntries, isHidden, eq_comm]
  rw [List.mem_filter, visible, and_iff_left_iff_imp]
  rintro (rfl | rfl | rfl)
  · exact listedHere
  · exact listedBelow.1
  · exact listedBelow.2

theorem isLeastAccepted_shelves :
    (shelves "a.mpl").IsLeastAccepted ⟨"/"⟩ isNote ["a", "note.mpl"] where
  meetsAt := (meetsAt_shelves_iff (Or.inl rfl) _).mpr (Or.inr (Or.inr rfl))
  accepted := by decide
  least := by
    intro other meetsAt accepted different
    rcases (meetsAt_shelves_iff (Or.inl rfl) other).mp meetsAt with rfl | rfl | rfl
    · exact absurd accepted (by decide)
    · exact namesInBytes_cons_lt_of_name (by decide) _ _
    · exact absurd rfl different

end FileSystem

end MplServer
