import Mathlib.Data.String.Basic
import MplServer.Proofs.FileSystem.Search
import MplServer.Proofs.Text.ByteOrder

/-!
# The order of a walk

A walk meets files in the order of the names that lead to them, compared name by name and each name
by its bytes. So the first accepted file of a walk is the least of the accepted files, and no other
file makes a difference to it.
-/

namespace MplServer

/-- The names of a place, each as its bytes. -/
def namesInBytes (names : Place) : List Bytes :=
  names.map Text.encode

theorem namesInBytes_cons_lt_of_name
    {first other : String} (earlier : first < other) (rest more : Place) :
    namesInBytes (first :: rest) < namesInBytes (other :: more) :=
  List.cons_lt_cons_iff.mpr (Or.inl (Text.encode_lt_encode earlier))

theorem namesInBytes_cons_lt_of_rest
    (first : String) {rest more : Place} (earlier : namesInBytes rest < namesInBytes more) :
    namesInBytes (first :: rest) < namesInBytes (first :: more) :=
  List.cons_lt_cons_iff.mpr (Or.inr ⟨rfl, earlier⟩)

namespace Node

theorem names_visibleEntries_sublist (entries : List (String × Node)) :
    ((visibleEntries entries).map Prod.fst).Sublist (entries.map Prod.fst) := by
  induction entries with
  | nil => exact .slnil
  | cons entry others inductionHypothesis =>
      obtain ⟨name, node⟩ := entry
      rw [visibleEntries]
      split
      · exact inductionHypothesis.cons name
      · exact inductionHypothesis.cons_cons name

/-- Sorted entries with distinct names are in the strict order of their names. -/
theorem pairwise_lt_mergeSort
    {alpha : Type} {entries : List (String × alpha)}
    (distinct : (entries.map Prod.fst).Nodup) :
    (entries.mergeSort fun left right => decide (left.1 ≤ right.1)).Pairwise
      fun left right => left.1 < right.1 := by
  have sorted :
      (entries.mergeSort fun left right => decide (left.1 ≤ right.1)).Pairwise
        fun left right => left.1 ≤ right.1 := by
    simpa using @List.pairwise_mergeSort (String × alpha)
      (fun left right => decide (left.1 ≤ right.1))
      (fun left middle right => by simpa using le_trans)
      (fun left right => by simpa using le_total left.1 right.1) entries
  have stillDistinct :
      ((entries.mergeSort fun left right => decide (left.1 ≤ right.1)).map Prod.fst).Nodup :=
    ((List.mergeSort_perm entries _).map Prod.fst).nodup_iff.mpr distinct
  refine (sorted.and (List.pairwise_map.mp stillDistinct)).imp fun ⟨ordered, different⟩ => ?_
  exact lt_of_le_of_ne ordered different

/-- A walk meets the visible files of a lawful tree in the order of the bytes of their names. -/
theorem pairwise_visibleFiles
    {node : Node} (lawful : node.Lawful) :
    node.visibleFiles.Pairwise fun left right => namesInBytes left < namesInBytes right := by
  induction lawful with
  | file contents executable => simp [visibleFiles]
  | symlink noNul => simp [visibleFiles]
  | @directory entries distinct named below inductionHypothesis =>
      have visibleDistinct := distinct.sublist (names_visibleEntries_sublist entries)
      rw [visibleFiles, List.pairwise_flatMap]
      constructor
      · intro visible member
        rw [List.mem_mergeSort, mem_visibleEntries_iff] at member
        obtain ⟨_, inner, inEntries, files_eq⟩ := member
        rw [List.pairwise_map, files_eq]
        exact (inductionHypothesis _ inEntries).imp (namesInBytes_cons_lt_of_rest visible.1)
      · refine (pairwise_lt_mergeSort visibleDistinct).imp ?_
        intro left right earlier leftNames leftMember rightNames rightMember
        obtain ⟨leftRest, _, rfl⟩ := List.mem_map.mp leftMember
        obtain ⟨rightRest, _, rfl⟩ := List.mem_map.mp rightMember
        exact namesInBytes_cons_lt_of_name earlier leftRest rightRest

end Node

/-- In a strictly ordered list the first accepted element is the least. -/
theorem find?_eq_some_iff_least
    {alpha : Type} {earlier : alpha → alpha → Prop} {items : List alpha} {accepts : alpha → Bool}
    {found : alpha}
    (ordered : items.Pairwise earlier)
    (asymmetric : ∀ left right, earlier left right → ¬ earlier right left) :
    items.find? accepts = some found ↔
      found ∈ items ∧ accepts found = true ∧
        ∀ other ∈ items, accepts other = true → other ≠ found → earlier found other := by
  induction items with
  | nil => simp
  | cons first others inductionHypothesis =>
      rw [List.pairwise_cons] at ordered
      by_cases accepted : accepts first = true
      · rw [List.find?_cons_of_pos accepted, Option.some.injEq]
        constructor
        · rintro rfl
          refine ⟨List.mem_cons_self, accepted, ?_⟩
          intro other member _ different
          exact ordered.1 other ((List.mem_cons.mp member).resolve_left different)
        · rintro ⟨member, _, least⟩
          by_contra different
          have later := (List.mem_cons.mp member).resolve_left (Ne.symm different)
          exact asymmetric first found (ordered.1 found later)
            (least first List.mem_cons_self accepted different)
      · rw [List.find?_cons_of_neg accepted, inductionHypothesis ordered.2, List.mem_cons]
        constructor
        · rintro ⟨member, isAccepted, least⟩
          refine ⟨Or.inr member, isAccepted, ?_⟩
          intro other inAll otherAccepted
          rcases List.mem_cons.mp inAll with rfl | inOthers
          · exact absurd otherAccepted accepted
          · exact least other inOthers otherAccepted
        · rintro ⟨member, isAccepted, least⟩
          refine ⟨member.resolve_left ?_, isAccepted, ?_⟩
          · rintro rfl
            exact accepted isAccepted
          · exact fun other inOthers => least other (List.mem_cons_of_mem first inOthers)

namespace FileSystem

variable {files : FileSystem} {root : Path} {names : Place}

/-- Names lead a search that starts at a root to an accepted file, and those that lead to other
accepted files come later. -/
structure IsLeastAccepted (files : FileSystem) (root : Path) (accepts : Path → Bool)
    (names : Place) : Prop where
  meetsAt : files.MeetsAt root names
  accepted : accepts (names.foldl Path.child root) = true
  least :
    ∀ other, files.MeetsAt root other → accepts (other.foldl Path.child root) = true →
      other ≠ names → namesInBytes names < namesInBytes other

theorem pairwise_namesUnder
    (lawful : files.root.Lawful) (root : Path) :
    (files.namesUnder root).Pairwise
      fun left right => namesInBytes left < namesInBytes right := by
  unfold namesUnder
  split
  · exact .nil
  · cases found : files.find root with
    | error cause => exact .nil
    | ok node =>
        obtain ⟨place, _, there⟩ := find_eq_ok_iff.mp found
        exact (Node.pairwise_visibleFiles (lawful.at? there).1).filter _

/-- The first accepted file of a walk is the least. -/
theorem find?_filesUnder_eq_some_iff
    (lawful : files.root.Lawful) (accepts : Path → Bool) (path : Path) :
    (files.filesUnder root).find? accepts = some path ↔
      ∃ names, files.IsLeastAccepted root accepts names ∧
        path = names.foldl Path.child root := by
  have ordered := pairwise_namesUnder lawful root
  have asymmetric (left right : Place) (earlier : namesInBytes left < namesInBytes right) :
      ¬ namesInBytes right < namesInBytes left :=
    List.lt_asymm earlier
  rw [filesUnder_eq_map_namesUnder, List.find?_map, Option.map_eq_some_iff]
  refine exists_congr fun names => and_congr ?_ eq_comm
  rw [find?_eq_some_iff_least ordered asymmetric]
  simp only [mem_namesUnder_iff lawful]
  constructor
  · rintro ⟨meetsAt, accepted, least⟩
    exact ⟨meetsAt, accepted, least⟩
  · rintro ⟨meetsAt, accepted, least⟩
    exact ⟨meetsAt, accepted, least⟩

theorem find?_filesUnder_eq_none_iff
    (lawful : files.root.Lawful) (accepts : Path → Bool) :
    (files.filesUnder root).find? accepts = none ↔
      ∀ path, files.Meets root path → accepts path = false := by
  simp only [List.find?_eq_none, mem_filesUnder_iff lawful, Bool.not_eq_true]

/-- The first accepted file of a walk depends only on the accepted files below its root. -/
theorem find?_filesUnder_eq_of_sameAccepted
    {others : FileSystem}
    (lawful : files.root.Lawful) (othersLawful : others.root.Lawful) (accepts : Path → Bool)
    (sameAccepted :
      ∀ names, accepts (names.foldl Path.child root) = true →
        (files.MeetsAt root names ↔ others.MeetsAt root names)) :
    (files.filesUnder root).find? accepts = (others.filesUnder root).find? accepts := by
  have leastOf {one another : FileSystem}
      (same :
        ∀ names, accepts (names.foldl Path.child root) = true →
          (one.MeetsAt root names ↔ another.MeetsAt root names))
      {names : Place} (isLeast : one.IsLeastAccepted root accepts names) :
      another.IsLeastAccepted root accepts names :=
    { meetsAt := (same names isLeast.accepted).mp isLeast.meetsAt
      accepted := isLeast.accepted
      least := fun other meetsAt accepted =>
        isLeast.least other ((same other accepted).mpr meetsAt) accepted }
  ext path
  rw [find?_filesUnder_eq_some_iff lawful, find?_filesUnder_eq_some_iff othersLawful]
  refine exists_congr fun names => and_congr_left fun _ => ⟨leastOf sameAccepted, leastOf ?_⟩
  exact fun names accepted => (sameAccepted names accepted).symm

end FileSystem

end MplServer
