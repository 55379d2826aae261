import MplServer.Project.Discovery
import MplServer.Proofs.FileSystem.Outline
import MplServer.Proofs.Path.Ancestors

/-!
# The project of a file

Going up from a file, the first directory that holds a configuration is the root of its project,
unless it lies too far up. Only the places of configurations count, not what they say.
-/

namespace MplServer

namespace Project

variable {files : FileSystem} {directory file root : Path}

/-! ## The search -/

theorem findUpwards_of_holds
    {count : Nat}
    (holds : files.has (configurationPath directory) = true) :
    findUpwards files (count + 1) directory = some directory := by
  rw [findUpwards, if_pos holds]

theorem findUpwards_of_above
    {count : Nat} {up : Path}
    (misses : files.has (configurationPath directory) = false)
    (parent : directory.parent? = some up)
    (nonempty : up.text ≠ "") :
    findUpwards files (count + 1) directory = findUpwards files count up := by
  have notEmpty : ¬ up.text.isEmpty = true := by
    rw [String.isEmpty_iff]
    exact nonempty
  rw [findUpwards, if_neg (by simp [misses]), parent]
  dsimp only
  rw [if_neg notEmpty]

theorem findUpwards_of_top
    {count : Nat}
    (misses : files.has (configurationPath directory) = false)
    (top : directory.parent? = none) :
    findUpwards files (count + 1) directory = none := by
  rw [findUpwards, if_neg (by simp [misses]), top]

/-- The first directory that holds a configuration, on the way up from an absolute one. -/
structure IsFirst (files : FileSystem) (directory : Path) (levels : Nat) (root : Path) :
    Prop where
  within : levels ≤ directory.steps.length
  root_eq : root = directory.above levels
  holds : files.has (configurationPath root) = true
  nearest :
    ∀ lower, lower < levels →
      files.has (configurationPath (directory.above lower)) = false

theorem isFirst_zero
    (holds : files.has (configurationPath directory) = true) :
    IsFirst files directory 0 directory := by
  refine ⟨Nat.zero_le _, rfl, holds, ?_⟩
  intro lower below
  exact absurd below (Nat.not_lt_zero lower)

theorem IsFirst.eq_of_holds
    {levels : Nat}
    (first : IsFirst files directory levels root)
    (holds : files.has (configurationPath directory) = true) :
    root = directory := by
  have root_eq := first.root_eq
  cases levels with
  | zero => exact root_eq
  | succ smaller =>
      have missed := first.nearest 0 (Nat.succ_pos smaller)
      rw [Path.above_zero, holds] at missed
      cases missed

theorem IsFirst.pos_of_misses
    {levels : Nat}
    (first : IsFirst files directory levels root)
    (misses : files.has (configurationPath directory) = false) :
    0 < levels := by
  have root_eq := first.root_eq
  cases levels with
  | zero =>
      rw [Path.above_zero] at root_eq
      rw [← root_eq, first.holds] at misses
      cases misses
  | succ smaller => exact Nat.succ_pos smaller

theorem isFirst_succ_iff
    {levels : Nat} {up : Path}
    (misses : files.has (configurationPath directory) = false)
    (parent : directory.parent? = some up)
    (length_eq : up.steps.length + 1 = directory.steps.length) :
    IsFirst files directory (levels + 1) root ↔ IsFirst files up levels root := by
  constructor
  · intro first
    have within := first.within
    have root_eq := first.root_eq
    rw [Path.above_succ parent] at root_eq
    refine ⟨by omega, root_eq, first.holds, ?_⟩
    intro lower below
    have missed := first.nearest (lower + 1) (by omega)
    rwa [Path.above_succ parent] at missed
  · intro first
    have within := first.within
    refine ⟨by omega, ?_, first.holds, ?_⟩
    · rw [Path.above_succ parent]
      exact first.root_eq
    · intro lower below
      cases lower with
      | zero => exact misses
      | succ smaller =>
          rw [Path.above_succ parent]
          exact first.nearest smaller (by omega)

/-- A search among the lowest `count` directories, upwards from an absolute one, stops at the first
that holds a configuration. -/
theorem findUpwards_eq_some_iff
    {count : Nat}
    (absolute : directory.isAbsolute = true) :
    findUpwards files count directory = some root ↔
      ∃ levels, levels < count ∧ IsFirst files directory levels root := by
  induction count generalizing directory with
  | zero => simp [findUpwards]
  | succ fewer inductionHypothesis =>
      cases holds : files.has (configurationPath directory) with
      | true =>
          rw [findUpwards_of_holds holds, Option.some.injEq]
          constructor
          · intro same
            rw [← same]
            exact ⟨0, Nat.succ_pos fewer, isFirst_zero holds⟩
          · rintro ⟨levels, _, first⟩
            exact (first.eq_of_holds holds).symm
      | false =>
          by_cases noSteps : directory.steps = []
          · rw [findUpwards_of_top holds (Path.parent?_of_steps_eq_nil absolute noSteps)]
            refine iff_of_false (by simp) ?_
            rintro ⟨levels, _, first⟩
            have within := first.within
            have positive := first.pos_of_misses holds
            rw [noSteps, List.length_nil] at within
            omega
          · obtain ⟨up, parent, isAbove⟩ :=
              Path.exists_parent?_of_isAbsolute absolute noSteps
            have length_eq := isAbove.length_succ noSteps
            have nonempty := Path.text_ne_empty_of_isAbsolute isAbove.absolute
            rw [findUpwards_of_above holds parent nonempty,
              inductionHypothesis isAbove.absolute]
            constructor
            · rintro ⟨levels, bounded, first⟩
              exact ⟨levels + 1, by omega, (isFirst_succ_iff holds parent length_eq).mpr first⟩
            · rintro ⟨levels, bounded, first⟩
              obtain ⟨smaller, rfl⟩ :=
                Nat.exists_eq_add_of_lt (first.pos_of_misses holds)
              rw [Nat.zero_add] at bounded first
              exact ⟨smaller, by omega, (isFirst_succ_iff holds parent length_eq).mp first⟩

theorem directoryOf_eq_above
    (absolute : file.isAbsolute = true)
    (named : file.steps ≠ []) :
    directoryOf file = file.above 1 ∧
      (file.above 1).isAbsolute = true ∧
        (file.above 1).steps.length + 1 = file.steps.length ∧
          ∀ levels, (file.above 1).above levels = file.above (levels + 1) := by
  obtain ⟨up, parent, isAbove⟩ := Path.exists_parent?_of_isAbsolute absolute named
  have up_eq : file.above 1 = up := by
    rw [Path.above_succ parent, Path.above_zero]
  have nonempty : ¬ up.text.isEmpty = true := by
    rw [String.isEmpty_iff]
    exact Path.text_ne_empty_of_isAbsolute isAbove.absolute
  rw [up_eq]
  refine ⟨?_, isAbove.absolute, isAbove.length_succ named, ?_⟩
  · unfold directoryOf
    rw [parent]
    dsimp only
    rw [if_neg nonempty]
  · intro levels
    rw [Path.above_succ parent]

/-! ## The nearest root -/

/-- The root of a project that a file belongs to: some levels above the file, but not too many, and
nothing nearer to the file holds a configuration. -/
structure IsNearestRoot (files : FileSystem) (file : Path) (levels : Nat) (root : Path) :
    Prop where
  above : 1 ≤ levels
  bounded : levels ≤ 10
  within : levels ≤ file.steps.length
  root_eq : root = file.above levels
  holds : files.has (configurationPath root) = true
  nearest :
    ∀ lower, 1 ≤ lower → lower < levels →
      files.has (configurationPath (file.above lower)) = false

theorem findRoot_eq_ok_iff
    (absolute : file.isAbsolute = true)
    (named : file.steps ≠ []) :
    findRoot files file = .ok root ↔
      ∃ levels, IsNearestRoot files file levels root := by
  obtain ⟨directory_eq, directoryAbsolute, length_eq, above_eq⟩ :=
    directoryOf_eq_above absolute named
  have found_iff :
      findRoot files file = .ok root ↔
        findUpwards files maxDirectories (file.above 1) = some root := by
    unfold findRoot
    rw [directory_eq]
    cases findUpwards files maxDirectories (file.above 1) with
    | none => simp
    | some other => simp
  have limit : maxDirectories = 10 := rfl
  rw [found_iff, findUpwards_eq_some_iff directoryAbsolute, limit]
  constructor
  · rintro ⟨levels, bounded, first⟩
    have within := first.within
    have root_eq := first.root_eq
    rw [above_eq] at root_eq
    refine ⟨levels + 1, ⟨by omega, by omega, by omega, root_eq, first.holds, ?_⟩⟩
    intro lower positive below
    obtain ⟨smaller, rfl⟩ := Nat.exists_eq_add_of_le' positive
    rw [← above_eq]
    exact first.nearest smaller (by omega)
  · rintro ⟨levels, nearestRoot⟩
    obtain ⟨smaller, rfl⟩ := Nat.exists_eq_add_of_le' nearestRoot.above
    have bounded := nearestRoot.bounded
    have within := nearestRoot.within
    have root_eq := nearestRoot.root_eq
    rw [← above_eq] at root_eq
    refine ⟨smaller, by omega, ⟨by omega, root_eq, nearestRoot.holds, ?_⟩⟩
    intro lower below
    rw [above_eq]
    exact nearestRoot.nearest (lower + 1) (by omega) (by omega)

theorem isAbsolute_of_findRoot
    (absolute : file.isAbsolute = true) (named : file.steps ≠ [])
    (found : findRoot files file = .ok root) : root.isAbsolute = true := by
  obtain ⟨levels, nearest⟩ := (findRoot_eq_ok_iff absolute named).mp found
  rw [nearest.root_eq]
  exact (Path.isAbove_above absolute nearest.within).absolute

theorem has_configuration_of_findRoot
    (absolute : file.isAbsolute = true) (named : file.steps ≠ [])
    (found : findRoot files file = .ok root) : files.has (configurationPath root) = true := by
  obtain ⟨levels, nearest⟩ := (findRoot_eq_ok_iff absolute named).mp found
  exact nearest.holds

theorem findRoot_eq_error_iff (files : FileSystem) (file : Path) :
    findRoot files file = .error (.noProject file) ↔
      ∀ root, findRoot files file ≠ .ok root := by
  unfold findRoot
  cases findUpwards files maxDirectories (directoryOf file) with
  | none => simp
  | some root => simp

theorem findRoot_of_findUpwards
    (found : findUpwards files maxDirectories (directoryOf file) = some root) :
    findRoot files file = .ok root := by
  unfold findRoot
  rw [found]

/-- One that holds a configuration is the nearest root, or a nearer one is. -/
theorem exists_isNearestRoot
    {levels : Nat}
    (above : 1 ≤ levels) (bounded : levels ≤ 10)
    (within : levels ≤ file.steps.length)
    (holds : files.has (configurationPath (file.above levels)) = true) :
    ∃ lower root, IsNearestRoot files file lower root := by
  induction levels using Nat.strong_induction_on with
  | _ levels inductionHypothesis =>
      by_cases nearer :
          ∃ lower, 1 ≤ lower ∧ lower < levels ∧
            files.has (configurationPath (file.above lower)) = true
      · obtain ⟨lower, positive, below, found⟩ := nearer
        exact inductionHypothesis lower below positive (by omega) (by omega) found
      · refine ⟨levels, file.above levels, ⟨above, bounded, within, rfl, holds, ?_⟩⟩
        intro lower positive below
        rw [Bool.eq_false_iff]
        intro found
        exact nearer ⟨lower, positive, below, found⟩

/-! ## Contents make no difference -/

theorem has_outline (files : FileSystem) (path : Path) :
    files.outline.has path = files.has path := by
  unfold FileSystem.has
  rw [FileSystem.find_outline]
  cases files.find path <;> rfl

theorem findUpwards_outline (files : FileSystem) (count : Nat) (directory : Path) :
    findUpwards files.outline count directory = findUpwards files count directory := by
  induction count generalizing directory with
  | zero => rfl
  | succ fewer inductionHypothesis =>
      rw [findUpwards, findUpwards, has_outline]
      cases directory.parent? with
      | none => rfl
      | some up =>
          dsimp only
          rw [inductionHypothesis]

theorem findRoot_eq_of_outline
    {other : FileSystem}
    (sameOutline : other.outline = files.outline) (file : Path) :
    findRoot other file = findRoot files file := by
  have sameSearch :
      findUpwards other maxDirectories (directoryOf file) =
        findUpwards files maxDirectories (directoryOf file) := by
    rw [← findUpwards_outline other, sameOutline, findUpwards_outline]
  unfold findRoot
  rw [sameSearch]

/-! ## The project of an absolute path -/

/-- The directories above an absolute path are looked at from its own up to the tenth or the root of
the tree. The first of them that holds a configuration is the root of the project, whatever the
configuration says; when none does there is no project. -/
theorem findRoot_nearest_of_ten
    (absolute : file.isAbsolute = true)
    (named : file.steps ≠ []) :
    (∀ root, findRoot files file = .ok root ↔
        ∃ levels, IsNearestRoot files file levels root) ∧
      (findRoot files file = .error (.noProject file) ↔
        ∀ levels, 1 ≤ levels → levels ≤ 10 → levels ≤ file.steps.length →
          files.has (configurationPath (file.above levels)) = false) ∧
      (∀ levels, levels ≤ file.steps.length →
        Path.IsAbove file levels (file.above levels)) ∧
      file.above file.steps.length = ⟨"/"⟩ ∧
      ∀ other : FileSystem, other.outline = files.outline →
        findRoot other file = findRoot files file := by
  refine ⟨fun root => findRoot_eq_ok_iff absolute named, ?_,
    fun levels within => Path.isAbove_above absolute within,
    Path.above_length_eq_root absolute named,
    fun other sameOutline => findRoot_eq_of_outline sameOutline file⟩
  rw [findRoot_eq_error_iff]
  constructor
  · intro noRoot levels above bounded within
    rw [Bool.eq_false_iff]
    intro holds
    obtain ⟨lower, root, nearestRoot⟩ := exists_isNearestRoot above bounded within holds
    exact noRoot root ((findRoot_eq_ok_iff absolute named).mpr ⟨lower, nearestRoot⟩)
  · intro missed root found
    obtain ⟨levels, nearestRoot⟩ := (findRoot_eq_ok_iff absolute named).mp found
    have misses :=
      missed levels nearestRoot.above nearestRoot.bounded nearestRoot.within
    rw [← nearestRoot.root_eq, nearestRoot.holds] at misses
    cases misses

/-- A project inside another, whose own configuration is empty. -/
def innerProject : FileSystem where
  root := .directory
    [("mpl.json", .file [123, 125] false),
      ("inner", .directory
        [("mpl.json", .file [] false),
          ("src", .directory [("main.mpl", .file [] false)])])]
  workingDirectory := []

theorem inner_project_governs :
    findRoot innerProject ⟨"/inner/src/main.mpl"⟩ = .ok ⟨"/inner"⟩ := by
  have nearest :
      IsNearestRoot innerProject ⟨"/inner/src/main.mpl"⟩ 2 ⟨"/inner"⟩ := by
    refine ⟨by decide, by decide, by decide, by decide, by decide, ?_⟩
    intro lower positive below
    obtain rfl : lower = 1 := by omega
    decide
  exact ((findRoot_nearest_of_ten (by decide) (by decide)).1 _).mpr ⟨2, nearest⟩

end Project

end MplServer
