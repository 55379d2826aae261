import MplServer.Proofs.FileSystem.LinkFree
import MplServer.Proofs.Project.Discovery

/-!
# Projects that enclose their files

The search for a project cuts components off the text of a path, so a path that climbs leads it
through directories that do not enclose the file. In a tree without links the root that is found
encloses the file just when no path on the way up to it leaves it.
-/

namespace MplServer

open MplServer.Path (Component)

namespace Project

/-- In normal form the file lies below the directory, and no directory strictly between the two
holds a configuration. -/
structure Encloses (files : FileSystem) (root file : Path) : Prop where
  below : root.normalize.components <+: file.normalize.components
  proper : root.normalize.components ≠ file.normalize.components
  nearest :
    ∀ between : Path,
      root.normalize.components <+: between.components →
        between.components <+: file.normalize.components →
          between.components ≠ root.normalize.components →
            between.components ≠ file.normalize.components →
              files.has (configurationPath between) = false

/-- A path that climbs out of directories only that are there, and that has room for the name of a
configuration in its directory. -/
structure Followable (files : FileSystem) (file : Path) : Prop where
  noNul : '\x00' ∉ file.text.toList
  short :
    ((file.above 1).text ++ "/" ++ Configuration.fileName).utf8ByteSize ≤
      FileSystem.maxPathSize
  climbs :
    ∀ front back, file.steps = front ++ .parent :: back →
      ∃ place,
        files.root.Leads FileSystem.maxLinks [] (front.map Component.text ++ [".."]) place

variable {files : FileSystem} {file root : Path} {levels : Nat}

/-! ## Directories on the way up -/

theorem legalName_fileName : LegalName Configuration.fileName := by
  decide

theorem configurationPath_text (directory : Path) :
    (configurationPath directory).text = directory.text ++ Configuration.fileName ∨
      (configurationPath directory).text =
        directory.text ++ "/" ++ Configuration.fileName := by
  have relative := Path.isAbsolute_of_isName legalName_fileName.toIsName
  unfold configurationPath Path.child Path.join
  rw [if_neg (by simp [relative])]
  split
  · exact Or.inl rfl
  · exact Or.inr rfl

/-- The directories on the way up are beginnings of the lowest. -/
theorem exists_directory_text_eq
    (absolute : file.isAbsolute = true)
    (above : 1 ≤ levels) (within : levels ≤ file.steps.length) :
    ∃ cut, (file.above 1).text = (file.above levels).text ++ cut := by
  have named : file.steps ≠ [] := by
    intro none
    rw [none, List.length_nil] at within
    omega
  obtain ⟨_, directoryAbsolute, length_eq, above_eq⟩ := directoryOf_eq_above absolute named
  obtain ⟨more, rfl⟩ := Nat.exists_eq_add_of_le' above
  have moreWithin : more ≤ (file.above 1).steps.length := by
    omega
  obtain ⟨cut, directory_eq⟩ := (Path.isAbove_above directoryAbsolute moreWithin).cut
  rw [above_eq] at directory_eq
  exact ⟨cut, directory_eq⟩

/-- A configuration has room in every directory on the way up if it has room in the lowest. -/
theorem size_configurationPath_above
    (absolute : file.isAbsolute = true)
    (above : 1 ≤ levels) (within : levels ≤ file.steps.length)
    (short :
      ((file.above 1).text ++ "/" ++ Configuration.fileName).utf8ByteSize ≤
        FileSystem.maxPathSize) :
    (configurationPath (file.above levels)).text.utf8ByteSize ≤ FileSystem.maxPathSize := by
  obtain ⟨cut, directory_eq⟩ := exists_directory_text_eq absolute above within
  rw [directory_eq] at short
  simp only [String.utf8ByteSize_append] at short
  rcases configurationPath_text (file.above levels) with text_eq | text_eq
  · rw [text_eq]
    simp only [String.utf8ByteSize_append]
    omega
  · rw [text_eq]
    simp only [String.utf8ByteSize_append]
    omega

/-- The directories on the way up are no longer than the lowest, and made of the same characters. -/
theorem Followable.configurationPath_above
    (followable : Followable files file)
    (absolute : file.isAbsolute = true)
    (above : 1 ≤ levels) (within : levels ≤ file.steps.length) :
    '\x00' ∉ (configurationPath (file.above levels)).text.toList ∧
      (configurationPath (file.above levels)).text.utf8ByteSize ≤
        FileSystem.maxPathSize := by
  refine ⟨?_, size_configurationPath_above absolute above within followable.short⟩
  obtain ⟨cut, file_eq⟩ := (Path.isAbove_above absolute within).cut
  have noNul := followable.noNul
  have nameNoNul := legalName_fileName.noNul
  rw [file_eq] at noNul
  simp only [String.toList_append, List.mem_append, not_or] at noNul
  rcases configurationPath_text (file.above levels) with text_eq | text_eq
  · rw [text_eq]
    simp [noNul.1, nameNoNul]
  · rw [text_eq]
    simp [noNul.1, nameNoNul]

/-- A configuration at the place that a directory on the way up stands for is found from there. -/
theorem has_configuration_above
    {node : Node}
    (linkFree : files.root.LinkFree)
    (absolute : file.isAbsolute = true)
    (followable : Followable files file)
    (above : 1 ≤ levels) (within : levels ≤ file.steps.length)
    (reached :
      files.root.at?
          (lexicalPlace [] (file.above levels).steps ++ [Configuration.fileName]) =
        some node) :
    files.has (configurationPath (file.above levels)) = true := by
  have upAbsolute := (Path.isAbove_above absolute within).absolute
  obtain ⟨behind, whole, _⟩ := Path.exists_steps_eq_append absolute within
  obtain ⟨noNul, short⟩ := followable.configurationPath_above absolute above within
  -- The way up begins the whole path, so it climbs where that does.
  have climbs :
      ∀ front back, (file.above levels).steps = front ++ .parent :: back →
        ∃ place,
          files.root.Leads FileSystem.maxLinks [] (front.map Component.text ++ [".."])
            place := by
    intro front back parts
    apply followable.climbs front (back ++ behind)
    rw [whole, parts, List.append_assoc, List.cons_append]
  have parts := reached
  rw [Node.at?_append] at parts
  cases here : files.root.at? (lexicalPlace [] (file.above levels).steps) with
  | none => simp [here] at parts
  | some directoryNode =>
      have leads := linkFree.leads_lexically
        (fun step member => Path.isStep_of_mem_steps member) climbs here
      exact FileSystem.has_child_of_at? linkFree upAbsolute legalName_fileName noNul
        short leads reached

/-- Nothing below the nearest root stands for a place that holds a configuration. -/
theorem IsNearestRoot.at?_eq_none
    {lower : Nat}
    (nearestRoot : IsNearestRoot files file levels root)
    (linkFree : files.root.LinkFree)
    (absolute : file.isAbsolute = true)
    (followable : Followable files file)
    (positive : 1 ≤ lower) (below : lower < levels) :
    files.root.at?
        (lexicalPlace [] (file.above lower).steps ++ [Configuration.fileName]) =
      none := by
  have within := nearestRoot.within
  cases reached :
      files.root.at?
        (lexicalPlace [] (file.above lower).steps ++ [Configuration.fileName]) with
  | none => rfl
  | some node =>
      have found :=
        has_configuration_above linkFree absolute followable positive (by omega) reached
      rw [nearestRoot.nearest lower positive below] at found
      cases found

/-- A place that the file lies below, but a path on the way up does not, is passed in between. -/
theorem exists_level_of_outside
    {target : Place}
    (absolute : file.isAbsolute = true)
    (within : levels ≤ file.steps.length)
    (outside : ¬ target <+: lexicalPlace [] (file.above levels).steps)
    (inside : target <+: lexicalPlace [] file.steps)
    (proper : target ≠ lexicalPlace [] file.steps) :
    ∃ lower, 1 ≤ lower ∧ lower < levels ∧
      lexicalPlace [] (file.above lower).steps = target := by
  obtain ⟨rest, whole, count⟩ := Path.exists_steps_eq_append absolute within
  rw [whole, lexicalPlace_append] at inside proper
  obtain ⟨before, behind, rfl, someBefore, visited⟩ := exists_visit outside inside
  have someBehind : behind ≠ [] := by
    rintro rfl
    rw [List.append_nil, visited] at proper
    exact proper rfl
  have beforeCount := List.length_pos_of_ne_nil someBefore
  have behindCount := List.length_pos_of_ne_nil someBehind
  rw [List.length_append] at count
  rw [← List.append_assoc] at whole
  refine ⟨behind.length, by omega, by omega, ?_⟩
  rw [Path.steps_above_length absolute whole, lexicalPlace_append, visited]

/-! ## Enclosure -/

theorem components_normalize_above
    (absolute : file.isAbsolute = true)
    (within : levels ≤ file.steps.length) :
    (file.above levels).normalize.components =
      .root :: (lexicalPlace [] (file.above levels).steps).map .name :=
  components_normalize_of_isAbsolute (Path.isAbove_above absolute within).absolute

theorem cons_root_names_prefix_iff (left right : Place) :
    (.root :: left.map Component.name) <+: (.root :: right.map Component.name) ↔
      left <+: right := by
  rw [List.cons_prefix_cons, List.prefix_map_iff_of_injective]
  · simp
  · intro first second same
    cases same
    rfl

theorem cons_root_names_inj (left right : Place) :
    (Component.root :: left.map Component.name) = .root :: right.map Component.name ↔
      left = right := by
  rw [List.cons.injEq, List.map_inj_right]
  · simp
  · intro first second same
    cases same
    rfl

/-- What lies between a directory and a file below it is a slash and names as well. -/
theorem exists_names_of_between
    {low high : Place} {components : List Component}
    (above : .root :: low.map Component.name <+: components)
    (below : components <+: .root :: high.map Component.name) :
    ∃ middle : Place, components = .root :: middle.map .name := by
  cases components with
  | nil => simp at above
  | cons first rest =>
      obtain ⟨rfl, inNames⟩ := List.cons_prefix_cons.mp below
      have taken := List.prefix_iff_eq_take.mp inNames
      refine ⟨high.take rest.length, ?_⟩
      rw [List.map_take, ← taken]

/-- A place around the file that the way up has left behind holds no configuration: the way up has
passed it. -/
theorem IsNearestRoot.at?_eq_none_of_outside
    {upper : Nat} {target : Place}
    (nearestRoot : IsNearestRoot files file levels root)
    (linkFree : files.root.LinkFree)
    (absolute : file.isAbsolute = true)
    (followable : Followable files file)
    (below : upper ≤ levels)
    (outside : ¬ target <+: lexicalPlace [] (file.above upper).steps)
    (inside : target <+: lexicalPlace [] file.steps)
    (proper : target ≠ lexicalPlace [] file.steps) :
    files.root.at? (target ++ [Configuration.fileName]) = none := by
  have within := nearestRoot.within
  obtain ⟨lower, positive, lowerBelow, visited⟩ :=
    exists_level_of_outside absolute (by omega) outside inside proper
  have nothing := nearestRoot.at?_eq_none linkFree absolute followable positive
    (Nat.lt_of_lt_of_le lowerBelow below)
  rwa [visited] at nothing

/-- The normal form of the root is the place that the way up stops at. -/
theorem IsNearestRoot.components_normalize
    (nearestRoot : IsNearestRoot files file levels root)
    (absolute : file.isAbsolute = true) :
    root.normalize.components =
      .root :: (lexicalPlace [] (file.above levels).steps).map .name := by
  rw [nearestRoot.root_eq, components_normalize_above absolute nearestRoot.within]

theorem IsNearestRoot.has_eq_false_of_between
    {between : Path}
    (nearestRoot : IsNearestRoot files file levels root)
    (linkFree : files.root.LinkFree)
    (absolute : file.isAbsolute = true)
    (followable : Followable files file)
    (rootAbove : root.normalize.components <+: between.components)
    (fileBelow : between.components <+: file.normalize.components)
    (notRoot : between.components ≠ root.normalize.components)
    (notFile : between.components ≠ file.normalize.components) :
    files.has (configurationPath between) = false := by
  rw [nearestRoot.components_normalize absolute] at rootAbove notRoot
  rw [components_normalize_of_isAbsolute absolute] at fileBelow notFile
  obtain ⟨middle, middle_eq⟩ := exists_names_of_between rootAbove fileBelow
  have betweenAbsolute : between.isAbsolute = true := by
    rw [← Path.head?_components_eq_root_iff, middle_eq]
    rfl
  have betweenSteps : between.steps = middle.map .name := by
    have parts := Path.components_of_isAbsolute betweenAbsolute
    rw [middle_eq, List.cons.injEq] at parts
    exact parts.2.symm
  rw [middle_eq, cons_root_names_prefix_iff] at rootAbove fileBelow
  rw [middle_eq, Ne, cons_root_names_inj] at notRoot notFile
  have outside : ¬ middle <+: lexicalPlace [] (file.above levels).steps := by
    intro middleAbove
    have sameLength := Nat.le_antisymm middleAbove.length_le rootAbove.length_le
    exact notRoot (middleAbove.eq_of_length sameLength)
  have nothing := nearestRoot.at?_eq_none_of_outside linkFree absolute followable
    (Nat.le_refl levels) outside fileBelow notFile
  rw [Bool.eq_false_iff]
  intro holds
  obtain ⟨node, reached⟩ :=
    FileSystem.exists_at?_of_has_child linkFree betweenAbsolute
      legalName_fileName.toIsName holds
  rw [betweenSteps, lexicalPlace_names, List.nil_append, nothing] at reached
  cases reached

/-- The nearest root encloses its file just when the way up to it does not leave it, and the file is
not the root itself. -/
theorem IsNearestRoot.encloses_iff
    (nearestRoot : IsNearestRoot files file levels root)
    (linkFree : files.root.LinkFree)
    (absolute : file.isAbsolute = true)
    (followable : Followable files file) :
    Encloses files root file ↔
      (∀ lower, lower < levels →
          root.normalize.components <+: (file.above lower).normalize.components) ∧
        root.normalize.components ≠ file.normalize.components := by
  have within := nearestRoot.within
  have positive := nearestRoot.above
  constructor
  · intro encloses
    refine ⟨fun lower below => ?_, encloses.proper⟩
    have inside := encloses.below
    have proper := encloses.proper
    rw [nearestRoot.components_normalize absolute,
      components_normalize_of_isAbsolute absolute] at inside proper
    rw [cons_root_names_prefix_iff] at inside
    rw [Ne, cons_root_names_inj] at proper
    rw [nearestRoot.components_normalize absolute,
      components_normalize_above absolute (by omega), cons_root_names_prefix_iff]
    -- Back at the root's place, the way up would have met the configuration before.
    by_contra outside
    have nothing := nearestRoot.at?_eq_none_of_outside linkFree absolute followable
      (Nat.le_of_lt below) outside inside proper
    have rootAbsolute := (Path.isAbove_above absolute within).absolute
    have holds := nearestRoot.holds
    rw [nearestRoot.root_eq] at holds
    obtain ⟨node, reached⟩ :=
      FileSystem.exists_at?_of_has_child linkFree rootAbsolute
        legalName_fileName.toIsName holds
    rw [nothing] at reached
    cases reached
  · rintro ⟨stays, proper⟩
    refine ⟨?_, proper, ?_⟩
    · have fileBelow := stays 0 (by omega)
      rwa [Path.above_zero] at fileBelow
    · intro between rootAbove fileBelow notRoot notFile
      exact nearestRoot.has_eq_false_of_between linkFree absolute followable rootAbove
        fileBelow notRoot notFile

theorem exists_names_of_no_parent
    {steps : List Component}
    (allSteps : ∀ step ∈ steps, step.IsStep)
    (level : .parent ∉ steps) :
    ∃ names : Place, steps = names.map .name := by
  induction steps with
  | nil => exact ⟨[], rfl⟩
  | cons step rest inductionHypothesis =>
      rw [List.forall_mem_cons] at allSteps
      rw [List.mem_cons, not_or] at level
      obtain ⟨names, rfl⟩ := inductionHypothesis allSteps.2 level.2
      cases allSteps.1 with
      | parent => exact absurd rfl level.1
      | @name text isName => exact ⟨text :: names, rfl⟩

/-- The way up from a path that never climbs stays at or below every path on it. -/
theorem IsNearestRoot.encloses_of_no_parent
    (nearestRoot : IsNearestRoot files file levels root)
    (linkFree : files.root.LinkFree)
    (absolute : file.isAbsolute = true)
    (followable : Followable files file)
    (level : .parent ∉ file.steps) :
    Encloses files root file := by
  have within := nearestRoot.within
  have positive := nearestRoot.above
  obtain ⟨names, steps_eq⟩ :=
    exists_names_of_no_parent (fun step member => Path.isStep_of_mem_steps member) level
  have place_eq :
      ∀ lower, lower ≤ file.steps.length →
        lexicalPlace [] (file.above lower).steps =
          names.take (file.steps.length - lower) := by
    intro lower lowerWithin
    rw [(Path.isAbove_above absolute lowerWithin).steps, steps_eq, ← List.map_take,
      lexicalPlace_names, List.nil_append]
  have count : file.steps.length = names.length := by
    rw [steps_eq, List.length_map]
  rw [nearestRoot.encloses_iff linkFree absolute followable,
    nearestRoot.components_normalize absolute, place_eq levels within]
  constructor
  · intro lower below
    rw [components_normalize_above absolute (by omega), cons_root_names_prefix_iff,
      place_eq lower (by omega)]
    exact List.take_prefix_take_left (by omega)
  · rw [components_normalize_of_isAbsolute absolute, Ne, cons_root_names_inj]
    intro same
    have sameCount := congrArg List.length same
    rw [steps_eq, lexicalPlace_names, List.nil_append, List.length_take, List.length_map]
      at sameCount
    omega

/-! ## Paths given on the command line -/

/-- A path is made absolute as it is given, and the root that is found lies above it as a text. In
a tree without links the root encloses the path just when nothing on the way up to it leaves it,
and so it does whenever the path does not climb. -/
theorem findRoot_absolute_encloses_iff
    (linkFree : files.root.LinkFree)
    (nonempty : file.text ≠ "")
    (named : (Path.absolute files.currentDirectory file).steps ≠ [])
    (followable : Followable files (Path.absolute files.currentDirectory file))
    (found : findRoot files (Path.absolute files.currentDirectory file) = .ok root) :
    (∃ levels,
      IsNearestRoot files (Path.absolute files.currentDirectory file) levels root ∧
        (Encloses files root (Path.absolute files.currentDirectory file) ↔
          (∀ lower, lower < levels →
              root.normalize.components <+:
                ((Path.absolute files.currentDirectory file).above
                  lower).normalize.components) ∧
            root.normalize.components ≠
              (Path.absolute files.currentDirectory file).normalize.components)) ∧
      (.parent ∉ (Path.absolute files.currentDirectory file).steps →
        Encloses files root (Path.absolute files.currentDirectory file)) := by
  have fromRoot : files.currentDirectory.isAbsolute = true := by
    simp [FileSystem.currentDirectory, Path.isAbsolute]
  have absolute := Path.isAbsolute_absolute fromRoot nonempty
  obtain ⟨levels, nearestRoot⟩ := (findRoot_eq_ok_iff absolute named).mp found
  constructor
  · exact ⟨levels, nearestRoot, nearestRoot.encloses_iff linkFree absolute followable⟩
  · exact nearestRoot.encloses_of_no_parent linkFree absolute followable

/-- A project in the root directory, and one in a directory beside a file. -/
def yard : FileSystem where
  root := .directory
    [("mpl.json", .file [] false),
      ("lib", .directory
        [("shed", .directory [("mpl.json", .file [] false)]),
          ("main.mpl", .file [] false)])]
  workingDirectory := ["lib"]

theorem yard_linkFree : yard.root.LinkFree := by
  have shed : (Node.directory [("mpl.json", .file [] false)]).LinkFree :=
    .directory (by simp [Node.LinkFree.file])
  have lib :
      (Node.directory
        [("shed", .directory [("mpl.json", .file [] false)]),
          ("main.mpl", .file [] false)]).LinkFree :=
    .directory (by simpa [Node.LinkFree.file] using shed)
  exact .directory (by simpa [Node.LinkFree.file] using lib)

theorem followable_around_lib :
    Followable yard (Path.absolute yard.currentDirectory ⟨"../lib/main.mpl"⟩) := by
  have steps_eq :
      (Path.absolute yard.currentDirectory ⟨"../lib/main.mpl"⟩).steps =
        [.name "lib", .parent, .name "lib", .name "main.mpl"] := by
    decide
  refine ⟨by decide, by decide, ?_⟩
  intro front back parts
  rw [steps_eq] at parts
  -- The path climbs once only, out of the directory it starts in.
  have front_eq : front = [.name "lib"] := by
    rcases front with _ | ⟨first, _ | ⟨second, _ | ⟨third, more⟩⟩⟩
    · cases parts
    · rw [(List.cons.inj parts).1]
    · simp at parts
    · have climbs : Component.parent ∈ [Component.name "main.mpl"] := by
        have behind := (List.cons.inj (List.cons.inj (List.cons.inj parts).2).2).2
        rw [behind]
        simp
      simp at climbs
  rw [front_eq]
  exact ⟨[], .entry rfl (by decide) (by decide) rfl (by simp) (.dots rfl (.stop _ _))⟩

theorem outer_project_encloses :
    Encloses yard ⟨"/lib/.."⟩
      (Path.absolute yard.currentDirectory ⟨"../lib/main.mpl"⟩) := by
  have nearest :
      IsNearestRoot yard (Path.absolute yard.currentDirectory ⟨"../lib/main.mpl"⟩) 2
        ⟨"/lib/.."⟩ := by
    refine ⟨by decide, by decide, by decide, by decide, by decide, ?_⟩
    intro lower positive below
    obtain rfl : lower = 1 := by omega
    decide
  have found := (findRoot_eq_ok_iff (by decide) (by decide)).mpr ⟨2, nearest⟩
  obtain ⟨⟨levels, nearestRoot, encloses_iff⟩, _⟩ :=
    findRoot_absolute_encloses_iff yard_linkFree (by decide) (by decide)
      followable_around_lib found
  have within := nearestRoot.within
  have count :
      (Path.absolute yard.currentDirectory ⟨"../lib/main.mpl"⟩).steps.length = 4 := by
    decide
  have stays :
      ∀ lower < 4,
        (⟨"/lib/.."⟩ : Path).normalize.components <+:
          ((Path.absolute yard.currentDirectory ⟨"../lib/main.mpl"⟩).above
            lower).normalize.components := by
    decide
  rw [encloses_iff]
  constructor
  · intro lower below
    exact stays lower (by omega)
  · decide

/-- The way up from a file passes a project beside it before one that encloses it. -/
theorem project_beside_governs :
    findRoot yard (Path.absolute yard.currentDirectory ⟨"shed/../main.mpl"⟩) =
        .ok ⟨"/lib/shed"⟩ ∧
      ¬ Encloses yard ⟨"/lib/shed"⟩
        (Path.absolute yard.currentDirectory ⟨"shed/../main.mpl"⟩) := by
  constructor
  · have nearest :
        IsNearestRoot yard (Path.absolute yard.currentDirectory ⟨"shed/../main.mpl"⟩) 2
          ⟨"/lib/shed"⟩ := by
      refine ⟨by decide, by decide, by decide, by decide, by decide, ?_⟩
      intro lower positive below
      obtain rfl : lower = 1 := by omega
      decide
    exact (findRoot_eq_ok_iff (by decide) (by decide)).mpr ⟨2, nearest⟩
  · have root_eq :
        (⟨"/lib/shed"⟩ : Path).normalize.components =
          [.root, .name "lib", .name "shed"] := by
      decide
    have file_eq :
        (Path.absolute yard.currentDirectory ⟨"shed/../main.mpl"⟩).normalize.components =
          [.root, .name "lib", .name "main.mpl"] := by
      decide
    intro encloses
    have below := encloses.below
    rw [root_eq, file_eq] at below
    simp at below

end Project

end MplServer
