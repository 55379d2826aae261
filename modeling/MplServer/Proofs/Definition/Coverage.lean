import MplServer.Proofs.Definition.Resolution
import MplServer.Proofs.FileSystem.Steps

/-!
# What the searches cover

A project is searched by itself when it lies in none of the open folders, and by the walks of the
folders otherwise. The walk of a folder comes by a project in it unless a hidden directory or a link
lies in between.
-/

namespace MplServer

namespace FileSystem

variable {files : FileSystem} {base root : Path} {way names : Place}

/-! ## Walks that come by a directory -/

/-- A directory lies below another by names that are not hidden. Links are followed on the way to
the two, and not from one to the other. -/
structure Shows (files : FileSystem) (base root : Path) (way : Place) : Prop where
  shown : ∀ name ∈ way, isHidden name = false
  reached :
    ∃ place entries,
      files.locate base = .ok place ∧ files.locate root = .ok (place ++ way) ∧
        files.root.at? (place ++ way) = some (.directory entries)

theorem Shows.visibleAt
    (shows : files.Shows base root way)
    (visible : files.VisibleAt root names) :
    files.VisibleAt base (way ++ names) := by
  obtain ⟨shown, rootPlace, contents, executable, rootLocated, reached⟩ := visible
  obtain ⟨place, entries, located, locatedBelow, _⟩ := shows.reached
  have rootPlace_eq : rootPlace = place ++ way := by
    rw [rootLocated, Except.ok.injEq] at locatedBelow
    exact locatedBelow
  constructor
  · intro name member
    rcases List.mem_append.mp member with onWay | below
    · exact shows.shown name onWay
    · exact shown name below
  · refine ⟨place, contents, executable, located, ?_⟩
    rw [← List.append_assoc, ← rootPlace_eq, reached]

/-- Below a directory there is a name at least. -/
theorem Shows.ne_nil
    (shows : files.Shows base root way)
    (visible : files.VisibleAt root names) :
    names ≠ [] := by
  rintro rfl
  obtain ⟨_, rootPlace, contents, executable, rootLocated, reached⟩ := visible
  obtain ⟨place, entries, _, locatedBelow, inDirectory⟩ := shows.reached
  rw [rootLocated, Except.ok.injEq] at locatedBelow
  rw [List.append_nil, locatedBelow, inDirectory] at reached
  cases reached

theorem Shows.meets
    (shows : files.Shows base root way)
    (notDash : base.sameAs ⟨"-"⟩ = false)
    (visible : files.VisibleAt root names)
    (inList : listed base (way ++ names) = true) :
    files.Meets base ((way ++ names).foldl Path.child base) :=
  ⟨notDash, way ++ names, shows.visibleAt visible, inList, rfl⟩

/-- A file below a directory has the same name in both walks. -/
theorem Shows.fileName?_eq
    (shows : files.Shows base root way)
    (lawful : files.root.Lawful)
    (visible : files.VisibleAt root names) :
    ((way ++ names).foldl Path.child base).fileName? =
      (names.foldl Path.child root).fileName? := by
  have someName : names.getLast? ≠ none :=
    mt List.getLast?_eq_none_iff.mp (shows.ne_nil visible)
  obtain ⟨name, last⟩ := Option.ne_none_iff_exists'.mp someName
  have isName := (visible.legal lawful name (List.mem_of_getLast? last)).toIsName
  have wholeLast : (way ++ names).getLast? = some name := by
    rw [List.getLast?_append, last, Option.some_or]
  rw [Path.fileName?_foldl_child base isName wholeLast,
    Path.fileName?_foldl_child root isName last]

theorem ordinary_of_shown
    {name : String}
    (shown : isHidden name = false) :
    name ≠ "." ∧ name ≠ ".." := by
  constructor
  · rintro rfl
    revert shown
    decide
  · rintro rfl
    revert shown
    decide

theorem isAbsolute_of_components_append
    (parts : root.components = base.components ++ way.map .name) :
    root.isAbsolute = base.isAbsolute := by
  rw [Bool.eq_iff_iff, ← Path.head?_components_eq_root_iff,
    ← Path.head?_components_eq_root_iff, parts]
  cases base.components with
  | nil =>
      cases way with
      | nil => rfl
      | cons name others => simp
  | cons first others => rfl

/-- A directory below a folder by its path is shown by the folder when none of the names between
the two is hidden or a link. -/
theorem shows_of_components
    {place : Place} {entries : List (String × Node)}
    (parts : root.components = base.components ++ way.map .name)
    (shown : ∀ name ∈ way, isHidden name = false)
    (located : files.locate base = .ok place)
    (reached : files.root.at? (place ++ way) = some (.directory entries))
    (rootPlace : Place) (rootLocated : files.locate root = .ok rootPlace) :
    files.Shows base root way := by
  have leads := (locate_eq_ok_iff.mp located).2.2.leads_steps
  have rootLeads := (locate_eq_ok_iff.mp rootLocated).2.2.leads_steps
  have sameStart : files.start root = files.start base := by
    rw [start, start, isAbsolute_of_components_append parts]
  have steps_eq : root.steps = base.steps ++ way.map .name := by
    rw [← Path.filter_components, parts, List.filter_append, Path.filter_components,
      List.filter_eq_self.mpr]
    intro step member
    obtain ⟨name, _, rfl⟩ := List.mem_map.mp member
    rfl
  have text_eq : (way.map Path.Component.name).map Path.Component.text = way := by
    rw [List.map_map]
    exact List.map_id way
  -- The steps of the folder and the names behind them lead to one place only.
  have leadsBelow :
      files.root.Leads maxLinks (files.start root) (root.steps.map Path.Component.text)
        (place ++ way) := by
    rw [sameStart, steps_eq, List.map_append, text_eq]
    refine leads.append fun fewer _ => ?_
    refine Node.Leads.along fewer reached ?_ ?_
    · rintro target same
      cases same
    · intro name member
      exact ordinary_of_shown (shown name member)
  have rootPlace_eq := rootLeads.unique leadsBelow
  rw [rootPlace_eq] at rootLocated
  exact ⟨shown, place, entries, located, rootLocated, reached⟩

theorem listed_append
    (base : Path) (way : Place)
    (nonempty : names ≠ []) :
    listed base (way ++ names) = listed (way.foldl Path.child base) names := by
  rw [listed, listed, List.dropLast_append_of_ne_nil nonempty, List.foldl_append]

/-! ## Folders that cover a project -/

/-- A walk is made that meets what the names lead to from the root of a project: one of the project
itself if none of the folders is above it, or one of a folder that shows it. -/
inductive Covers (files : FileSystem) (folders : List Path) (root : Path) (names : Place) :
    Prop where
  | byItself
      (apart : ∀ folder ∈ folders, root.startsWith folder = false)
      (notDash : root.sameAs ⟨"-"⟩ = false)
      (listed : listed root names = true)
  | inFolder {base : Path} {way : Place}
      (isFolder : base ∈ folders)
      (shows : files.Shows base root way)
      (notDash : base.sameAs ⟨"-"⟩ = false)
      (listed : listed base (way ++ names) = true)

/-- One more folder does not end the walk of a project: it is not above the project, or another one
is as well, or its own walk meets the files of the project. -/
inductive KeepsCovered (files : FileSystem) (folders : List Path) (root opened : Path) :
    Prop where
  | apart (apart : root.startsWith opened = false)
  | already {folder : Path}
      (isFolder : folder ∈ folders)
      (above : root.startsWith folder = true)
  | shown {way : Place}
      (shows : files.Shows opened root way)
      (notDash : opened.sameAs ⟨"-"⟩ = false)
      (listed :
        ∀ names, files.VisibleAt root names → listed root names = true →
          listed opened (way ++ names) = true)

end FileSystem

namespace Resolver

variable {files : FileSystem} {resolver other : Resolver} {base root found path : Path}
variable {folders : List Path} {names : Place} {name recorded output : String}

/-! ## Search roots -/

theorem mem_searchRoots_of_mem
    (root : Path) (output : String)
    (isFolder : base ∈ folders) :
    base ∈ (Resolver.new root output folders).searchRoots := by
  unfold new
  split
  · exact isFolder
  · exact List.mem_append_left _ isFolder

theorem root_mem_searchRoots
    (output : String)
    (apart : ∀ folder ∈ folders, root.startsWith folder = false) :
    root ∈ (Resolver.new root output folders).searchRoots := by
  have noneAbove : ¬ folders.any root.startsWith = true := by
    rw [List.any_eq_true]
    rintro ⟨folder, isFolder, above⟩
    rw [apart folder isFolder] at above
    cases above
  unfold new
  rw [if_neg noneAbove]
  exact List.mem_append_right _ List.mem_cons_self

theorem mem_searchRoots_cases
    (isRoot : base ∈ (Resolver.new root output folders).searchRoots) :
    base ∈ folders ∨
      (base = root ∧ ∀ folder ∈ folders, root.startsWith folder = false) := by
  unfold new at isRoot
  split at isRoot
  · exact Or.inl isRoot
  · next noneAbove =>
    rcases List.mem_append.mp isRoot with isFolder | last
    · exact Or.inl isFolder
    · refine Or.inr ⟨List.mem_singleton.mp last, ?_⟩
      intro folder isFolder
      rw [Bool.eq_false_iff]
      intro above
      exact noneAbove (List.any_eq_true.mpr ⟨folder, isFolder, above⟩)

/-! ## Files that are met -/

/-- A file that is met is found by its name, if by nothing before. -/
theorem isSome_resolvePath?_of_meets
    (lawful : files.root.Lawful)
    (normalized : normalizeRecorded? recorded = some path)
    (isRoot : base ∈ resolver.searchRoots)
    (meets : files.Meets base found)
    (sharesName : found.SharesName path) :
    (resolver.resolvePath? files recorded).isSome = true := by
  rw [Option.isSome_iff_ne_none]
  intro unresolved
  have rejected := (resolvePath?_eq_none_iff recorded).mp unresolved path normalized
  have unmatched :=
    (attempts_eq_none_iff_unmatched lawful
      (isRecorded_of_normalizeRecorded? normalized)).mp rejected
  exact (unmatched.trees base isRoot found meets).1 sharesName

theorem exists_meets_of_covers
    (output : String)
    (visible : files.VisibleAt root names)
    (covers : files.Covers folders root names) :
    ∃ base ∈ (Resolver.new root output folders).searchRoots, ∃ way,
      files.Meets base ((way ++ names).foldl Path.child base) := by
  cases covers with
  | byItself apart notDash listed =>
      exact ⟨root, root_mem_searchRoots output apart, [], notDash, names, visible, listed, rfl⟩
  | @inFolder base way isFolder shows notDash listed =>
      exact ⟨base, mem_searchRoots_of_mem root output isFolder, way,
        shows.meets notDash visible listed⟩

/-! ## One more folder -/

theorem sharesName_of_endsWith
    (lawful : files.root.Lawful)
    (isRecorded : IsRecorded path)
    (meets : files.Meets base found)
    (endsWith : found.EndsWith path) :
    found.SharesName path := by
  obtain ⟨name, foundName⟩ := (meets.isFile lawful).1.exists_fileName
  have sameName := Path.EndsWith.fileName?_eq isRecorded.nonempty endsWith
  exact ⟨name, sameName.symm.trans foundName, foundName⟩

/-- What another resolver leaves unmatched is left unmatched by one that looks at fewer candidates
and meets no other names. -/
theorem Unmatched.of_fewer
    (lawful : files.root.Lawful)
    (isRecorded : IsRecorded path)
    (fewer :
      ∀ strategy, resolver.candidates strategy path ⊆ other.candidates strategy path)
    (met :
      ∀ base ∈ resolver.searchRoots, ∀ found, files.Meets base found →
        ∃ otherBase ∈ other.searchRoots, ∃ otherFound,
          files.Meets otherBase otherFound ∧ otherFound.fileName? = found.fileName?)
    (unmatched : other.Unmatched files files.Meets path) :
    resolver.Unmatched files files.Meets path := by
  have apart :
      ∀ base ∈ resolver.searchRoots, ∀ found, files.Meets base found →
        ¬ found.SharesName path := by
    rintro base isRoot found meets ⟨name, recordedName, foundName⟩
    obtain ⟨otherBase, otherRoot, otherFound, otherMeets, sameName⟩ :=
      met base isRoot found meets
    exact (unmatched.trees otherBase otherRoot otherFound otherMeets).1
      ⟨name, recordedName, sameName.trans foundName⟩
  constructor
  · intro candidate member
    apply unmatched.candidates
    simp only [List.mem_append] at member ⊢
    rcases member with (below | inOutput) | inFolders
    · exact Or.inl (Or.inl (fewer .projectRoot below))
    · exact Or.inl (Or.inr (fewer .outputDirectory inOutput))
    · exact Or.inr (fewer .workspaceFolder inFolders)
  · intro base isRoot found meets
    constructor
    · exact apart base isRoot found meets
    · intro endsWith
      exact apart base isRoot found meets
        (sharesName_of_endsWith lawful isRecorded meets endsWith)

variable {front back : List Path} {opened : Path}

theorem subset_opened (front back : List Path) (opened : Path) :
    front ++ back ⊆ front ++ opened :: back := by
  intro folder isFolder
  rcases List.mem_append.mp isFolder with before | behind
  · exact List.mem_append_left _ before
  · exact List.mem_append_right _ (List.mem_cons_of_mem opened behind)

theorem candidates_subset
    (root : Path) (output : String) (opened path : Path) (strategy : Strategy) :
    (Resolver.new root output (front ++ back)).candidates strategy path ⊆
      (Resolver.new root output (front ++ opened :: back)).candidates strategy path := by
  cases strategy with
  | projectRoot => exact List.Subset.refl _
  | outputDirectory => exact List.Subset.refl _
  | workspaceFolder =>
      have more :
          (Resolver.new root output (front ++ back)).otherFolders ⊆
            (Resolver.new root output (front ++ opened :: back)).otherFolders :=
        List.filter_subset _ (subset_opened front back opened)
      apply List.map_subset
      intro candidate member
      obtain ⟨folder, isFolder, inFolder⟩ := List.mem_flatMap.mp member
      exact List.mem_flatMap.mpr ⟨folder, more isFolder, inFolder⟩
  | fileName => exact List.Subset.refl _
  | pathSuffix => exact List.Subset.refl _

/-- With one more folder a file of the same name is met, for each file that was met. -/
theorem exists_meets_of_keepsCovered
    (lawful : files.root.Lawful)
    (output : String)
    (keeps : files.KeepsCovered (front ++ back) root opened)
    (isRoot : base ∈ (Resolver.new root output (front ++ back)).searchRoots)
    (meets : files.Meets base found) :
    ∃ openedBase ∈ (Resolver.new root output (front ++ opened :: back)).searchRoots,
      ∃ openedFound,
        files.Meets openedBase openedFound ∧
          openedFound.fileName? = found.fileName? := by
  rcases mem_searchRoots_cases isRoot with isFolder | ⟨rfl, apart⟩
  · have stillFolder := subset_opened front back opened isFolder
    exact ⟨base, mem_searchRoots_of_mem root output stillFolder, found, meets, rfl⟩
  -- The walk of the project itself goes on, or the opened folder takes its place.
  · cases keeps with
    | apart openedApart =>
        have allApart :
            ∀ folder ∈ front ++ opened :: back, base.startsWith folder = false := by
          intro folder isFolder
          rcases List.mem_append.mp isFolder with before | behind
          · exact apart folder (List.mem_append_left back before)
          · rcases List.mem_cons.mp behind with rfl | later
            · exact openedApart
            · exact apart folder (List.mem_append_right front later)
        exact ⟨base, root_mem_searchRoots output allApart, found, meets, rfl⟩
    | already isFolder above =>
        rw [apart _ isFolder] at above
        cases above
    | @shown way shows notDash listed =>
        obtain ⟨_, names, visible, inList, rfl⟩ := meets
        have openedMeets := shows.meets notDash visible (listed names visible inList)
        have isOpened : opened ∈ front ++ opened :: back := by
          simp
        exact ⟨opened, mem_searchRoots_of_mem base output isOpened, _, openedMeets,
          shows.fileName?_eq lawful visible⟩

theorem isSome_resolvePath?_of_keepsCovered
    (lawful : files.root.Lawful)
    (keeps : files.KeepsCovered (front ++ back) root opened)
    (resolved :
      ((Resolver.new root output (front ++ back)).resolvePath? files recorded).isSome = true) :
    ((Resolver.new root output (front ++ opened :: back)).resolvePath? files
      recorded).isSome = true := by
  rw [Option.isSome_iff_ne_none] at resolved ⊢
  intro unresolved
  apply resolved
  rw [resolvePath?_eq_none_iff] at unresolved ⊢
  intro path normalized
  have isRecorded := isRecorded_of_normalizeRecorded? normalized
  have rejected := unresolved path normalized
  rw [attempts_eq_none_iff_unmatched lawful isRecorded] at rejected ⊢
  apply Unmatched.of_fewer lawful isRecorded _ _ rejected
  · exact candidates_subset root output opened path
  · intro base isRoot found meets
    exact exists_meets_of_keepsCovered lawful output keeps isRoot meets

/-- A recorded path is resolved when the project has a visible file with its name and a walk is made
that meets the file. One more folder leaves no path unresolved that was resolved before, as long as
the project stays covered. -/
theorem resolvePath?_isSome_of_covered
    (lawful : files.root.Lawful)
    (root : Path) (output : String) (folders : List Path) (recorded : String) :
    (∀ path name names,
      normalizeRecorded? recorded = some path → path.fileName? = some name →
        files.VisibleAt root names → names.getLast? = some name →
          files.Covers folders root names →
            ((Resolver.new root output folders).resolvePath? files recorded).isSome =
              true) ∧
      ∀ front back opened, folders = front ++ back →
        files.KeepsCovered folders root opened →
          ((Resolver.new root output folders).resolvePath? files recorded).isSome = true →
            ((Resolver.new root output (front ++ opened :: back)).resolvePath? files
              recorded).isSome = true := by
  constructor
  · intro path name names normalized named visible last covers
    obtain ⟨base, isRoot, way, meets⟩ := exists_meets_of_covers output visible covers
    have wholeLast : (way ++ names).getLast? = some name := by
      rw [List.getLast?_append, last, Option.some_or]
    exact isSome_resolvePath?_of_meets lawful normalized isRoot meets
      ⟨name, named, Path.fileName?_foldl_child base (Path.isName_of_fileName? named) wholeLast⟩
  · rintro front back opened rfl keeps resolved
    exact isSome_resolvePath?_of_keepsCovered lawful keeps resolved

/-- A project in a hidden directory, and a link to the directory. -/
def attic : FileSystem where
  root := .directory
    [("ws", .directory
      [(".attic", .directory [("proj", .directory [("note.mpl", .file [] false)])]),
        ("shelf", .symlink ".attic")])]
  workingDirectory := []

theorem attic_lawful : attic.root.Lawful := by
  have projLawful : (Node.directory [("note.mpl", .file [] false)]).Lawful :=
    .directory (by decide) (by decide) (by simp [Node.Lawful.file])
  have hiddenLawful :
      (Node.directory [("proj", .directory [("note.mpl", .file [] false)])]).Lawful :=
    .directory (by decide) (by decide) (by simpa using projLawful)
  have linkLawful : (Node.symlink ".attic").Lawful :=
    .symlink (by decide)
  have wsLawful :
      (Node.directory
        [(".attic", .directory [("proj", .directory [("note.mpl", .file [] false)])]),
          ("shelf", .symlink ".attic")]).Lawful :=
    .directory (by decide) (by decide) (by simp [hiddenLawful, linkLawful])
  exact .directory (by decide) (by decide) (by simpa using wsLawful)

theorem visibleAt_attic : attic.VisibleAt ⟨"/ws/.attic/proj"⟩ ["note.mpl"] :=
  ⟨by decide, ["ws", ".attic", "proj"], [], false, rfl, rfl⟩

theorem note_isSome_in_attic :
    ((Resolver.new ⟨"/ws/.attic/proj"⟩ "" []).resolvePath? attic "old/note.mpl").isSome =
        true ∧
      ((Resolver.new ⟨"/ws/.attic/proj"⟩ "" [⟨"/ws/.attic"⟩]).resolvePath? attic
          "old/note.mpl").isSome =
        true := by
  have covered :=
    resolvePath?_isSome_of_covered attic_lawful ⟨"/ws/.attic/proj"⟩ "" [] "old/note.mpl"
  have alone := covered.1 ⟨"old/note.mpl"⟩ "note.mpl" ["note.mpl"] (by decide) (by decide)
    visibleAt_attic rfl (.byItself (by simp) (by decide) (by decide))
  have shows : attic.Shows ⟨"/ws/.attic"⟩ ⟨"/ws/.attic/proj"⟩ ["proj"] :=
    FileSystem.shows_of_components (by decide) (by decide) rfl rfl _ rfl
  refine ⟨alone, covered.2 [] [] ⟨"/ws/.attic"⟩ rfl ?_ alone⟩
  refine .shown shows (by decide) ?_
  intro names below inList
  rwa [FileSystem.listed_append _ _ (shows.ne_nil below)]

/-! ## Projects that are missed -/

/-- A visible file of the project has the recorded name, and the path is not resolved. -/
def Misses (files : FileSystem) (root : Path) (folders : List Path) (recorded : String) :
    Prop :=
  ∃ path name names,
    normalizeRecorded? recorded = some path ∧ path.fileName? = some name ∧
      files.VisibleAt root names ∧ names.getLast? = some name ∧
        (Resolver.new root "" folders).resolvePath? files recorded = none

theorem resolvePath?_eq_none_of_filesUnder_eq_nil
    (normalized : normalizeRecorded? recorded = some path)
    (noCandidate :
      ∀ strategy, (resolver.candidates strategy path).find? files.isFile = none)
    (nothingMet : ∀ base ∈ resolver.searchRoots, files.filesUnder base = []) :
    resolver.resolvePath? files recorded = none := by
  rw [resolvePath?_eq_none_iff]
  intro other same strategy
  rw [normalized, Option.some.injEq] at same
  subst same
  have searched (accepts : Path → Bool) :
      files.search resolver.searchRoots accepts = none := by
    rw [FileSystem.search_eq_find?, List.flatMap_eq_nil_iff.mpr nothingMet]
    rfl
  cases strategy with
  | projectRoot => exact noCandidate .projectRoot
  | outputDirectory => exact noCandidate .outputDirectory
  | workspaceFolder => exact noCandidate .workspaceFolder
  | fileName => simp [attempt?, searched]
  | pathSuffix => exact searched _

theorem filesUnder_attic : attic.filesUnder ⟨"/ws"⟩ = [] := by
  have found :
      attic.find ⟨"/ws"⟩ =
        .ok (.directory
          [(".attic", .directory [("proj", .directory [("note.mpl", .file [] false)])]),
            ("shelf", .symlink ".attic")]) := rfl
  rw [FileSystem.filesUnder, if_neg (by decide), found]
  simp [Node.visibleFiles, Node.visibleEntries, isHidden]

theorem locate_shelf :
    attic.locate ⟨"/ws/shelf/proj"⟩ = .ok ["ws", ".attic", "proj"] := by
  have leads :
      attic.root.Leads FileSystem.maxLinks [] ["ws", "shelf", "proj"]
        ["ws", ".attic", "proj"] := by
    refine .entry rfl (by decide) (by decide) rfl (by simp) ?_
    refine .link rfl (by decide) (by decide) rfl ?_
    refine .entry rfl (by decide) (by decide) rfl (by simp) ?_
    exact .entry rfl (by decide) (by decide) rfl (by simp) (.stop _ _)
  exact FileSystem.locate_eq_ok_iff.mpr ⟨by decide, by decide, by decide, leads⟩

theorem misses_deepTree : Misses deepTree ⟨"/"⟩ [] "note.mpl" := by
  have normalized : normalizeRecorded? "note.mpl" = some ⟨"note.mpl"⟩ := by
    decide
  have last :
      (List.replicate FileSystem.maxPathSize "d" ++ ["note.mpl"]).getLast? =
        some "note.mpl" :=
    List.getLast?_concat
  exact ⟨⟨"note.mpl"⟩, "note.mpl", _, normalized, by decide, visibleAt_deepTree, last,
    resolvePath?_deepTree⟩

/-- In the walk of the folder above it the project is not met, by whatever path it is opened. -/
theorem misses_attic
    (visible : attic.VisibleAt root ["note.mpl"])
    (searchRoots : (Resolver.new root "" [⟨"/ws"⟩]).searchRoots = [⟨"/ws"⟩])
    (noCandidate :
      ∀ strategy,
        ((Resolver.new root "" [⟨"/ws"⟩]).candidates strategy ⟨"old/note.mpl"⟩).find?
            attic.isFile =
          none) :
    Misses attic root [⟨"/ws"⟩] "old/note.mpl" := by
  have normalized : normalizeRecorded? "old/note.mpl" = some ⟨"old/note.mpl"⟩ := by
    decide
  refine ⟨⟨"old/note.mpl"⟩, "note.mpl", ["note.mpl"], normalized, by decide, visible,
    rfl, ?_⟩
  apply resolvePath?_eq_none_of_filesUnder_eq_nil normalized noCandidate
  intro base isRoot
  rw [searchRoots, List.mem_singleton] at isRoot
  rw [isRoot, filesUnder_attic]

/-- Hidden directories and links hide a project from the walk of the folder above it, so opening the
folder loses a file that was found. The files below a dash and those in directories with too long a
path are met by no walk. -/
theorem visible_files_missed :
    (Misses attic ⟨"/ws/.attic/proj"⟩ [⟨"/ws"⟩] "old/note.mpl" ∧
        ((Resolver.new ⟨"/ws/.attic/proj"⟩ "" []).resolvePath? attic
            "old/note.mpl").isSome =
          true) ∧
      Misses attic ⟨"/ws/shelf/proj"⟩ [⟨"/ws"⟩] "old/note.mpl" ∧
        Misses dashTree ⟨"-"⟩ [] "note.mpl" ∧
          Misses deepTree ⟨"/"⟩ [] "note.mpl" := by
  have noCandidateHidden :
      ∀ strategy,
        ((Resolver.new ⟨"/ws/.attic/proj"⟩ "" [⟨"/ws"⟩]).candidates strategy
            ⟨"old/note.mpl"⟩).find? attic.isFile =
          none := by
    intro strategy
    cases strategy <;> decide +kernel
  have noCandidateLinked :
      ∀ strategy,
        ((Resolver.new ⟨"/ws/shelf/proj"⟩ "" [⟨"/ws"⟩]).candidates strategy
            ⟨"old/note.mpl"⟩).find? attic.isFile =
          none := by
    intro strategy
    cases strategy <;> decide +kernel
  have visibleLinked : attic.VisibleAt ⟨"/ws/shelf/proj"⟩ ["note.mpl"] :=
    ⟨by decide, ["ws", ".attic", "proj"], [], false, locate_shelf, rfl⟩
  have visibleBelowDash : dashTree.VisibleAt ⟨"-"⟩ ["lib", "note.mpl"] :=
    ⟨by decide, ["-"], [], false, rfl, rfl⟩
  have meets : attic.Meets ⟨"/ws/.attic/proj"⟩ ⟨"/ws/.attic/proj/note.mpl"⟩ :=
    ⟨by decide, ["note.mpl"], visibleAt_attic, by decide, by decide⟩
  have normalized : normalizeRecorded? "old/note.mpl" = some ⟨"old/note.mpl"⟩ := by
    decide
  have alone :
      ((Resolver.new ⟨"/ws/.attic/proj"⟩ "" []).resolvePath? attic
          "old/note.mpl").isSome =
        true :=
    isSome_resolvePath?_of_meets attic_lawful normalized (by decide) meets
      ⟨"note.mpl", by decide, by decide⟩
  exact
    ⟨⟨misses_attic visibleAt_attic (by decide) noCandidateHidden, alone⟩,
      misses_attic visibleLinked (by decide) noCandidateLinked,
      ⟨⟨"note.mpl"⟩, "note.mpl", ["lib", "note.mpl"], by decide, by decide,
        visibleBelowDash, rfl, by decide⟩,
      misses_deepTree⟩

end Resolver

end MplServer
