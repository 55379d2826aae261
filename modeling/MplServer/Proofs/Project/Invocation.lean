import Mathlib.Data.List.Forall2
import MplServer.Project.Invocation
import MplServer.Proofs.Path.Relative

/-!
# Command lines can be read back

The words of a command line are read from left to right, one section after the other. Whatever the
values in it look like, the reader finds the choices the command line was built from, so two
command lines are equal just when they make the same choices.
-/

namespace MplServer

/-- Two texts name the same place under a root. -/
def SamePlace (root : Path) (left right : String) : Prop :=
  (root.join ⟨left⟩).normalize = (root.join ⟨right⟩).normalize

namespace Invocation

/-! ## Reading a command line -/

/-- What the words of a command line say. -/
structure Reading where
  compiler : String
  debug : Bool
  metaInfo : Bool
  includes : List String
  triple : Option String
  output : String
  entryPoint : String
deriving DecidableEq, Repr

/-- Whether a flag comes next, and the words behind it. -/
def readFlag (flag : String) : List String → Bool × List String
  | [] => (false, [])
  | word :: rest => if word = flag then (true, rest) else (false, word :: rest)

/-- The directories to include, and the words behind them. -/
def readIncludes : List String → List String × List String
  | mark :: directory :: rest =>
      if mark = "-I" then
        (directory :: (readIncludes rest).1, (readIncludes rest).2)
      else ([], mark :: directory :: rest)
  | rest => ([], rest)

/-- The target triple if one comes next, and the words behind it. -/
def readTriple : List String → Option String × List String
  | mark :: triple :: rest =>
      if mark = "-triple" then (some triple, rest)
      else (none, mark :: triple :: rest)
  | rest => (none, rest)

/-- The output and the entry point, which come last. -/
def readEnd? : List String → Option (String × String)
  | [mark, output, entryPoint] =>
      if mark = "-o" then some (output, entryPoint) else none
  | _ => none

/-- A command line read from left to right. -/
def read? : List String → Option Reading
  | [] => none
  | compiler :: words =>
      let (optimized, words) := readFlag "-ndebug" words
      let (metaInfo, words) := readFlag "-meta-info" words
      let (includes, words) := readIncludes words
      let (triple, words) := readTriple words
      (readEnd? words).map fun (output, entryPoint) =>
        { compiler, debug := !optimized, metaInfo, includes, triple, output, entryPoint }

theorem readFlag_of_present (flag : String) (rest : List String) :
    readFlag flag (flag :: rest) = (true, rest) := by
  rw [readFlag, if_pos rfl]

theorem readFlag_of_absent
    {flag word : String} (rest : List String)
    (different : word ≠ flag) :
    readFlag flag (word :: rest) = (false, word :: rest) := by
  rw [readFlag, if_neg different]

theorem readIncludes_of_other
    {mark : String} (next : String) (rest : List String)
    (different : mark ≠ "-I") :
    readIncludes (mark :: next :: rest) = ([], mark :: next :: rest) := by
  rw [readIncludes, if_neg different]

theorem readIncludes_append
    (directories : List String) {rest : List String}
    (ended : readIncludes rest = ([], rest)) :
    readIncludes (directories.flatMap (fun directory => ["-I", directory]) ++ rest) =
      (directories, rest) := by
  induction directories with
  | nil => exact ended
  | cons first others inductionHypothesis =>
      rw [List.flatMap_cons, List.append_assoc]
      simp only [List.cons_append, List.nil_append]
      rw [readIncludes, if_pos rfl, inductionHypothesis]

/-- The words behind the include directories. -/
def endWords (triple : Option String) (output entryPoint : String) : List String :=
  (match triple with
    | some triple => ["-triple", triple]
    | none => []) ++ ["-o", output, entryPoint]

/-- What comes first of the end is none of the marks before it. -/
theorem exists_endWords_eq_cons
    (triple : Option String) (output entryPoint : String) :
    ∃ mark next rest,
      endWords triple output entryPoint = mark :: next :: rest ∧
        mark ≠ "-ndebug" ∧ mark ≠ "-meta-info" ∧ mark ≠ "-I" := by
  cases triple with
  | none => exact ⟨"-o", output, [entryPoint], rfl, by decide, by decide, by decide⟩
  | some triple =>
      exact ⟨"-triple", triple, ["-o", output, entryPoint], rfl,
        by decide, by decide, by decide⟩

theorem readEnd?_readTriple_endWords
    (triple : Option String) (output entryPoint : String) :
    (readTriple (endWords triple output entryPoint)).1 = triple ∧
      readEnd? (readTriple (endWords triple output entryPoint)).2 =
        some (output, entryPoint) := by
  cases triple with
  | none =>
      have notTriple : ("-o" : String) ≠ "-triple" := by decide
      simp [endWords, readTriple, readEnd?, notTriple]
  | some triple => simp [endWords, readTriple, readEnd?]

/-- The words behind the flags. -/
def tailWords (includes : List String) (triple : Option String)
    (output entryPoint : String) : List String :=
  includes.flatMap (fun directory => ["-I", directory]) ++
    endWords triple output entryPoint

theorem exists_tailWords_eq_cons
    (includes : List String) (triple : Option String) (output entryPoint : String) :
    ∃ mark rest,
      tailWords includes triple output entryPoint = mark :: rest ∧
        mark ≠ "-ndebug" ∧ mark ≠ "-meta-info" := by
  cases includes with
  | nil =>
      obtain ⟨mark, next, rest, shape, notDebug, notMeta, _⟩ :=
        exists_endWords_eq_cons triple output entryPoint
      exact ⟨mark, next :: rest, shape, notDebug, notMeta⟩
  | cons first others => exact ⟨"-I", _, rfl, by decide, by decide⟩

theorem readIncludes_tailWords
    (includes : List String) (triple : Option String) (output entryPoint : String) :
    readIncludes (tailWords includes triple output entryPoint) =
      (includes, endWords triple output entryPoint) := by
  apply readIncludes_append
  obtain ⟨mark, next, rest, shape, _, _, notInclude⟩ :=
    exists_endWords_eq_cons triple output entryPoint
  rw [shape]
  exact readIncludes_of_other next rest notInclude

/-- Reading takes a command line apart whatever its values look like. -/
theorem read?_words
    (compiler : String) (debug metaInfo : Bool) (includes : List String)
    (triple : Option String) (output entryPoint : String) :
    read?
        (compiler ::
          ((if debug then [] else ["-ndebug"]) ++
            ((if metaInfo then ["-meta-info"] else []) ++
              tailWords includes triple output entryPoint))) =
      some ⟨compiler, debug, metaInfo, includes, triple, output, entryPoint⟩ := by
  obtain ⟨mark, rest, shape, notDebug, notMeta⟩ :=
    exists_tailWords_eq_cons includes triple output entryPoint
  have flags :
      ∀ behind, behind = tailWords includes triple output entryPoint →
        readFlag "-meta-info" ((if metaInfo then ["-meta-info"] else []) ++ behind) =
          (metaInfo, behind) := by
    rintro behind rfl
    cases metaInfo with
    | false =>
        rw [shape]
        exact readFlag_of_absent rest notMeta
    | true => exact readFlag_of_present "-meta-info" _
  have debugFlag :
      readFlag "-ndebug"
          ((if debug then [] else ["-ndebug"]) ++
            ((if metaInfo then ["-meta-info"] else []) ++
              tailWords includes triple output entryPoint)) =
        (!debug,
          (if metaInfo then ["-meta-info"] else []) ++
            tailWords includes triple output entryPoint) := by
    cases debug with
    | false => exact readFlag_of_present "-ndebug" _
    | true =>
        cases metaInfo with
        | false =>
            rw [shape]
            exact readFlag_of_absent rest notDebug
        | true => exact readFlag_of_absent _ (by decide)
  obtain ⟨triple_eq, end_eq⟩ :=
    readEnd?_readTriple_endWords triple output entryPoint
  simp only [read?, debugFlag, flags _ rfl, readIncludes_tailWords, triple_eq, end_eq,
    Option.map_some, Bool.not_not]

end Invocation

/-! ## The choices behind a command line -/

namespace BuildPlan

theorem words_invocation (root : Path) (plan : BuildPlan) :
    (plan.invocation root).words =
      plan.compiler ::
        ((if plan.debug then [] else ["-ndebug"]) ++
          ((if plan.metaInfo then ["-meta-info"] else []) ++
            Invocation.tailWords (plan.includes.map root.relativeTo) plan.triple
              plan.output (root.relativeTo plan.entryPoint))) := by
  unfold invocation Invocation.tailWords Invocation.endWords
  rw [List.flatMap_map]
  cases plan.triple <;> simp

theorem read?_invocation (root : Path) (plan : BuildPlan) :
    Invocation.read? (plan.invocation root).words =
      some ⟨plan.compiler, plan.debug, plan.metaInfo, plan.includes.map root.relativeTo,
        plan.triple, plan.output, root.relativeTo plan.entryPoint⟩ := by
  rw [words_invocation, Invocation.read?_words]

end BuildPlan

namespace Configuration

/-- Two configurations with their settings make the same choices for a build under a root. What a
configuration sets counts before the settings, an empty triple is none, and directories count by
the places they name. -/
structure SameChoices (root : Path) (first : Configuration) (firstSettings : Settings)
    (second : Configuration) (secondSettings : Settings) : Prop where
  compiler :
    first.compilerPath.getD firstSettings.compilerPath =
      second.compilerPath.getD secondSettings.compilerPath
  debug : first.debug.getD false = second.debug.getD false
  metaInfo : first.metaInfo.getD false = second.metaInfo.getD false
  includes :
    List.Forall₂ (SamePlace root)
      (first.includePaths.getD firstSettings.includePaths)
      (second.includePaths.getD secondSettings.includePaths)
  triple : first.triple.getD "" = second.triple.getD ""
  output : first.output = second.output
  entryPoint : SamePlace root first.entryPoint second.entryPoint

/-- A reading of a command line that says what a configuration and its settings choose. -/
structure ReadAs (root : Path) (configuration : Configuration) (settings : Settings)
    (reading : Invocation.Reading) : Prop where
  compiler : reading.compiler = configuration.compilerPath.getD settings.compilerPath
  debug : reading.debug = configuration.debug.getD false
  metaInfo : reading.metaInfo = configuration.metaInfo.getD false
  includes :
    List.Forall₂ (SamePlace root) reading.includes
      (configuration.includePaths.getD settings.includePaths)
  triple : reading.triple = configuration.triple.filter (· ≠ "")
  output : reading.output = configuration.output
  entryPoint : SamePlace root reading.entryPoint configuration.entryPoint

theorem filter_eq_filter_iff (first second : Option String) :
    first.filter (· ≠ "") = second.filter (· ≠ "") ↔
      first.getD "" = second.getD "" := by
  have filtered (triple : Option String) :
      triple.filter (· ≠ "") =
        if triple.getD "" = "" then none else some (triple.getD "") := by
    cases triple with
    | none => rfl
    | some text => by_cases empty : text = "" <;> simp [empty]
  rw [filtered, filtered]
  constructor
  · intro equal
    split at equal
    · split at equal
      · simp_all
      · cases equal
    · split at equal
      · cases equal
      · exact Option.some.inj equal
  · intro equal
    rw [equal]

theorem map_relativeTo_eq_iff (root : Path) (left right : List String) :
    left.map root.relativeTo = right.map root.relativeTo ↔
      List.Forall₂ (SamePlace root) left right := by
  induction left generalizing right with
  | nil =>
      cases right with
      | nil => simp
      | cons head tail => simp
  | cons first others inductionHypothesis =>
      cases right with
      | nil => simp
      | cons head tail =>
          rw [List.map_cons, List.map_cons, List.cons.injEq, List.forall₂_cons,
            inductionHypothesis, Path.relativeTo_eq_relativeTo_iff]
          rfl

theorem forall₂_map_relativeTo (root : Path) (directories : List String) :
    List.Forall₂ (SamePlace root) (directories.map root.relativeTo) directories := by
  rw [List.forall₂_map_left_iff, List.forall₂_same]
  exact fun directory _ => Path.normalize_join_relativeTo root directory

/-- Command lines for one root are equal just when they were built from the same choices, and a
reader recovers the choices from the words alone. -/
theorem invocation_eq_iff_sameChoices
    (root : Path) (first second : Configuration)
    (firstSettings secondSettings : Settings) :
    (first.invocation root firstSettings = second.invocation root secondSettings ↔
        SameChoices root first firstSettings second secondSettings) ∧
      ∃ reading,
        Invocation.read? (first.invocation root firstSettings).words = some reading ∧
          ReadAs root first firstSettings reading := by
  constructor
  · constructor
    · intro equal
      have sameReading :
          Invocation.read? (first.invocation root firstSettings).words =
            Invocation.read? (second.invocation root secondSettings).words := by
        rw [equal]
      rw [invocation, invocation, BuildPlan.read?_invocation,
        BuildPlan.read?_invocation, Option.some.injEq,
        Invocation.Reading.mk.injEq] at sameReading
      obtain ⟨compiler, debug, metaInfo, includes, triple, output, entryPoint⟩ :=
        sameReading
      exact {
        compiler
        debug
        metaInfo
        includes := (map_relativeTo_eq_iff root _ _).mp includes
        triple := (filter_eq_filter_iff _ _).mp triple
        output
        entryPoint := (Path.relativeTo_eq_relativeTo_iff root _ _).mp entryPoint }
    · intro same
      have includes := (map_relativeTo_eq_iff root _ _).mpr same.includes
      have triple := (filter_eq_filter_iff _ _).mpr same.triple
      have entryPoint :=
        (Path.relativeTo_eq_relativeTo_iff root _ _).mpr same.entryPoint
      have sameWords :
          (first.invocation root firstSettings).words =
            (second.invocation root secondSettings).words := by
        rw [invocation, invocation, BuildPlan.words_invocation,
          BuildPlan.words_invocation]
        simp only [BuildPlan.of, same.compiler, same.debug, same.metaInfo, includes,
          triple, same.output, entryPoint]
        rfl
      exact congrArg Invocation.mk sameWords
  · refine ⟨_, BuildPlan.read?_invocation root (BuildPlan.of first firstSettings), ?_⟩
    exact {
      compiler := rfl
      debug := rfl
      metaInfo := rfl
      includes := forall₂_map_relativeTo root _
      triple := rfl
      output := rfl
      entryPoint := Path.normalize_join_relativeTo root first.entryPoint }

end Configuration

end MplServer
