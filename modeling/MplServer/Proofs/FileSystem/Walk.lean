import MplServer.Proofs.FileSystem.LinkFree
import MplServer.Proofs.FileSystem.Spelling

/-!
# Walks

A path is walked component by component. Without links its normal form is walked to the same
place, and the file system leads there.
-/

namespace MplServer

open MplServer.Path (Component)

namespace Node

/-- One component of a walk. A slash goes to the root, two dots go to the directory above, which at
the root is the root, and a name goes from a directory to one of its entries. -/
def step? (root : Node) (place : Place) : Component → Option Place
  | .root => some []
  | .current => some place
  | .parent => some place.dropLast
  | .name name =>
      match root.at? place with
      | some (.directory entries) =>
          if (entries.lookup name).isSome then some (place ++ [name]) else none
      | _ => none

/-- The place that components walk to, one after the other. -/
def walk? (root : Node) (place : Place) (steps : List Component) : Option Place :=
  steps.foldlM root.step? place

variable {root : Node} {start place final : Place}

theorem step?_name_eq_some_iff {name : String} :
    root.step? place (.name name) = some final ↔
      (∃ entries node, root.at? place = some (.directory entries) ∧
        entries.lookup name = some node) ∧ final = place ++ [name] := by
  unfold step?
  cases here : root.at? place with
  | none => simp
  | some found =>
      cases found with
      | file contents executable => simp
      | symlink target => simp
      | directory entries =>
          cases found : entries.lookup name with
          | none => simp [found]
          | some node => simp [found, eq_comm]

@[simp]
theorem walk?_nil : root.walk? place [] = some place := rfl

theorem walk?_cons_eq_some_iff {step : Component} {rest : List Component} :
    root.walk? place (step :: rest) = some final ↔
      ∃ middle, root.step? place step = some middle ∧ root.walk? middle rest = some final := by
  rw [walk?, List.foldlM_cons]
  exact Option.bind_eq_some_iff

theorem walk?_append_eq_some_iff {front back : List Component} :
    root.walk? start (front ++ back) = some final ↔
      ∃ middle, root.walk? start front = some middle ∧ root.walk? middle back = some final := by
  rw [walk?, List.foldlM_append]
  exact Option.bind_eq_some_iff

theorem walk?_concat_eq_some_iff {front : List Component} {last : Component} :
    root.walk? start (front ++ [last]) = some final ↔
      ∃ middle, root.walk? start front = some middle ∧ root.step? middle last = some final := by
  rw [walk?_append_eq_some_iff]
  simp [walk?_cons_eq_some_iff]

/-! ## Normal forms are walked to the same place -/

/-- What a path has been reduced to is walked to where the path itself has been walked to, and one
component more keeps it so: what it takes back is the name that was walked last. -/
theorem walk?_climb
    {done : List Component} {step : Component}
    (walked : root.walk? start done = some place)
    (stepped : root.step? place step = some final) :
    root.walk? start (Path.climb done step) = some final := by
  have further : root.walk? start (done ++ [step]) = some final :=
    walk?_concat_eq_some_iff.mpr ⟨place, walked, stepped⟩
  cases step with
  | root => exact further
  | name text => exact further
  | current => rwa [← Option.some.inj stepped]
  | parent =>
      have above : place.dropLast = final := Option.some.inj stepped
      rcases List.eq_nil_or_concat' done with rfl | ⟨shorter, last, rfl⟩
      · exact further
      obtain ⟨middle, before, lastStep⟩ := walk?_concat_eq_some_iff.mp walked
      cases last with
      | current => simpa [Path.climb] using further
      | parent => simpa [Path.climb] using further
      | root =>
          -- The walk is at the root, and stays there.
          obtain rfl : [] = place := Option.some.inj lastStep
          rw [← above]
          simpa [Path.climb] using walked
      | name text =>
          obtain ⟨_, rfl⟩ := step?_name_eq_some_iff.mp lastStep
          rw [List.dropLast_concat] at above
          rw [Path.climb_parent_of_name, ← above]
          exact before

theorem walk?_foldl_climb
    {done steps : List Component}
    (walked : root.walk? start done = some place)
    (onward : root.walk? place steps = some final) :
    root.walk? start (steps.foldl Path.climb done) = some final := by
  induction steps generalizing done place with
  | nil =>
      cases onward
      exact walked
  | cons step rest inductionHypothesis =>
      obtain ⟨middle, stepped, remaining⟩ := walk?_cons_eq_some_iff.mp onward
      exact inductionHypothesis (walk?_climb walked stepped) remaining

theorem walk?_normalComponents
    {steps : List Component}
    (walked : root.walk? start steps = some final) :
    root.walk? start (Path.normalComponents steps) = some final :=
  walk?_foldl_climb walk?_nil walked

/-! ## Walks and the rules of following steps -/

/-- There is something wherever a walk goes. -/
theorem exists_at?_of_step?
    {node : Node} {step : Component}
    (here : root.at? place = some node)
    (stepped : root.step? place step = some final) :
    ∃ next, root.at? final = some next := by
  cases step with
  | root =>
      cases stepped
      exact ⟨root, by rw [Node.at?]⟩
  | current =>
      cases stepped
      exact ⟨node, here⟩
  | parent =>
      cases stepped
      rcases List.eq_nil_or_concat' place with rfl | ⟨above, name, rfl⟩
      · exact ⟨node, here⟩
      · rw [List.dropLast_concat]
        rw [at?_append] at here
        obtain ⟨upper, inUpper, _⟩ := Option.bind_eq_some_iff.mp here
        exact ⟨upper, inUpper⟩
  | name text =>
      obtain ⟨⟨entries, next, inDirectory, found⟩, rfl⟩ := step?_name_eq_some_iff.mp stepped
      exact ⟨next, by rw [at?_concat inDirectory, found]⟩

theorem exists_at?_of_walk?
    {node : Node} {steps : List Component}
    (here : root.at? start = some node)
    (walked : root.walk? start steps = some final) :
    ∃ next, root.at? final = some next := by
  induction steps generalizing start node with
  | nil =>
      cases walked
      exact ⟨node, here⟩
  | cons step rest inductionHypothesis =>
      obtain ⟨middle, stepped, remaining⟩ := walk?_cons_eq_some_iff.mp walked
      obtain ⟨next, there⟩ := exists_at?_of_step? here stepped
      exact inductionHypothesis there remaining

variable {links : Nat}

/-- Without links, steps that can be taken are walked to where they lead. -/
theorem LinkFree.walk?_of_leads
    {steps : List Component}
    (linkFree : root.LinkFree)
    (allSteps : ∀ step ∈ steps, step.IsStep)
    (leads : Leads root links place (steps.map Component.text) final) :
    root.walk? place steps = some final := by
  induction steps generalizing place with
  | nil => rw [walk?_nil, leads.eq_of_nil]
  | cons step rest inductionHypothesis =>
      rw [List.forall_mem_cons] at allSteps
      rw [List.map_cons] at leads
      rw [walk?_cons_eq_some_iff]
      cases allSteps.1 with
      | parent => exact ⟨place.dropLast, rfl, inductionHypothesis allSteps.2 leads.of_dots.2⟩
      | @name name isName =>
          obtain ⟨entries, node, inDirectory, found, _, onward⟩ :=
            linkFree.onward_of_name leads isName.notDot isName.notDots
          have stepped : root.step? place (.name name) = some (place ++ [name]) :=
            step?_name_eq_some_iff.mpr ⟨⟨entries, node, inDirectory, found⟩, rfl⟩
          exact ⟨place ++ [name], stepped, inductionHypothesis allSteps.2 onward⟩

theorem LinkFree.leads_of_walk?_names
    {names : List String}
    (linkFree : root.LinkFree)
    (allNames : ∀ name ∈ names, Path.IsName name)
    (walked : root.walk? place (names.map Component.name) = some final) :
    Leads root links place names final := by
  induction names generalizing place with
  | nil =>
      cases walked
      exact .stop links _
  | cons name rest inductionHypothesis =>
      rw [List.forall_mem_cons] at allNames
      rw [List.map_cons] at walked
      obtain ⟨middle, stepped, remaining⟩ := walk?_cons_eq_some_iff.mp walked
      obtain ⟨⟨entries, node, inDirectory, found⟩, rfl⟩ := step?_name_eq_some_iff.mp stepped
      have noLink := linkFree.ne_symlink_of_lookup inDirectory found
      exact .entry inDirectory allNames.1.notDot allNames.1.notDots found noLink
        (inductionHypothesis allNames.2 remaining)

/-- Climbs from a directory go through directories, so those of a normal list can be taken. -/
theorem LinkFree.leads_of_walk?
    {entries : List (String × Node)} {height : Nat} {names : List String}
    (linkFree : root.LinkFree)
    (inDirectory : root.at? place = some (.directory entries))
    (allNames : ∀ name ∈ names, Path.IsName name)
    (walked :
      root.walk? place (List.replicate height Component.parent ++ names.map Component.name) =
        some final) :
    Leads root links place
      ((List.replicate height Component.parent ++ names.map Component.name).map Component.text)
      final := by
  induction height generalizing place entries with
  | zero =>
      rw [List.replicate_zero, List.nil_append] at walked ⊢
      rw [List.map_map, show Component.text ∘ Component.name = id from rfl, List.map_id]
      exact linkFree.leads_of_walk?_names allNames walked
  | succ fewer inductionHypothesis =>
      rw [List.replicate_succ, List.cons_append] at walked ⊢
      obtain ⟨middle, stepped, remaining⟩ := walk?_cons_eq_some_iff.mp walked
      obtain rfl : place.dropLast = middle := Option.some.inj stepped
      obtain ⟨upper, inUpper⟩ := exists_directory_dropLast inDirectory
      exact .dots inDirectory (inductionHypothesis inUpper remaining)

/-- The root of a tree with a directory in it is one. -/
theorem exists_directory_root
    {entries : List (String × Node)}
    (inDirectory : root.at? place = some (.directory entries)) :
    ∃ upper, root.at? [] = some (.directory upper) := by
  cases place with
  | nil => exact ⟨entries, inDirectory⟩
  | cons name rest =>
      obtain ⟨upper, _, rfl, _, _⟩ := exists_lookup_of_at?_cons inDirectory
      exact ⟨upper, by rw [Node.at?]⟩

end Node

/-! ## The text of a normal form -/

theorem getLast?_stepsOf
    {path : Path} {last : String}
    (ending : path.pieces.getLast? = some last) (nonempty : last ≠ "") :
    (stepsOf path.text).getLast? = some last := by
  obtain ⟨piece, unbroken, form⟩ := Text.exists_last_piece path.text
  have cut := Text.splitAt_eq_singleton unbroken
  have isLast : piece = last := by
    unfold Path.pieces at ending
    rcases form with whole | ⟨before, whole⟩
    · simpa [whole, cut] using ending
    · simpa [whole, Text.splitAt_append_slash, cut] using ending
  rw [isLast] at unbroken form
  obtain ⟨front, steps_eq⟩ := exists_stepsOf_eq_concat unbroken nonempty form
  rw [steps_eq, List.getLast?_concat]

/-- The text of a normal form does not ask for a directory by its end, unless it has no steps. -/
theorem getLast?_stepsOf_normalize_ne_dot
    {path : Path} (hasSteps : path.normalize.steps ≠ []) :
    (stepsOf path.normalize.text).getLast? ≠ some "." := by
  have allSteps : ∀ step ∈ path.normalize.steps, step.IsStep :=
    fun step member => Path.isStep_of_mem_steps member
  have lastStep := allSteps _ (List.getLast_mem hasSteps)
  have pieces_eq := Path.pieces_joinWith hasSteps allSteps
  have lastText :
      (path.normalize.steps.map Path.Component.text).getLast? =
        some (path.normalize.steps.getLast hasSteps).text := by
    rw [List.getLast?_map, List.getLast?_eq_some_getLast hasSteps]
    rfl
  have ending :
      path.normalize.pieces.getLast? = some (path.normalize.steps.getLast hasSteps).text := by
    unfold Path.pieces at pieces_eq ⊢
    rw [Path.text_normalize]
    split
    · have cut := Text.splitAt_append_slash ""
        (Text.joinWith '/' (path.normalize.steps.map Path.Component.text))
      rw [String.empty_append] at cut
      rw [cut, pieces_eq, List.getLast?_append, lastText, Option.some_or]
    · rw [String.empty_append, pieces_eq, lastText]
  rw [getLast?_stepsOf ending lastStep.text_ne_empty]
  simpa using lastStep.text_ne_dot

theorem noNul_normalize
    {path : Path} (noNul : '\x00' ∉ path.text.toList) :
    '\x00' ∉ path.normalize.text.toList := by
  intro nul
  obtain ⟨step, member, inStep⟩ := exists_step_of_nul nul
  exact noNul (nul_of_mem_steps (path.steps_normalize_sublist.mem member) inStep)

namespace FileSystem

variable {files : FileSystem} {path : Path} {place : Place} {entries : List (String × Node)}

/-- Where a path leads when it is walked component by component, an absolute path from the root and
a relative one from the working directory. The empty path stands for that directory. -/
def reached? (files : FileSystem) (path : Path) : Option Place :=
  files.root.walk? files.workingDirectory path.components

theorem reached?_eq_walk?_steps (files : FileSystem) (path : Path) :
    files.reached? path = files.root.walk? (files.start path) path.steps := by
  rw [reached?, Path.components_eq_opening_append, Path.opening, start]
  split
  · rfl
  · split <;> rfl

theorem reached?_normalize
    (reached : files.reached? path = some place) :
    files.reached? path.normalize = some place := by
  rw [reached?, Path.components_normalize]
  exact Node.walk?_normalComponents reached

theorem reached?_of_leadsTo
    (linkFree : files.root.LinkFree)
    (leads : files.LeadsTo path place) :
    files.reached? path = some place := by
  rw [reached?_eq_walk?_steps]
  exact linkFree.walk?_of_leads (fun step member => Path.isStep_of_mem_steps member)
    leads.leads_steps

/-- Without links a normal form that can be walked leads to where it is walked. -/
theorem leadsTo_normalize
    (linkFree : files.root.LinkFree)
    (inDirectory : files.root.at? files.workingDirectory = some (.directory entries))
    (nonempty : path.normalize.text ≠ "")
    (reached : files.reached? path.normalize = some place) :
    files.LeadsTo path.normalize place := by
  obtain ⟨startEntries, atStart⟩ :
      ∃ upper, files.root.at? (files.start path.normalize) = some (.directory upper) := by
    unfold start
    split
    · exact Node.exists_directory_root inDirectory
    · exact ⟨entries, inDirectory⟩
  rw [reached?_eq_walk?_steps] at reached
  obtain ⟨height, names, allNames, shape⟩ := Path.exists_steps_normalize path
  refine ⟨nonempty, ?_⟩
  have leads : files.root.Leads maxLinks (files.start path.normalize)
      ((stepsOf path.normalize.text).filter (· ≠ ".")) place := by
    rw [filter_stepsOf]
    change files.root.Leads maxLinks _ (path.normalize.steps.map _) place
    rw [shape] at reached ⊢
    exact linkFree.leads_of_walk? atStart allNames reached
  apply leads.insert_dots
  by_cases noSteps : path.normalize.steps = []
  · left
    rw [noSteps] at reached
    cases reached
    exact ⟨startEntries, atStart⟩
  · exact Or.inr (getLast?_stepsOf_normalize_ne_dot noSteps)

/-- Without links a path and its normal form are located at the same place, unless the normal form
is empty: the file system finds nothing there. -/
theorem locate_normalize
    (linkFree : files.root.LinkFree)
    (inDirectory : files.root.at? files.workingDirectory = some (.directory entries))
    (nonempty : path.normalize.text ≠ "")
    (located : files.locate path = .ok place) :
    files.locate path.normalize = .ok place := by
  obtain ⟨noNul, short, leads⟩ := locate_eq_ok_iff.mp located
  have reached := reached?_normalize (reached?_of_leadsTo linkFree leads)
  have smaller := path.size_normalize_le
  exact locate_eq_ok_iff.mpr
    ⟨noNul_normalize noNul, smaller.trans short,
      leadsTo_normalize linkFree inDirectory nonempty reached⟩

end FileSystem

end MplServer
