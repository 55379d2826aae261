import MplServer.Path.Lexical
import MplServer.Proofs.FileSystem.Steps
import MplServer.Proofs.Path.Ancestors
import MplServer.Proofs.Path.NormalForm

/-!
# Trees without links

Without links a path leads where its text says: a name leads down, two dots lead up. The place is
read off the normal form of the path, and every place that the normal form keeps has been passed on
the way.
-/

namespace MplServer

open MplServer.Path (Component)

/-! ## Places read off a text -/

/-- Where a component leads when no link is on the way. -/
def lexicalStep (place : Place) : Component → Place
  | .parent => place.dropLast
  | .name name => place ++ [name]
  | .root => place
  | .current => place

/-- Where components lead, one after the other, when no link is on the way. -/
def lexicalPlace (place : Place) (steps : List Component) : Place :=
  steps.foldl lexicalStep place

@[simp]
theorem lexicalPlace_nil (place : Place) : lexicalPlace place [] = place := rfl

@[simp]
theorem lexicalPlace_cons (place : Place) (step : Component) (rest : List Component) :
    lexicalPlace place (step :: rest) = lexicalPlace (lexicalStep place step) rest := rfl

@[simp]
theorem lexicalPlace_append (place : Place) (front back : List Component) :
    lexicalPlace place (front ++ back) = lexicalPlace (lexicalPlace place front) back :=
  List.foldl_append

theorem lexicalPlace_names (place names : Place) :
    lexicalPlace place (names.map .name) = place ++ names := by
  induction names generalizing place with
  | nil => simp
  | cons first others inductionHypothesis =>
      rw [List.map_cons, lexicalPlace_cons, inductionHypothesis]
      simp [lexicalStep]

theorem climb_root_names
    (place : Place) {step : Component} (isStep : step.IsStep) :
    Path.climb (.root :: place.map .name) step =
      .root :: (lexicalStep place step).map .name := by
  cases isStep with
  | name isName => simp [lexicalStep]
  | parent =>
      rcases List.eq_nil_or_concat' place with rfl | ⟨shorter, last, rfl⟩
      · rfl
      · rw [lexicalStep, List.dropLast_concat, List.map_append, ← List.cons_append]
        exact Path.climb_parent_of_name _ last

theorem foldl_climb_root_names
    (place : Place) {steps : List Component}
    (allSteps : ∀ step ∈ steps, step.IsStep) :
    steps.foldl Path.climb (.root :: place.map .name) =
      .root :: (lexicalPlace place steps).map .name := by
  induction steps generalizing place with
  | nil => rfl
  | cons step rest inductionHypothesis =>
      rw [List.forall_mem_cons] at allSteps
      rw [List.foldl_cons, climb_root_names place allSteps.1, lexicalPlace_cons]
      exact inductionHypothesis _ allSteps.2

/-- The normal form of an absolute path names the place that is read off the path. -/
theorem components_normalize_of_isAbsolute
    {path : Path}
    (absolute : path.isAbsolute = true) :
    path.normalize.components = .root :: (lexicalPlace [] path.steps).map .name := by
  have allSteps : ∀ step ∈ path.steps, step.IsStep :=
    fun step member => Path.isStep_of_mem_steps member
  rw [Path.components_normalize, Path.normalComponents_components, if_pos absolute]
  exact foldl_climb_root_names [] allSteps

/-- Whoever comes to be at or below a place from outside of it, passes through the place. -/
theorem exists_visit
    {place target : Place} {steps : List Component}
    (outside : ¬ target <+: place)
    (inside : target <+: lexicalPlace place steps) :
    ∃ before behind,
      steps = before ++ behind ∧ before ≠ [] ∧ lexicalPlace place before = target := by
  induction steps generalizing place with
  | nil => exact absurd inside outside
  | cons step rest inductionHypothesis =>
      rw [lexicalPlace_cons] at inside
      by_cases entered : target <+: lexicalStep place step
      · refine ⟨[step], rest, rfl, List.cons_ne_nil step [], ?_⟩
        rw [lexicalPlace_cons, lexicalPlace_nil]
        -- Only a name leads into the target, and it completes it.
        cases step with
        | root => exact absurd entered outside
        | current => exact absurd entered outside
        | parent => exact absurd (entered.trans (List.dropLast_prefix place)) outside
        | name text =>
            rcases List.prefix_concat_iff.mp entered with whole | shorter
            · exact whole.symm
            · exact absurd shorter outside
      · obtain ⟨before, behind, rfl, _, visited⟩ := inductionHypothesis entered inside
        exact ⟨step :: before, behind, rfl, List.cons_ne_nil step before, visited⟩

/-! ## Trees without links -/

namespace Node

/-- Nothing in a tree is a link. -/
inductive LinkFree : Node → Prop where
  | file (contents : Bytes) (executable : Bool) : LinkFree (.file contents executable)
  | directory {entries : List (String × Node)}
      (below : ∀ entry ∈ entries, LinkFree entry.2) :
      LinkFree (.directory entries)

variable {root : Node} {links : Nat} {place final : Place}

theorem LinkFree.at?
    {node found : Node} {names : Place}
    (linkFree : node.LinkFree)
    (reached : node.at? names = some found) :
    found.LinkFree := by
  induction names generalizing node with
  | nil =>
      rw [Node.at?, Option.some.injEq] at reached
      exact reached ▸ linkFree
  | cons name rest inductionHypothesis =>
      obtain ⟨entries, next, rfl, looked, below⟩ := exists_lookup_of_at?_cons reached
      cases linkFree with
      | directory inner => exact inductionHypothesis (inner _ (mem_of_lookup_eq_some looked)) below

theorem LinkFree.ne_symlink
    {node : Node} (linkFree : node.LinkFree) (target : String) :
    node ≠ .symlink target := by
  rintro rfl
  cases linkFree

theorem at?_concat
    {entries : List (String × Node)}
    (inDirectory : root.at? place = some (.directory entries)) (name : String) :
    root.at? (place ++ [name]) = entries.lookup name := by
  rw [at?_append, inDirectory, Option.bind_some]
  cases found : entries.lookup name with
  | none => rw [Node.at?, found]
  | some node => rw [at?_cons_of_lookup found, Node.at?]

theorem LinkFree.ne_symlink_of_lookup
    {entries : List (String × Node)} {name : String} {node : Node}
    (linkFree : root.LinkFree)
    (inDirectory : root.at? place = some (.directory entries))
    (found : entries.lookup name = some node) (target : String) :
    node ≠ .symlink target := by
  have reached : root.at? (place ++ [name]) = some node := by
    rw [at?_concat inDirectory, found]
  exact (linkFree.at? reached).ne_symlink target

/-- Without links a name is always stepped into. -/
theorem LinkFree.onward_of_name
    {name : String} {rest : List String}
    (linkFree : root.LinkFree)
    (leads : Leads root links place (name :: rest) final)
    (notDot : name ≠ ".") (notDots : name ≠ "..") :
    ∃ entries node,
      root.at? place = some (.directory entries) ∧ entries.lookup name = some node ∧
        (∀ target, node ≠ .symlink target) ∧
          Leads root links (place ++ [name]) rest final := by
  obtain ⟨entries, node, here, found, onward⟩ := leads.of_name notDot notDots
  have noLink := linkFree.ne_symlink_of_lookup here found
  refine ⟨entries, node, here, found, noLink, onward.resolve_left ?_⟩
  rintro ⟨target, isLink⟩
  exact noLink target isLink

/-- Without links steps lead where they say. -/
theorem LinkFree.eq_lexicalPlace
    {steps : List Component}
    (linkFree : root.LinkFree)
    (allSteps : ∀ step ∈ steps, step.IsStep)
    (leads : Leads root links place (steps.map Component.text) final) :
    final = lexicalPlace place steps := by
  induction steps generalizing place with
  | nil => exact leads.eq_of_nil
  | cons step rest inductionHypothesis =>
      rw [List.forall_mem_cons] at allSteps
      rw [List.map_cons] at leads
      rw [lexicalPlace_cons]
      apply inductionHypothesis allSteps.2
      cases allSteps.1 with
      | parent => exact leads.of_dots.2
      | name isName =>
          obtain ⟨_, _, _, _, _, onward⟩ :=
            linkFree.onward_of_name leads isName.notDot isName.notDots
          exact onward

/-- Dots may be put into steps that lead to a directory. -/
theorem LinkFree.leads_of_filter_dots
    {steps : List String} {entries : List (String × Node)}
    (linkFree : root.LinkFree)
    (leads : Leads root links place (steps.filter (· ≠ ".")) final)
    (toDirectory : root.at? final = some (.directory entries)) :
    Leads root links place steps final := by
  induction steps generalizing place with
  | nil => exact leads
  | cons step rest inductionHypothesis =>
      by_cases dot : step = "."
      · subst dot
        rw [List.filter_cons_of_neg (by simp)] at leads
        have here : ∃ entries, root.at? place = some (.directory entries) := by
          cases behind : rest.filter (· ≠ ".") with
          | nil =>
              rw [behind] at leads
              rw [← leads.eq_of_nil]
              exact ⟨entries, toDirectory⟩
          | cons next others =>
              rw [behind] at leads
              exact leads.directory_of_cons
        obtain ⟨_, inDirectory⟩ := here
        exact .dot inDirectory (inductionHypothesis leads)
      rw [List.filter_cons_of_pos (by simpa using dot)] at leads
      by_cases dots : step = ".."
      · subst dots
        obtain ⟨⟨_, inDirectory⟩, onward⟩ := leads.of_dots
        exact .dots inDirectory (inductionHypothesis onward)
      · obtain ⟨_, node, inDirectory, found, noLink, onward⟩ :=
          linkFree.onward_of_name leads dot dots
        exact .entry inDirectory dot dots found noLink (inductionHypothesis onward)

/-- Steps can be taken to a place that is there, if they climb from directories only. -/
theorem LinkFree.leads_lexically
    {steps : List Component} {node : Node}
    (linkFree : root.LinkFree)
    (allSteps : ∀ step ∈ steps, step.IsStep)
    (climbs : ∀ front back, steps = front ++ .parent :: back →
      ∃ middle, Leads root links [] (front.map Component.text ++ [".."]) middle)
    (reached : root.at? (lexicalPlace [] steps) = some node) :
    Leads root links [] (steps.map Component.text) (lexicalPlace [] steps) := by
  induction steps using List.reverseRecOn generalizing node with
  | nil => exact .stop links []
  | append_singleton front last inductionHypothesis =>
      have frontSteps : ∀ step ∈ front, step.IsStep :=
        fun step member => allSteps step (List.mem_append_left _ member)
      cases allSteps last (List.mem_append_right front List.mem_cons_self) with
      | parent =>
          obtain ⟨middle, leads⟩ := climbs front [] rfl
          have written :
              front.map Component.text ++ [".."] =
                (front ++ [Component.parent]).map Component.text := by
            rw [List.map_append]
            rfl
          rw [written] at leads
          rwa [linkFree.eq_lexicalPlace allSteps leads] at leads
      | @name name isName =>
          rw [lexicalPlace_append, lexicalPlace_cons, lexicalPlace_nil, lexicalStep] at reached ⊢
          have parts := reached
          rw [at?_append] at parts
          cases upper : root.at? (lexicalPlace [] front) with
          | none => simp [upper] at parts
          | some directory =>
              rw [upper, Option.bind_some] at parts
              obtain ⟨entries, next, rfl, found, _⟩ := exists_lookup_of_at?_cons parts
              have noLink := linkFree.ne_symlink_of_lookup upper found
              have toDirectory := inductionHypothesis frontSteps
                (fun before behind parted =>
                  climbs before (behind ++ [.name name]) (by rw [parted]; simp))
                upper
              rw [List.map_append]
              exact toDirectory.append fun fewer _ =>
                .entry upper isName.notDot isName.notDots found noLink (.stop fewer _)

end Node

namespace FileSystem

variable {files : FileSystem} {directory : Path} {name : String}

/-- Without links, what is found beside a name is the entry at the place that the path names. -/
theorem exists_at?_of_has_child
    (linkFree : files.root.LinkFree)
    (absolute : directory.isAbsolute = true)
    (isName : Path.IsName name)
    (has : files.has (directory.child name) = true) :
    ∃ node, files.root.at? (lexicalPlace [] directory.steps ++ [name]) = some node := by
  obtain ⟨place, node, located, reached⟩ := has_eq_true_iff.mp has
  have childAbsolute : (directory.child name).isAbsolute = true := by
    rw [Path.child, Path.isAbsolute_join (Path.isAbsolute_of_isName isName), absolute]
  have leads := (locate_eq_ok_iff.mp located).2.2.leads_steps
  rw [start_of_isAbsolute childAbsolute] at leads
  have place_eq := linkFree.eq_lexicalPlace
    (fun step member => Path.isStep_of_mem_steps member) leads
  rw [Path.steps_child directory isName, lexicalPlace_append] at place_eq
  rw [place_eq] at reached
  exact ⟨node, reached⟩

/-- Without links an entry is found beside a directory that can be followed. -/
theorem has_child_of_at?
    {node : Node}
    (linkFree : files.root.LinkFree)
    (absolute : directory.isAbsolute = true)
    (legal : LegalName name)
    (noNul : '\x00' ∉ (directory.child name).text.toList)
    (short : (directory.child name).text.utf8ByteSize ≤ maxPathSize)
    (leads : files.root.Leads maxLinks [] (directory.steps.map Component.text)
      (lexicalPlace [] directory.steps))
    (reached : files.root.at? (lexicalPlace [] directory.steps ++ [name]) = some node) :
    files.has (directory.child name) = true := by
  have parts := reached
  rw [Node.at?_append] at parts
  cases upper : files.root.at? (lexicalPlace [] directory.steps) with
  | none => simp [upper] at parts
  | some directoryNode =>
      rw [upper, Option.bind_some] at parts
      obtain ⟨entries, next, rfl, found, _⟩ := Node.exists_lookup_of_at?_cons parts
      have noLink := linkFree.ne_symlink_of_lookup upper found
      have leadsTo : files.LeadsTo directory (lexicalPlace [] directory.steps) := by
        refine ⟨Path.text_ne_empty_of_isAbsolute absolute, ?_⟩
        rw [start_of_isAbsolute absolute]
        apply linkFree.leads_of_filter_dots _ upper
        rw [filter_stepsOf]
        exact leads
      have toChild := leadsTo.child legal upper found noLink
      have located := locate_eq_ok_iff.mpr ⟨noNul, short, toChild⟩
      exact has_eq_true_iff.mpr ⟨_, node, located, reached⟩

end FileSystem

end MplServer
