import Mathlib.Data.List.Infix
import MplServer.Path.Lexical
import MplServer.Proofs.Path.Ancestors

/-!
# Lexical normal forms

A normal list of components is a slash and names, or some climbs and names. Every path is
normalized to one, normal lists stay as they are, and the normal form of a joined path depends
only on the normal form of the path it is joined to.
-/

namespace MplServer.Path

/-- A slash and names, or climbs out of the start and then names. -/
inductive IsNormal : List Component → Prop where
  | absolute {names : List String}
      (allNames : ∀ name ∈ names, IsName name) :
      IsNormal (.root :: names.map .name)
  | relative (height : Nat) {names : List String}
      (allNames : ∀ name ∈ names, IsName name) :
      IsNormal (List.replicate height .parent ++ names.map .name)

theorem isStep_of_mem_names
    {names : List String}
    (allNames : ∀ name ∈ names, IsName name)
    {step : Component}
    (member : step ∈ names.map Component.name) :
    step.IsStep := by
  obtain ⟨name, inNames, rfl⟩ := List.mem_map.mp member
  exact .name (allNames name inNames)

theorem isStep_of_mem_climbs
    {height : Nat} {names : List String}
    (allNames : ∀ name ∈ names, IsName name)
    {step : Component}
    (member : step ∈ List.replicate height Component.parent ++ names.map Component.name) :
    step.IsStep := by
  rcases List.mem_append.mp member with climb | name
  · rw [List.eq_of_mem_replicate climb]
    exact .parent
  · exact isStep_of_mem_names allNames name

theorem IsNormal.readable
    {components : List Component} (normal : IsNormal components) :
    Readable components := by
  cases normal with
  | absolute allNames =>
      exact .absolute fun step member => isStep_of_mem_names allNames member
  | relative height allNames =>
      exact .relative fun step member => isStep_of_mem_climbs allNames member

theorem isNormal_nil : IsNormal [] :=
  @IsNormal.relative 0 [] (by simp)

theorem IsNormal.take
    {components : List Component}
    (normal : IsNormal components) (count : Nat) :
    IsNormal (components.take count) := by
  cases normal with
  | @absolute names allNames =>
      cases count with
      | zero => exact isNormal_nil
      | succ rest =>
          rw [List.take_succ_cons, ← List.map_take]
          exact .absolute fun name member =>
            allNames name (List.mem_of_mem_take member)
  | @relative height names allNames =>
      rw [List.take_append, List.take_replicate, ← List.map_take]
      exact .relative _ fun name member =>
        allNames name (List.mem_of_mem_take member)

theorem IsNormal.of_append
    {front back : List Component}
    (normal : IsNormal (front ++ back)) :
    IsNormal front := by
  have taken := normal.take front.length
  rwa [List.take_left] at taken

/-! ## One more component -/

@[simp]
theorem climb_current (done : List Component) :
    climb done .current = done := rfl

@[simp]
theorem climb_name (done : List Component) (name : String) :
    climb done (.name name) = done ++ [.name name] := rfl

@[simp]
theorem climb_root (done : List Component) :
    climb done .root = done ++ [.root] := rfl

@[simp]
theorem climb_parent_of_name (done : List Component) (name : String) :
    climb (done ++ [.name name]) .parent = done := by
  simp [climb]

/-- Two dots drop a name in the end, stay at the root, or climb on. -/
theorem climb_parent_cases (done : List Component) :
    (∃ name, done = climb done .parent ++ [.name name]) ∨
      climb done .parent = done ∨ climb done .parent = done ++ [.parent] := by
  rcases List.eq_nil_or_concat' done with rfl | ⟨shorter, last, rfl⟩
  · exact Or.inr (Or.inr rfl)
  · cases last with
    | name text => exact Or.inl ⟨text, by rw [climb_parent_of_name]⟩
    | root => exact Or.inr (Or.inl (by simp [climb]))
    | current => exact Or.inr (Or.inr (by simp [climb]))
    | parent => exact Or.inr (Or.inr (by simp [climb]))

@[simp]
theorem climb_parent_replicate (height : Nat) :
    climb (List.replicate height .parent) .parent =
      List.replicate (height + 1) .parent := by
  cases height with
  | zero => rfl
  | succ smaller => simp [climb, List.replicate_succ']

/-- A step leaves a normal list normal: names pile up, two dots take one back or climb on. -/
theorem isNormal_climb
    {done : List Component} {step : Component}
    (normal : IsNormal done) (isStep : step.IsStep) :
    IsNormal (climb done step) := by
  cases isStep with
  | @name text isName =>
      rw [climb_name]
      have extended {names : List String} (allNames : ∀ name ∈ names, IsName name) :
          ∀ name ∈ names ++ [text], IsName name := by
        intro name member
        rcases List.mem_append.mp member with old | new
        · exact allNames name old
        · rwa [List.mem_singleton.mp new]
      cases normal with
      | absolute allNames =>
          have grown := IsNormal.absolute (extended allNames)
          rwa [List.map_append] at grown
      | relative height allNames =>
          have grown := IsNormal.relative height (extended allNames)
          rwa [List.map_append, ← List.append_assoc] at grown
  | parent =>
      cases normal with
      | @absolute names allNames =>
          rcases List.eq_nil_or_concat' names with rfl | ⟨shorter, last, rfl⟩
          · exact .absolute allNames
          · rw [List.map_append, ← List.cons_append]
            rw [List.map_cons, List.map_nil, climb_parent_of_name]
            exact .absolute fun name member =>
              allNames name (List.mem_append_left [last] member)
      | @relative height names allNames =>
          rcases List.eq_nil_or_concat' names with rfl | ⟨shorter, last, rfl⟩
          · rw [List.map_nil, List.append_nil, climb_parent_replicate]
            have climbed := IsNormal.relative (height + 1) allNames
            rwa [List.map_nil, List.append_nil] at climbed
          · rw [List.map_append, ← List.append_assoc]
            rw [List.map_cons, List.map_nil, climb_parent_of_name]
            exact .relative height fun name member =>
              allNames name (List.mem_append_left [last] member)

/-- A step is put at the end, drops out, or takes the last component out with it. -/
theorem climb_sublist (done : List Component) (step : Component) :
    (climb done step).Sublist (done ++ [step]) := by
  cases step with
  | root => exact List.Sublist.refl _
  | current => exact List.sublist_append_left done [.current]
  | name text => exact List.Sublist.refl _
  | parent =>
      have withoutDots := List.sublist_append_left done [Component.parent]
      rcases climb_parent_cases done with ⟨name, dropped⟩ | stayed | climbed
      · have shorter := List.sublist_append_left (climb done .parent) [.name name]
        rw [← dropped] at shorter
        exact shorter.trans withoutDots
      · rwa [stayed]
      · rw [climbed]

theorem foldl_climb_sublist (done steps : List Component) :
    (steps.foldl climb done).Sublist (done ++ steps) := by
  induction steps generalizing done with
  | nil => rw [List.foldl_nil, List.append_nil]
  | cons step others inductionHypothesis =>
      have onward := inductionHypothesis (climb done step)
      have first := (climb_sublist done step).append_right others
      rw [List.append_assoc] at first
      exact onward.trans first

theorem mem_of_mem_foldl_climb
    {steps done : List Component} {component : Component}
    (member : component ∈ steps.foldl climb done) :
    component ∈ done ∨ component ∈ steps :=
  List.mem_append.mp ((foldl_climb_sublist done steps).mem member)

/-- Two dots take back names only, so a front without names stays. -/
theorem exists_climb_eq_append
    {front : List Component}
    (nameless : ∀ name, Component.name name ∉ front)
    (back : List Component) (step : Component) :
    ∃ newBack, climb (front ++ back) step = front ++ newBack := by
  cases step with
  | root => exact ⟨back ++ [.root], List.append_assoc ..⟩
  | current => exact ⟨back, rfl⟩
  | name text => exact ⟨back ++ [.name text], List.append_assoc ..⟩
  | parent =>
      rcases climb_parent_cases (front ++ back) with ⟨name, dropped⟩ | stayed | climbed
      · rcases List.eq_nil_or_concat' back with rfl | ⟨shorter, last, rfl⟩
        · rw [List.append_nil] at dropped
          refine absurd ?_ (nameless name)
          rw [dropped]
          simp
        · refine ⟨shorter, ?_⟩
          rw [← List.append_assoc] at dropped ⊢
          exact (List.append_inj' dropped rfl).1.symm
      · exact ⟨back, stayed⟩
      · exact ⟨back ++ [.parent], by rw [climbed, List.append_assoc]⟩

theorem exists_foldl_climb_eq_append
    {front : List Component}
    (nameless : ∀ name, Component.name name ∉ front)
    (back steps : List Component) :
    ∃ newBack, steps.foldl climb (front ++ back) = front ++ newBack := by
  induction steps generalizing back with
  | nil => exact ⟨back, rfl⟩
  | cons step others inductionHypothesis =>
      obtain ⟨nextBack, climbed⟩ := exists_climb_eq_append nameless back step
      rw [List.foldl_cons, climbed]
      exact inductionHypothesis nextBack

theorem isNormal_foldl_climb
    {steps done : List Component}
    (normal : IsNormal done)
    (allSteps : ∀ step ∈ steps, step.IsStep) :
    IsNormal (steps.foldl climb done) := by
  induction steps generalizing done with
  | nil => exact normal
  | cons step others inductionHypothesis =>
      rw [List.foldl_cons]
      apply inductionHypothesis
      · exact isNormal_climb normal (allSteps step List.mem_cons_self)
      · exact fun later member => allSteps later (List.mem_cons_of_mem step member)

/-! ## Normal forms of paths -/

theorem foldl_climb_opening (path : Path) :
    path.opening.foldl climb [] = if path.isAbsolute then [.root] else [] := by
  unfold opening
  split
  · rfl
  · split <;> rfl

theorem normalComponents_components (path : Path) :
    normalComponents path.components =
      path.steps.foldl climb (if path.isAbsolute then [.root] else []) := by
  rw [normalComponents, components_eq_opening_append, List.foldl_append,
    foldl_climb_opening]

theorem isNormal_normalComponents (path : Path) :
    IsNormal (normalComponents path.components) := by
  rw [normalComponents_components]
  apply isNormal_foldl_climb
  · split
    · exact @IsNormal.absolute [] (by simp)
    · exact isNormal_nil
  · exact fun step member => isStep_of_mem_steps member

@[simp]
theorem components_normalize (path : Path) :
    path.normalize.components = normalComponents path.components :=
  components_ofComponents (isNormal_normalComponents path).readable

theorem foldl_climb_names (done : List Component) (names : List String) :
    (names.map Component.name).foldl climb done =
      done ++ names.map .name := by
  induction names generalizing done with
  | nil => simp
  | cons first others inductionHypothesis =>
      rw [List.map_cons, List.foldl_cons, climb_name, inductionHypothesis,
        List.append_assoc]
      rfl

theorem foldl_climb_parents (height more : Nat) :
    (List.replicate more Component.parent).foldl climb
        (List.replicate height .parent) =
      List.replicate (height + more) .parent := by
  induction more generalizing height with
  | zero => rfl
  | succ fewer inductionHypothesis =>
      rw [List.replicate_succ, List.foldl_cons, climb_parent_replicate,
        inductionHypothesis]
      congr 1
      omega

theorem IsNormal.normalComponents_eq
    {components : List Component} (normal : IsNormal components) :
    normalComponents components = components := by
  cases normal with
  | @absolute names allNames =>
      rw [normalComponents, List.foldl_cons, climb_root, foldl_climb_names]
      rfl
  | @relative height names allNames =>
      have climbs := foldl_climb_parents 0 height
      rw [List.replicate_zero, Nat.zero_add] at climbs
      rw [normalComponents, List.foldl_append, climbs, foldl_climb_names]

theorem IsNormal.foldl_climb_eq
    {front back : List Component} (normal : IsNormal (front ++ back)) :
    back.foldl climb front = front ++ back := by
  have whole := normal.normalComponents_eq
  have start := normal.of_append.normalComponents_eq
  rw [normalComponents] at whole start
  rwa [List.foldl_append, start] at whole

theorem normalize_eq_normalize_iff (left right : Path) :
    left.normalize = right.normalize ↔
      normalComponents left.components = normalComponents right.components := by
  constructor
  · intro equal
    rw [← components_normalize, equal, components_normalize]
  · intro equal
    rw [normalize, equal, normalize]

theorem normalize_normalize (path : Path) :
    path.normalize.normalize = path.normalize := by
  rw [normalize_eq_normalize_iff, components_normalize]
  exact (isNormal_normalComponents path).normalComponents_eq

theorem head?_normalComponents_eq_root_iff (path : Path) :
    (normalComponents path.components).head? = some .root ↔
      path.isAbsolute = true := by
  rw [normalComponents_components]
  by_cases absolute : path.isAbsolute = true
  · have nameless : ∀ name, Component.name name ∉ [Component.root] := by
      simp
    obtain ⟨back, climbed⟩ :=
      exists_foldl_climb_eq_append nameless [] path.steps
    rw [List.append_nil] at climbed
    simp [absolute, climbed]
  · simp only [absolute]
    refine ⟨fun rootFirst => ?_, fun impossible => absurd impossible (by simp)⟩
    rcases mem_of_mem_foldl_climb (List.mem_of_mem_head? rootFirst) with old | step
    · simp at old
    · have rootStep := isStep_of_mem_steps step
      cases rootStep

theorem text_normalize (path : Path) :
    path.normalize.text =
      (if path.isAbsolute then "/" else "") ++
        Text.joinWith '/' (path.normalize.steps.map Component.text) := by
  have readable := (isNormal_normalComponents path).readable
  have rooted := head?_normalComponents_eq_root_iff path
  rw [← filter_components, components_normalize, normalize]
  generalize normalComponents path.components = components at readable rooted ⊢
  cases readable with
  | absolute allSteps =>
      rw [if_pos (rooted.mp rfl), List.filter_cons_of_neg (by decide), filter_of_steps allSteps]
      rfl
  | relative allSteps =>
      have relative : ¬ path.isAbsolute = true := by
        intro absolute
        have rootStep := allSteps _ (List.mem_of_mem_head? (rooted.mpr absolute))
        cases rootStep
      rw [if_neg relative, filter_of_steps allSteps, ofComponents_of_steps allSteps,
        String.empty_append]

theorem exists_steps_normalize (path : Path) :
    ∃ (height : Nat) (names : List String),
      (∀ name ∈ names, IsName name) ∧
        path.normalize.steps =
          List.replicate height Component.parent ++ names.map Component.name := by
  have normal := isNormal_normalComponents path
  rw [← filter_components, components_normalize]
  generalize normalComponents path.components = components at normal ⊢
  cases normal with
  | @absolute names allNames =>
      refine ⟨0, names, allNames, ?_⟩
      rw [List.filter_cons_of_neg (by decide)]
      exact filter_of_steps fun step member => isStep_of_mem_names allNames member
  | @relative height names allNames =>
      exact ⟨height, names, allNames,
        filter_of_steps fun step member => isStep_of_mem_climbs allNames member⟩

/-- The steps of a normal form are steps of the path, in their order. -/
theorem steps_normalize_sublist (path : Path) :
    path.normalize.steps.Sublist path.steps := by
  have kept := foldl_climb_sublist [] path.components
  rw [List.nil_append] at kept
  have keptSteps := kept.filter fun step => step != .root && step != .current
  rw [filter_components] at keptSteps
  rwa [← filter_components, components_normalize]

/-- A path is not made longer by being normalized. -/
theorem size_normalize_le (path : Path) :
    path.normalize.text.utf8ByteSize ≤ path.text.utf8ByteSize := by
  have kept := steps_normalize_sublist path
  by_cases absolute : path.isAbsolute = true
  · rw [steps_eq_filterMap_tail absolute] at kept
    rw [text_normalize, if_pos absolute, text_eq_slash_append absolute,
      String.utf8ByteSize_append, String.utf8ByteSize_append]
    exact Nat.add_le_add_left (size_joinWith_le_of_sublist_filterMap kept) _
  · have sizes := size_joinWith_le_of_sublist_filterMap kept
    rw [pieces, Text.joinWith_splitAt] at sizes
    rwa [text_normalize, if_neg absolute, String.empty_append]

theorem normalComponents_join
    {path next : Path}
    (relative : next.isAbsolute = false) :
    normalComponents (path.join next).components =
      next.steps.foldl climb (normalComponents path.components) := by
  by_cases empty : path.text = ""
  · have blank : path = ⟨""⟩ := congrArg Path.mk empty
    rw [join_of_text_eq_empty empty, normalComponents_components, blank]
    simp [relative]
    rfl
  · have sameOpening := opening_join relative empty
    rw [normalComponents, components_eq_opening_append, sameOpening,
      steps_join relative, ← List.append_assoc, List.foldl_append,
      ← components_eq_opening_append]
    rfl

@[simp]
theorem isAbsolute_normalize (path : Path) :
    path.normalize.isAbsolute = path.isAbsolute := by
  rw [Bool.eq_iff_iff, ← head?_components_eq_root_iff, components_normalize,
    head?_normalComponents_eq_root_iff]

/-- What lies below a path has a normal form that its components tell. -/
theorem normalize_join_eq
    {left right : Path}
    (same : left.components = right.components)
    (leftNonempty : left.text ≠ "") (rightNonempty : right.text ≠ "") (next : Path) :
    (left.join next).normalize = (right.join next).normalize := by
  rw [normalize, normalize, components_join_eq same leftNonempty rightNonempty]

end MplServer.Path
