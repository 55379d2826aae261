import MplServer.Path.Lexical
import MplServer.Proofs.Path.NormalForm

/-!
# Ways between paths

The way from a base to a target leads from the base to where the target is, so it tells targets
at different places apart.
-/

namespace MplServer.Path

/-! ## The way along components -/

theorem wayBetween_append (front target base : List Component) :
    wayBetween (front ++ target) (front ++ base) = wayBetween target base := by
  induction front with
  | nil => rfl
  | cons first others inductionHypothesis =>
      rw [List.cons_append, List.cons_append, wayBetween, if_pos rfl,
        inductionHypothesis]

/-- Names are left one by one, back to where the target parts from them. -/
theorem exists_wayBetween_names (target : List Component) (names : List String) :
    ∃ shared left rest,
      names = shared ++ left ∧
        target = shared.map .name ++ rest ∧
          (∀ name, left.head? = some name → rest.head? ≠ some (.name name)) ∧
            wayBetween target (names.map .name) =
              some (List.replicate left.length .parent ++ rest) := by
  induction names generalizing target with
  | nil =>
      refine ⟨[], [], target, rfl, rfl, by simp, ?_⟩
      cases target <;> rfl
  | cons name others inductionHypothesis =>
      cases target with
      | nil =>
          refine ⟨[], name :: others, [], rfl, rfl, by simp, ?_⟩
          simp [wayBetween, wayAround]
      | cons step behind =>
          by_cases same : step = .name name
          · obtain ⟨shared, left, rest, names_eq, target_eq, apart, way_eq⟩ :=
              inductionHypothesis behind
            refine ⟨name :: shared, left, rest, ?_, ?_, apart, ?_⟩
            · rw [names_eq, List.cons_append]
            · rw [same, target_eq, List.map_cons, List.cons_append]
            · rw [List.map_cons, wayBetween, if_pos same, way_eq]
          · refine ⟨[], name :: others, step :: behind, rfl, rfl, by simpa using same, ?_⟩
            rw [List.map_cons, wayBetween, if_neg same]
            simp [wayAround]

theorem foldl_climb_left (done : List Component) (left : List String) :
    (List.replicate left.length Component.parent).foldl climb
        (done ++ left.map .name) =
      done := by
  induction left using List.reverseRecOn with
  | nil => simp
  | append_singleton others last inductionHypothesis =>
      rw [List.length_append, List.length_singleton, List.replicate_succ,
        List.foldl_cons, List.map_append, ← List.append_assoc, List.map_cons,
        List.map_nil, climb_parent_of_name, inductionHypothesis]

/-! ## The way between paths -/

/-- A base and a target that both begin with a slash, or both do not, share all that comes before
the base's names. -/
theorem exists_shared_front
    {base target : Path}
    (sameStart : (base.join target).isAbsolute = base.isAbsolute) :
    ∃ (front : List Component) (names : List String) (rest : List Component),
      normalComponents base.components = front ++ names.map .name ∧
        normalComponents (base.join target).components = front ++ rest ∧
          ∀ step ∈ rest, step.IsStep := by
  have rootInGoal :
      (normalComponents (base.join target).components).head? = some .root ↔
        (normalComponents base.components).head? = some .root := by
    rw [head?_normalComponents_eq_root_iff, head?_normalComponents_eq_root_iff,
      sameStart]
  have goalNormal := isNormal_normalComponents (base.join target)
  have baseNormal := isNormal_normalComponents base
  generalize start_eq : normalComponents base.components = start at *
  cases baseNormal with
  | @absolute names allNames =>
      refine ⟨[.root], names, ?_⟩
      generalize normalComponents (base.join target).components = goal at *
      cases goalNormal with
      | @absolute goalNames goalAllNames =>
          exact ⟨goalNames.map .name, rfl, rfl,
            fun step member => isStep_of_mem_names goalAllNames member⟩
      | relative height goalAllNames =>
          have rootFirst := rootInGoal.mpr rfl
          have rootMember := List.mem_of_mem_head? rootFirst
          simp [List.mem_replicate] at rootMember
  | @relative height names allNames =>
      have noRoot :
          Component.root ∉ List.replicate height .parent ++ names.map .name := by
        simp [List.mem_replicate]
      have relative : target.isAbsolute = false := by
        rw [Bool.eq_false_iff]
        intro absolute
        rw [join_of_isAbsolute absolute, absolute] at sameStart
        have rootFirst := (head?_normalComponents_eq_root_iff base).mpr sameStart.symm
        rw [start_eq] at rootFirst
        exact noRoot (List.mem_of_mem_head? rootFirst)
      have nameless :
          ∀ name, Component.name name ∉ List.replicate height Component.parent := by
        simp [List.mem_replicate]
      obtain ⟨rest, goal_eq⟩ :=
        exists_foldl_climb_eq_append nameless (names.map .name) target.steps
      rw [← start_eq, ← normalComponents_join relative] at goal_eq
      refine ⟨List.replicate height .parent, names, rest, rfl, goal_eq, ?_⟩
      intro step member
      have inGoal := List.mem_append_right (List.replicate height .parent) member
      rw [← goal_eq] at inGoal
      generalize normalComponents (base.join target).components = goal at *
      cases goalNormal with
      | absolute goalAllNames =>
          exact absurd (List.mem_of_mem_head? (rootInGoal.mp rfl)) noRoot
      | relative goalHeight goalAllNames =>
          rcases List.mem_append.mp inGoal with climbed | name
          · rw [List.eq_of_mem_replicate climbed]
            exact .parent
          · exact isStep_of_mem_names goalAllNames name

/-- The steps of a way that is written as a path, or as a dot when it is empty. -/
theorem steps_written_way
    {way : List Component}
    (allSteps : ∀ step ∈ way, step.IsStep) :
    let text := if (ofComponents way).text.isEmpty then "." else (ofComponents way).text
    isAbsolute ⟨text⟩ = false ∧ steps ⟨text⟩ = way := by
  have form := ofComponents_of_steps allSteps
  by_cases empty : (ofComponents way).text.isEmpty = true
  · have blank : ofComponents way = ⟨""⟩ :=
      congrArg Path.mk (String.isEmpty_iff.mp empty)
    have noWay : way = [] := by
      rw [← steps_joinWith allSteps, ← form, blank, steps_empty]
    rw [if_pos empty, noWay]
    exact ⟨rfl, steps_dot⟩
  · rw [if_neg empty]
    constructor
    · have noOpening := opening_joinWith allSteps
      rw [← form] at noOpening
      rw [Bool.eq_false_iff]
      intro absolute
      rw [opening, if_pos absolute] at noOpening
      cases noOpening
    · have written := steps_joinWith allSteps
      rwa [← form] at written

/-- Where a base and a target part: what both begin with, the names that are left of the base, and
what is left of the target. There is no more that both begin with. -/
structure Parting (base target shared : List Component) (left : List String)
    (rest : List Component) : Prop where
  base_eq : base = shared ++ left.map .name
  target_eq : target = shared ++ rest
  apart : ∀ name, left.head? = some name → rest.head? ≠ some (.name name)

/-- The way leads up from what is left of the base, and then down what is left of the target. -/
theorem exists_parting
    {base target : Path}
    (sameStart : (base.join target).isAbsolute = base.isAbsolute) :
    ∃ shared left rest,
      Parting (normalComponents base.components)
          (normalComponents (base.join target).components) shared left rest ∧
        (∀ step ∈ List.replicate left.length .parent ++ rest, step.IsStep) ∧
          difference? (base.join target).normalize base.normalize =
            some (ofComponents (List.replicate left.length .parent ++ rest)) := by
  obtain ⟨front, names, behind, base_eq, goal_eq, allSteps⟩ :=
    exists_shared_front sameStart
  obtain ⟨shared, left, rest, rfl, rfl, apart, way_eq⟩ :=
    exists_wayBetween_names behind names
  refine ⟨front ++ shared.map .name, left, rest, ⟨?_, ?_, apart⟩, ?_, ?_⟩
  · rw [base_eq, List.map_append, List.append_assoc]
  · rw [goal_eq, List.append_assoc]
  · intro step member
    rcases List.mem_append.mp member with climbed | inRest
    · rw [List.eq_of_mem_replicate climbed]
      exact .parent
    · exact allSteps step (List.mem_append_right _ inRest)
  · unfold difference?
    simp only [isAbsolute_normalize, sameStart, beq_self_eq_true, if_true,
      components_normalize, base_eq, goal_eq, wayBetween_append, way_eq, Option.map_some]

/-- Only an absolute target starts otherwise than its base, and it is written as it is. -/
theorem difference?_of_otherStart
    {base target : Path}
    (otherStart : (base.join target).isAbsolute ≠ base.isAbsolute) :
    (base.join target).isAbsolute = true ∧ base.join target = target ∧
      difference? (base.join target).normalize base.normalize =
        some (base.join target).normalize := by
  have absolute : target.isAbsolute = true := by
    by_contra relative
    exact otherStart (isAbsolute_join (Bool.eq_false_iff.mpr relative))
  have goal_eq : base.join target = target := join_of_isAbsolute absolute
  rw [goal_eq] at otherStart ⊢
  refine ⟨absolute, rfl, ?_⟩
  have baseRelative : base.isAbsolute = false := by
    rw [absolute] at otherStart
    exact Bool.eq_false_iff.mpr (Ne.symm otherStart)
  unfold difference?
  simp [absolute, baseRelative]

theorem relativeTo_of_difference?
    {base way : Path} {target : String}
    (way_eq : difference? (base.join ⟨target⟩).normalize base.normalize = some way) :
    base.relativeTo target = if way.text.isEmpty then "." else way.text := by
  unfold relativeTo
  dsimp only
  rw [way_eq]

/-- Following the way from a base to a target leads to the target. -/
theorem normalize_join_relativeTo (base : Path) (target : String) :
    (base.join ⟨base.relativeTo target⟩).normalize =
      (base.join ⟨target⟩).normalize := by
  by_cases sameStart : (base.join ⟨target⟩).isAbsolute = base.isAbsolute
  · obtain ⟨shared, left, rest, parting, waySteps, way_eq⟩ := exists_parting sameStart
    obtain ⟨relative, steps_eq⟩ := steps_written_way waySteps
    rw [relativeTo_of_difference? way_eq, normalize_eq_normalize_iff,
      normalComponents_join relative, steps_eq, parting.base_eq, List.foldl_append,
      foldl_climb_left, parting.target_eq]
    apply IsNormal.foldl_climb_eq
    rw [← parting.target_eq]
    exact isNormal_normalComponents (base.join ⟨target⟩)
  · obtain ⟨absolute, goal_eq, way_eq⟩ := difference?_of_otherStart sameStart
    have goalAbsolute : (base.join ⟨target⟩).normalize.isAbsolute = true := by
      rw [isAbsolute_normalize, absolute]
    have goalNonempty : (base.join ⟨target⟩).normalize.text.isEmpty = false := by
      rw [Bool.eq_false_iff]
      intro empty
      rw [isAbsolute, String.isEmpty_iff.mp empty] at goalAbsolute
      cases goalAbsolute
    rw [relativeTo_of_difference? way_eq, if_neg (by simp [goalNonempty]),
      join_of_isAbsolute goalAbsolute]
    exact normalize_normalize (base.join ⟨target⟩)

/-- Targets have the same way from a base just when they are at the same place. -/
theorem relativeTo_eq_relativeTo_iff (base : Path) (left right : String) :
    base.relativeTo left = base.relativeTo right ↔
      (base.join ⟨left⟩).normalize = (base.join ⟨right⟩).normalize := by
  constructor
  · intro sameWay
    rw [← normalize_join_relativeTo base left, sameWay, normalize_join_relativeTo]
  · intro samePlace
    unfold relativeTo
    rw [samePlace]

/-! ## How ways are written -/

/-- There is always a way. -/
theorem difference?_isSome (base target : Path) :
    (difference? (base.join target).normalize base.normalize).isSome := by
  by_cases sameStart : (base.join target).isAbsolute = base.isAbsolute
  · obtain ⟨shared, left, rest, _, _, way_eq⟩ := exists_parting sameStart
    rw [way_eq]
    rfl
  · obtain ⟨_, _, way_eq⟩ := difference?_of_otherStart sameStart
    rw [way_eq]
    rfl

theorem relativeTo_ne_empty (base : Path) (target : String) :
    base.relativeTo target ≠ "" := by
  obtain ⟨way, way_eq⟩ :=
    Option.isSome_iff_exists.mp (difference?_isSome base ⟨target⟩)
  rw [relativeTo_of_difference? way_eq]
  split
  · decide
  · next nonempty => simpa using nonempty

/-- What two lists of components begin with together, as far as they do. -/
structure IsLongestShared (shared left right : List Component) : Prop where
  ofLeft : shared <+: left
  ofRight : shared <+: right
  longest : ∀ other, other <+: left → other <+: right → other <+: shared

theorem Parting.isLongestShared
    {base target shared rest : List Component} {left : List String}
    (parting : Parting base target shared left rest) :
    IsLongestShared shared base target := by
  obtain ⟨rfl, rfl, apart⟩ := parting
  refine ⟨List.prefix_append .., List.prefix_append .., ?_⟩
  intro other ofBase ofTarget
  rcases List.prefix_or_prefix_of_prefix ofBase (List.prefix_append shared _) with
    within | ⟨more, rfl⟩
  · exact within
  · rw [List.prefix_append_right_inj] at ofBase ofTarget
    cases more with
    | nil => rw [List.append_nil]
    | cons step others =>
        obtain ⟨behindRest, rfl⟩ := ofTarget
        obtain ⟨behindLeft, left_eq⟩ := ofBase
        cases left with
        | nil => cases left_eq
        | cons name more =>
            obtain ⟨rfl, _⟩ := List.cons.inj left_eq
            exact absurd rfl (apart name rfl)

/-- A way that climbs and then goes down along names; the way to where one is, is a dot. -/
def wayText (climbs : Nat) (names : List String) : String :=
  if climbs = 0 ∧ names = [] then "."
  else Text.joinWith '/' (List.replicate climbs ".." ++ names)

theorem joinWith_text_eq_empty_iff
    {way : List Component} (allSteps : ∀ step ∈ way, step.IsStep) :
    Text.joinWith '/' (way.map Component.text) = "" ↔ way = [] := by
  constructor
  · intro empty
    rw [← steps_joinWith allSteps, empty, steps_empty]
  · rintro rfl
    rfl

theorem written_way_eq
    {climbs : Nat} {names : List String}
    (waySteps :
      ∀ step ∈ List.replicate climbs Component.parent ++ names.map .name, step.IsStep) :
    (let way := ofComponents (List.replicate climbs .parent ++ names.map .name)
      if way.text.isEmpty then "." else way.text) = wayText climbs names := by
  have texts :
      (List.replicate climbs Component.parent ++ names.map Component.name).map
          Component.text =
        List.replicate climbs ".." ++ names := by
    simp [Component.text, Function.comp_def]
  have empty_iff := joinWith_text_eq_empty_iff waySteps
  rw [texts] at empty_iff
  rw [ofComponents_of_steps waySteps, texts]
  unfold wayText
  simp [String.isEmpty_iff, empty_iff]

/-- Behind the slash of an absolute path there are only names in normal form. -/
theorem IsNormal.exists_names_of_root
    {shared rest : List Component}
    (normal : IsNormal (shared ++ rest)) (rootFirst : shared.head? = some .root) :
    ∃ names : List String, rest = names.map .name ∧ ∀ name ∈ names, IsName name := by
  obtain ⟨more, rfl⟩ := List.head?_eq_some_iff.mp rootFirst
  generalize whole_eq : Component.root :: more ++ rest = whole at normal
  cases normal with
  | @absolute names allNames =>
      obtain ⟨_, names_eq⟩ := List.cons.inj whole_eq
      obtain ⟨front, behind, rfl, _, rest_eq⟩ := List.map_eq_append_iff.mp names_eq.symm
      exact ⟨behind, rest_eq.symm,
        fun name member => allNames name (List.mem_append_right _ member)⟩
  | @relative height names allNames =>
      have inWhole : Component.root ∈ List.replicate height .parent ++ names.map .name := by
        rw [← whole_eq]
        simp
      simp [List.mem_replicate] at inWhole

/-- Ways keep the places they lead to apart, and they are never nothing. From an absolute base a way
climbs out of all that the base does not share with the target, and goes down along names. -/
theorem relativeTo_is_canonical (base : Path) :
    (∀ target, (base.join ⟨base.relativeTo target⟩).normalize =
      (base.join ⟨target⟩).normalize) ∧
    (∀ left right, base.relativeTo left = base.relativeTo right ↔
      (base.join ⟨left⟩).normalize = (base.join ⟨right⟩).normalize) ∧
    (∀ target, base.relativeTo target ≠ "" ∧
      (difference? (base.join ⟨target⟩).normalize base.normalize).isSome) ∧
    (base.isAbsolute = true → ∀ target, ∃ shared names,
      IsLongestShared shared base.normalize.components
          (base.join ⟨target⟩).normalize.components ∧
        (base.join ⟨target⟩).normalize.components = shared ++ names.map .name ∧
        (∀ name ∈ names, IsName name) ∧
        base.relativeTo target =
          wayText (base.normalize.components.length - shared.length) names) := by
  refine ⟨normalize_join_relativeTo base, relativeTo_eq_relativeTo_iff base, ?_, ?_⟩
  · exact fun target => ⟨relativeTo_ne_empty base target, difference?_isSome base ⟨target⟩⟩
  · intro absolute target
    have goalAbsolute := isAbsolute_join_of_isAbsolute absolute ⟨target⟩
    obtain ⟨shared, left, rest, parting, waySteps, way_eq⟩ :=
      exists_parting (goalAbsolute.trans absolute.symm)
    have rootFirst : shared.head? = some .root := by
      have baseRoot := (head?_normalComponents_eq_root_iff base).mpr absolute
      rw [parting.base_eq, List.head?_append] at baseRoot
      cases first : shared.head? with
      | none =>
        rw [first] at baseRoot
        cases left <;> cases baseRoot
      | some step =>
        rw [first] at baseRoot
        exact baseRoot
    have goalNormal := isNormal_normalComponents (base.join ⟨target⟩)
    rw [parting.target_eq] at goalNormal
    obtain ⟨names, rfl, allNames⟩ := goalNormal.exists_names_of_root rootFirst
    have climbs : left.length = base.normalize.components.length - shared.length := by
      rw [components_normalize, parting.base_eq, List.length_append, List.length_map]
      omega
    refine ⟨shared, names, ?_, ?_, allNames, ?_⟩
    · rw [components_normalize, components_normalize]
      exact parting.isLongestShared
    · rw [components_normalize, parting.target_eq]
    · rw [relativeTo_of_difference? way_eq, ← climbs]
      exact written_way_eq waySteps

/-- From a base with a detour, the way to a target that climbs past the base. -/
theorem app_relativeTo_is_canonical :
    let base : Path := ⟨"/proj//lib/../app/."⟩
    base.isAbsolute = true ∧ base.relativeTo ".././/lib/x/" = "../lib/x" ∧
      ∃ shared names,
        IsLongestShared shared base.normalize.components
            (base.join ⟨".././/lib/x/"⟩).normalize.components ∧
          (base.join ⟨".././/lib/x/"⟩).normalize.components = shared ++ names.map .name ∧
          (∀ name ∈ names, IsName name) ∧
          base.relativeTo ".././/lib/x/" =
            wayText (base.normalize.components.length - shared.length) names := by
  intro base
  have absolute : base.isAbsolute = true := by
    decide
  have way : base.relativeTo ".././/lib/x/" = "../lib/x" := by
    decide +kernel
  have canonical := (relativeTo_is_canonical base).2.2.2 absolute ".././/lib/x/"
  exact ⟨absolute, way, canonical⟩

end MplServer.Path
