import MplServer.Path.Basic
import MplServer.Proofs.Text.Pieces

/-!
# Components of a path

The components of a path are an opening, which only its first characters decide, and the steps
behind it. Joining adds steps, and a list of components is read back from the path it is written
as.
-/

namespace MplServer.Path

/-! ## Names and steps -/

/-- What a text must be to name an entry of a directory in a path. -/
structure IsName (text : String) : Prop where
  nonempty : text ≠ ""
  notDot : text ≠ "."
  notDots : text ≠ ".."
  unbroken : '/' ∉ text.toList

/-- A component that may stand anywhere in a path. -/
inductive Component.IsStep : Component → Prop where
  | parent : IsStep .parent
  | name {text : String} (isName : IsName text) : IsStep (.name text)

/-- What the start of a path says before any of its steps. -/
def opening (path : Path) : List Component :=
  if path.isAbsolute then [.root]
  else if path.pieces.head? = some "." then [.current]
  else []

/-- The components of a path behind its opening. -/
def steps (path : Path) : List Component :=
  path.pieces.filterMap Component.ofPiece?

theorem components_eq_opening_append (path : Path) :
    path.components = path.opening ++ path.steps := by
  unfold components opening steps
  split
  · rfl
  · split <;> rfl

@[simp]
theorem steps_empty : steps ⟨""⟩ = [] := by
  simp [steps, pieces, Component.ofPiece?]

@[simp]
theorem steps_dot : steps ⟨"."⟩ = [] := by
  decide

theorem Component.isStep_of_ofPiece?
    {piece : String} {step : Component}
    (unbroken : '/' ∉ piece.toList)
    (read : Component.ofPiece? piece = some step) :
    step.IsStep := by
  unfold Component.ofPiece? at read
  split at read
  · cases read
  · next meaning =>
    rw [not_or] at meaning
    split at read
    · cases read
      exact .parent
    · next notDots =>
      cases read
      exact .name ⟨meaning.1, meaning.2, notDots, unbroken⟩

theorem Component.ofPiece?_text
    {step : Component} (isStep : step.IsStep) :
    Component.ofPiece? step.text = some step := by
  cases isStep with
  | parent => decide
  | name isName =>
      simp [Component.ofPiece?, Component.text, isName.nonempty,
        isName.notDot, isName.notDots]

theorem map_text_filterMap_ofPiece? (parts : List String) :
    (parts.filterMap Component.ofPiece?).map Component.text =
      (parts.filter (· ≠ "")).filter (· ≠ ".") := by
  induction parts with
  | nil => rfl
  | cons first others inductionHypothesis =>
      by_cases empty : first = ""
      · simpa [empty, Component.ofPiece?] using inductionHypothesis
      by_cases dot : first = "."
      · simpa [dot, Component.ofPiece?] using inductionHypothesis
      by_cases dots : first = ".."
      · subst dots
        simpa [Component.ofPiece?, Component.text] using inductionHypothesis
      · simpa [empty, dot, dots, Component.ofPiece?, Component.text] using
          inductionHypothesis

theorem Component.IsStep.unbroken
    {step : Component} (isStep : step.IsStep) :
    '/' ∉ step.text.toList := by
  cases isStep with
  | parent => decide
  | name isName => exact isName.unbroken

theorem Component.IsStep.text_ne_empty
    {step : Component} (isStep : step.IsStep) :
    step.text ≠ "" := by
  cases isStep with
  | parent => decide
  | name isName => exact isName.nonempty

theorem Component.IsStep.text_ne_dot
    {step : Component} (isStep : step.IsStep) :
    step.text ≠ "." := by
  cases isStep with
  | parent => decide
  | name isName => exact isName.notDot

theorem isStep_of_mem_steps
    {path : Path} {step : Component}
    (member : step ∈ path.steps) :
    step.IsStep := by
  obtain ⟨piece, inPieces, read⟩ := List.mem_filterMap.mp member
  exact Component.isStep_of_ofPiece?
    (Text.not_mem_of_mem_splitAt inPieces) read

theorem filter_of_steps
    {components : List Component} (allSteps : ∀ step ∈ components, step.IsStep) :
    (components.filter fun step => step != .root && step != .current) = components := by
  rw [List.filter_eq_self]
  intro step member
  cases allSteps step member <;> rfl

theorem filter_components (path : Path) :
    (path.components.filter fun step => step != .root && step != .current) =
      path.steps := by
  have openingDropped :
      (path.opening.filter fun step => step != .root && step != .current) = [] := by
    unfold opening
    split
    · rfl
    · split <;> rfl
  rw [components_eq_opening_append, List.filter_append, openingDropped, List.nil_append,
    filter_of_steps fun step member => isStep_of_mem_steps member]

theorem steps_eq_of_components_eq
    {left right : Path}
    (same : left.components = right.components) :
    left.steps = right.steps := by
  rw [← filter_components, same, filter_components]

/-! ## Joining -/

theorem pieces_append_slash (left right : String) :
    pieces ⟨left ++ "/" ++ right⟩ = pieces ⟨left⟩ ++ pieces ⟨right⟩ :=
  Text.splitAt_append_slash left right

theorem steps_append_slash (left right : String) :
    steps ⟨left ++ "/" ++ right⟩ = steps ⟨left⟩ ++ steps ⟨right⟩ := by
  rw [steps, pieces_append_slash, List.filterMap_append]
  rfl

theorem exists_append_slash
    {text : String}
    (slashed : text.toList.getLast? = some '/') :
    ∃ shorter : String, text = shorter ++ "/" := by
  obtain ⟨initial, shape⟩ := List.getLast?_eq_some_iff.mp slashed
  refine ⟨String.ofList initial, String.toList_injective ?_⟩
  simpa using shape

/-- A relative path stands behind a slash, which the path before it may end with already. -/
theorem join_eq_append_slash
    {path next : Path}
    (relative : next.isAbsolute = false)
    (nonempty : path.text ≠ "") :
    ∃ shorter : String,
      (path.text = shorter ∨ path.text = shorter ++ "/") ∧
        path.join next = ⟨shorter ++ "/" ++ next.text⟩ := by
  unfold join
  rw [if_neg (by simp [relative])]
  split
  · next slashOrNothing =>
    rw [Bool.or_eq_true, String.isEmpty_iff, beq_iff_eq] at slashOrNothing
    have slashed := slashOrNothing.resolve_left nonempty
    obtain ⟨shorter, shape⟩ := exists_append_slash slashed
    exact ⟨shorter, Or.inr shape, by rw [shape]⟩
  · exact ⟨path.text, Or.inl rfl, rfl⟩

theorem join_of_text_eq_empty
    {path next : Path}
    (empty : path.text = "") :
    path.join next = next := by
  unfold join
  split
  · rfl
  · simp [empty]

theorem steps_join
    {path next : Path}
    (relative : next.isAbsolute = false) :
    (path.join next).steps = path.steps ++ next.steps := by
  by_cases empty : path.text = ""
  · have noSteps : path.steps = [] := by
      rw [show path = ⟨""⟩ from congrArg Path.mk empty, steps_empty]
    rw [join_of_text_eq_empty empty, noSteps, List.nil_append]
  · obtain ⟨shorter, form, joined⟩ := join_eq_append_slash relative empty
    have sameSteps : path.steps = steps ⟨shorter⟩ := by
      rcases form with form | form
      · rw [show path = ⟨shorter⟩ from congrArg Path.mk form]
      · have cut := steps_append_slash shorter ""
        rw [String.append_empty, steps_empty, List.append_nil] at cut
        rw [show path = ⟨shorter ++ "/"⟩ from congrArg Path.mk form, cut]
    rw [joined, steps_append_slash, sameSteps]

theorem head?_pieces_of_isAbsolute
    {path : Path}
    (absolute : path.isAbsolute = true) :
    path.pieces.head? = some "" := by
  rw [isAbsolute, beq_iff_eq, List.head?_eq_some_iff] at absolute
  obtain ⟨rest, characters⟩ := absolute
  simp [pieces, Text.splitAt, characters, List.splitOn_cons_eq_if_modifyHead]

theorem head?_pieces_append_slash (left right : String) :
    (pieces ⟨left ++ "/" ++ right⟩).head? = (pieces ⟨left⟩).head? := by
  rw [pieces_append_slash, List.head?_append]
  cases shape : pieces ⟨left⟩ with
  | nil => exact absurd shape (Text.splitAt_ne_nil '/' left)
  | cons first others => rfl

theorem isAbsolute_join
    {path next : Path}
    (relative : next.isAbsolute = false) :
    (path.join next).isAbsolute = path.isAbsolute := by
  cases characters : path.text.toList with
  | nil =>
      have empty : path.text = "" := String.toList_injective characters
      rw [join_of_text_eq_empty empty, relative]
      simp [isAbsolute, characters]
  | cons first rest =>
      have nonempty : path.text ≠ "" := by
        intro empty
        simp [empty] at characters
      obtain ⟨shorter, form, joined⟩ := join_eq_append_slash relative nonempty
      rcases form with form | form
      · simp [joined, isAbsolute, ← form, characters]
      · have longer :
            shorter ++ "/" ++ next.text = path.text ++ next.text := by
          rw [form]
        simp [joined, isAbsolute, longer, characters]

theorem opening_join
    {path next : Path}
    (relative : next.isAbsolute = false)
    (nonempty : path.text ≠ "") :
    (path.join next).opening = path.opening := by
  obtain ⟨shorter, form, joined⟩ := join_eq_append_slash relative nonempty
  have samePiece :
      (path.join next).pieces.head? = path.pieces.head? := by
    rw [joined, head?_pieces_append_slash]
    rcases form with form | form
    · rw [show path = ⟨shorter⟩ from congrArg Path.mk form]
    · have cut := head?_pieces_append_slash shorter ""
      rw [String.append_empty] at cut
      rw [show path = ⟨shorter ++ "/"⟩ from congrArg Path.mk form, cut]
  rw [opening, opening, samePiece, isAbsolute_join relative]

theorem opening_eq_of_components_eq
    {left right : Path}
    (same : left.components = right.components) :
    left.opening = right.opening := by
  have sameSteps := steps_eq_of_components_eq same
  rw [components_eq_opening_append, components_eq_opening_append, sameSteps] at same
  exact List.append_cancel_right same

theorem join_of_isAbsolute
    {path next : Path}
    (absolute : next.isAbsolute = true) :
    path.join next = next := by
  rw [join, if_pos absolute]

/-- What lies below a path is told by its components. -/
theorem components_join_eq
    {left right : Path}
    (same : left.components = right.components)
    (leftNonempty : left.text ≠ "") (rightNonempty : right.text ≠ "") (next : Path) :
    (left.join next).components = (right.join next).components := by
  cases absolute : next.isAbsolute with
  | true => rw [join_of_isAbsolute absolute, join_of_isAbsolute absolute]
  | false =>
      rw [components_eq_opening_append, components_eq_opening_append, steps_join absolute,
        steps_join absolute, opening_join absolute leftNonempty,
        opening_join absolute rightNonempty, opening_eq_of_components_eq same,
        steps_eq_of_components_eq same]

theorem steps_of_isName
    {name : String} (isName : IsName name) :
    steps ⟨name⟩ = [.name name] := by
  have onePiece : pieces ⟨name⟩ = [name] :=
    Text.splitAt_eq_singleton isName.unbroken
  have read : Component.ofPiece? name = some (.name name) :=
    Component.ofPiece?_text (.name isName)
  simp [steps, onePiece, read]

theorem isAbsolute_of_isName
    {name : String} (isName : IsName name) :
    isAbsolute ⟨name⟩ = false := by
  rw [Bool.eq_false_iff]
  intro absolute
  rw [isAbsolute, beq_iff_eq] at absolute
  exact isName.unbroken (List.mem_of_mem_head? absolute)

theorem steps_child
    (path : Path) {name : String} (isName : IsName name) :
    (path.child name).steps = path.steps ++ [.name name] := by
  rw [child, steps_join (isAbsolute_of_isName isName), steps_of_isName isName]

/-! ## Writing and reading components -/

theorem pieces_joinWith
    {components : List Component}
    (nonempty : components ≠ [])
    (allSteps : ∀ step ∈ components, step.IsStep) :
    pieces ⟨Text.joinWith '/' (components.map Component.text)⟩ =
      components.map Component.text := by
  apply Text.splitAt_joinWith
  · simpa using nonempty
  · intro piece member
    obtain ⟨step, inSteps, rfl⟩ := List.mem_map.mp member
    exact (allSteps step inSteps).unbroken

theorem steps_joinWith
    {components : List Component}
    (allSteps : ∀ step ∈ components, step.IsStep) :
    steps ⟨Text.joinWith '/' (components.map Component.text)⟩ = components := by
  by_cases nonempty : components = []
  · subst nonempty
    simp
  · have readBack :
        ∀ step ∈ components,
          (Component.ofPiece? ∘ Component.text) step = some step :=
      fun step member => Component.ofPiece?_text (allSteps step member)
    rw [steps, pieces_joinWith nonempty allSteps, List.filterMap_map]
    clear nonempty allSteps
    induction components with
    | nil => rfl
    | cons first others inductionHypothesis =>
        rw [List.filterMap_cons_some (readBack first List.mem_cons_self),
          inductionHypothesis fun step member =>
            readBack step (List.mem_cons_of_mem first member)]

theorem size_joinWith_le_of_sublist_filterMap
    {kept : List Component} {parts : List String}
    (sublist : kept.Sublist (parts.filterMap Component.ofPiece?)) :
    (Text.joinWith '/' (kept.map Component.text)).utf8ByteSize ≤
      (Text.joinWith '/' parts).utf8ByteSize := by
  have texts := sublist.map Component.text
  rw [map_text_filterMap_ofPiece?] at texts
  have inParts := (texts.trans List.filter_sublist).trans List.filter_sublist
  exact Text.size_joinWith_le_of_sublist inParts

theorem opening_joinWith
    {components : List Component}
    (allSteps : ∀ step ∈ components, step.IsStep) :
    opening ⟨Text.joinWith '/' (components.map Component.text)⟩ = [] := by
  cases components with
  | nil => decide
  | cons first others =>
      have firstStep := allSteps first List.mem_cons_self
      have headPiece :
          (pieces ⟨Text.joinWith '/' ((first :: others).map Component.text)⟩).head? =
            some first.text := by
        rw [pieces_joinWith (List.cons_ne_nil first others) allSteps]
        rfl
      have relative :
          isAbsolute ⟨Text.joinWith '/' ((first :: others).map Component.text)⟩ =
            false := by
        rw [Bool.eq_false_iff]
        intro absolute
        rw [head?_pieces_of_isAbsolute absolute, Option.some.injEq] at headPiece
        exact firstStep.text_ne_empty headPiece.symm
      rw [opening, relative, headPiece]
      simp [firstStep.text_ne_dot]

/-- A list of components that some path has: a slash only in front, names that are names. -/
inductive Readable : List Component → Prop where
  | absolute {steps : List Component}
      (allSteps : ∀ step ∈ steps, step.IsStep) : Readable (.root :: steps)
  | relative {steps : List Component}
      (allSteps : ∀ step ∈ steps, step.IsStep) : Readable steps

theorem ofComponents_of_steps
    {components : List Component}
    (allSteps : ∀ step ∈ components, step.IsStep) :
    ofComponents components =
      ⟨Text.joinWith '/' (components.map Component.text)⟩ := by
  unfold ofComponents
  split
  · next rest =>
    have rootStep := allSteps .root List.mem_cons_self
    cases rootStep
  · rfl

theorem components_ofComponents
    {components : List Component}
    (readable : Readable components) :
    (ofComponents components).components = components := by
  cases readable with
  | @absolute steps allSteps =>
      have absolute :
          isAbsolute ⟨"/" ++ Text.joinWith '/' (steps.map Component.text)⟩ = true := by
        simp [isAbsolute]
      rw [components_eq_opening_append, ofComponents, opening, if_pos absolute]
      have written :=
        steps_append_slash "" (Text.joinWith '/' (steps.map Component.text))
      rw [String.empty_append, steps_empty, List.nil_append,
        steps_joinWith allSteps] at written
      rw [written]
      rfl
  | relative allSteps =>
      rw [ofComponents_of_steps allSteps, components_eq_opening_append,
        opening_joinWith allSteps, steps_joinWith allSteps, List.nil_append]

theorem head?_components_eq_root_iff (path : Path) :
    path.components.head? = some .root ↔ path.isAbsolute = true := by
  by_cases absolute : path.isAbsolute = true
  · simp [components_eq_opening_append, opening, absolute]
  · rw [components_eq_opening_append, opening, if_neg absolute]
    simp only [absolute]
    split
    · simp
    · rw [List.nil_append]
      constructor
      · intro rootFirst
        have rootStep := isStep_of_mem_steps (List.mem_of_mem_head? rootFirst)
        cases rootStep
      · simp

theorem isAbsolute_eq_of_components_eq
    {left right : Path} (same : left.components = right.components) :
    left.isAbsolute = right.isAbsolute := by
  rw [Bool.eq_iff_iff, ← head?_components_eq_root_iff, same, head?_components_eq_root_iff]

/-- Whatever is joined to an absolute path, the result is absolute. -/
theorem isAbsolute_join_of_isAbsolute
    {path : Path} (absolute : path.isAbsolute = true) (next : Path) :
    (path.join next).isAbsolute = true := by
  cases nextAbsolute : next.isAbsolute with
  | true => rw [join_of_isAbsolute nextAbsolute, nextAbsolute]
  | false => rw [isAbsolute_join nextAbsolute, absolute]

/-- The last component of a path is a name just when its last step is. -/
theorem fileName?_eq_some_iff (path : Path) (name : String) :
    path.fileName? = some name ↔ path.steps.getLast? = some (.name name) := by
  have opened : ∀ step ∈ path.opening, ∀ text, step ≠ .name text := by
    intro step member text equal
    unfold opening at member
    split at member
    · simp_all
    · split at member <;> simp_all
  have last_iff :
      path.components.getLast? = some (.name name) ↔
        path.steps.getLast? = some (.name name) := by
    rw [components_eq_opening_append, List.getLast?_append]
    cases lastStep : path.steps.getLast? with
    | some step => simp
    | none =>
        simp only [Option.none_or, reduceCtorEq, iff_false]
        intro lastOpening
        exact opened _ (List.mem_of_getLast? lastOpening) name rfl
  rw [← last_iff]
  unfold fileName?
  split
  · next text equal => simp [equal]
  · next noName =>
    simp only [reduceCtorEq, false_iff]
    exact noName name

@[simp]
theorem fileName?_child
    (path : Path) {name : String} (isName : IsName name) :
    (path.child name).fileName? = some name := by
  rw [fileName?_eq_some_iff, steps_child path isName]
  simp

theorem isName_of_fileName?
    {path : Path} {name : String}
    (named : path.fileName? = some name) :
    IsName name := by
  have last := (fileName?_eq_some_iff path name).mp named
  have isStep := isStep_of_mem_steps (List.mem_of_getLast? last)
  cases isStep with
  | name isName => exact isName

theorem fileName?_foldl_child
    {name : String} {names : List String}
    (path : Path)
    (isName : IsName name)
    (last : names.getLast? = some name) :
    (names.foldl child path).fileName? = some name := by
  obtain ⟨front, rfl⟩ := List.getLast?_eq_some_iff.mp last
  rw [List.foldl_append, List.foldl_cons, List.foldl_nil, fileName?_child _ isName]

end MplServer.Path
