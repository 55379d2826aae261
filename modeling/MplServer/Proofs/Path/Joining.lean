import MplServer.Proofs.Path.NormalForm

/-!
# Normal forms and joining

A normal form can be written while the path is read: the text so far is joined with the next
component, or cut back to its parent. It makes no difference at which point of the reading the part
that has been read is put into normal form, so a joined path has the normal form that the normal
forms of its parts have when they are joined.
-/

namespace MplServer.Path

/-! ## Writing a normal form -/

/-- One more component behind the text written so far. Two dots take back a name by going to the
parent of the text. -/
def extend (written : Path) : Component → Path
  | .current => written
  | .parent =>
      match written.components.getLast? with
      | some (.name _) => written.parent?.getD written
      | some .root => written
      | _ => written.join ⟨".."⟩
  | step => written.join ⟨step.text⟩

theorem isAbsolute_of_isStep
    {step : Component} (isStep : step.IsStep) : isAbsolute ⟨step.text⟩ = false := by
  cases isStep with
  | parent => decide
  | name isName => exact isAbsolute_of_isName isName

/-- A text that ends with a step does not end with a slash. -/
theorem getLast?_append_text_ne_slash
    {step : Component} (isStep : step.IsStep) (front : String) :
    (front ++ step.text).toList.getLast? ≠ some '/' := by
  intro slashed
  rw [String.toList_append, List.getLast?_append] at slashed
  cases last : step.text.toList.getLast? with
  | none =>
      rw [List.getLast?_eq_none_iff, String.toList_eq_nil_iff] at last
      exact isStep.text_ne_empty last
  | some c =>
      rw [last, Option.some_or, Option.some.injEq] at slashed
      rw [slashed] at last
      exact isStep.unbroken (List.mem_of_getLast? last)

theorem join_step
    {step : Component} (isStep : step.IsStep) {path : Path}
    (nonempty : path.text ≠ "") (unslashed : path.text.toList.getLast? ≠ some '/') :
    path.join ⟨step.text⟩ = ⟨path.text ++ "/" ++ step.text⟩ := by
  unfold join
  rw [isAbsolute_of_isStep isStep, if_neg Bool.false_ne_true, if_neg]
  simp [nonempty, unslashed]

/-- The texts of some steps, one behind the other, end with the text of the last. -/
theorem exists_joinWith_eq_append_text
    {steps : List Component} (nonempty : steps ≠ []) :
    ∃ front step, step ∈ steps ∧
      Text.joinWith '/' (steps.map Component.text) = front ++ step.text := by
  rcases List.eq_nil_or_concat' steps with rfl | ⟨others, last, rfl⟩
  · exact absurd rfl nonempty
  · by_cases alone : others = []
    · refine ⟨"", last, by simp, ?_⟩
      simp [alone]
    · have more : others.map Component.text ≠ [] := by
        simpa using alone
      refine ⟨Text.joinWith '/' (others.map Component.text) ++ "/", last, by simp, ?_⟩
      rw [List.map_append, Text.joinWith_append_slash more (by simp)]
      simp

theorem joinWith_concat_text
    {steps : List Component} (nonempty : steps ≠ []) (step : Component) :
    Text.joinWith '/' ((steps ++ [step]).map Component.text) =
      Text.joinWith '/' (steps.map Component.text) ++ "/" ++ step.text := by
  have more : steps.map Component.text ≠ [] := by
    simpa using nonempty
  rw [List.map_append, Text.joinWith_append_slash more (by simp)]
  simp

/-- Joining a step writes it behind the components that are there. -/
theorem ofComponents_concat
    {done : List Component} (readable : Readable done)
    {step : Component} (isStep : step.IsStep) :
    ofComponents (done ++ [step]) = (ofComponents done).join ⟨step.text⟩ := by
  cases readable with
  | @absolute steps allSteps =>
      by_cases noSteps : steps = []
      · subst noSteps
        have relative := isAbsolute_of_isStep isStep
        simp [ofComponents, join, relative]
      · obtain ⟨front, last, inSteps, whole⟩ := exists_joinWith_eq_append_text noSteps
        have text_eq :
            (ofComponents (.root :: steps)).text = ("/" ++ front) ++ last.text := by
          rw [ofComponents, whole, String.append_assoc]
        have unslashed := getLast?_append_text_ne_slash (allSteps last inSteps) ("/" ++ front)
        rw [← text_eq] at unslashed
        have nonempty : (ofComponents (.root :: steps)).text ≠ "" := by
          simp [ofComponents]
        rw [join_step isStep nonempty unslashed, List.cons_append, ofComponents, ofComponents,
          joinWith_concat_text noSteps]
        simp only [String.append_assoc]
  | relative allSteps =>
      have allMore : ∀ other ∈ done ++ [step], other.IsStep := by
        intro other member
        rcases List.mem_append.mp member with old | new
        · exact allSteps other old
        · rwa [List.mem_singleton.mp new]
      rw [ofComponents_of_steps allMore, ofComponents_of_steps allSteps]
      by_cases noSteps : done = []
      · subst noSteps
        rw [List.nil_append, List.map_singleton, Text.joinWith_singleton]
        exact (join_of_text_eq_empty rfl).symm
      · obtain ⟨front, last, inSteps, whole⟩ := exists_joinWith_eq_append_text noSteps
        have lastStep := allSteps last inSteps
        have unslashed := getLast?_append_text_ne_slash lastStep front
        have nonempty : front ++ last.text ≠ "" := by
          simp [lastStep.text_ne_empty]
        rw [← whole] at unslashed nonempty
        rw [joinWith_concat_text noSteps]
        exact (join_step isStep nonempty unslashed).symm

theorem withoutLast_concat_text
    {steps : List Component} (allSteps : ∀ step ∈ steps, step.IsStep)
    {last : Component} (lastStep : last.IsStep) :
    withoutLast ((steps ++ [last]).map Component.text) = steps.map Component.text := by
  have meaningful :
      ∀ step : Component, step.IsStep → (Component.ofPiece? step.text).isNone = false := by
    intro step isStep
    rw [Component.ofPiece?_text isStep]
    rfl
  unfold withoutLast
  rw [List.map_append, List.reverse_append]
  rcases List.eq_nil_or_concat' steps with rfl | ⟨others, before, rfl⟩
  · simp [meaningful last lastStep]
  · have beforeStep := allSteps before (by simp)
    simp [meaningful last lastStep, meaningful before beforeStep]

theorem isSome_of_concat_text
    (parts : List String) {last : Component} (lastStep : last.IsStep) :
    ((parts ++ [last.text]).any fun piece => (Component.ofPiece? piece).isSome) = true := by
  rw [List.any_append, List.any_cons, Component.ofPiece?_text lastStep]
  simp

/-- The parent of a written path is written without the last step. -/
theorem parent?_slash_joinWith
    {steps : List Component} (allSteps : ∀ step ∈ steps, step.IsStep)
    {last : Component} (lastStep : last.IsStep) :
    parent? ⟨"/" ++ Text.joinWith '/' ((steps ++ [last]).map Component.text)⟩ =
      some ⟨"/" ++ Text.joinWith '/' (steps.map Component.text)⟩ := by
  have allMore : ∀ step ∈ steps ++ [last], step.IsStep := by
    simpa [or_imp, forall_and] using ⟨allSteps, lastStep⟩
  have absolute :
      isAbsolute ⟨"/" ++ Text.joinWith '/' ((steps ++ [last]).map Component.text)⟩ = true := by
    simp [isAbsolute]
  have pieces_eq :
      pieces ⟨"/" ++ Text.joinWith '/' ((steps ++ [last]).map Component.text)⟩ =
        "" :: (steps ++ [last]).map Component.text := by
    have cut := pieces_append_slash "" (Text.joinWith '/' ((steps ++ [last]).map Component.text))
    rw [String.empty_append, pieces_joinWith (by simp) allMore] at cut
    rw [cut, pieces, Text.splitAt_empty]
    rfl
  have hasName : (("" :: (steps ++ [last]).map Component.text).any fun piece =>
      (Component.ofPiece? piece).isSome) = true := by
    rw [List.map_append, ← List.cons_append]
    exact isSome_of_concat_text _ lastStep
  simp only [parent?, absolute, pieces_eq, hasName, if_true, List.tail_cons,
    withoutLast_concat_text allSteps lastStep]

theorem parent?_joinWith
    {steps : List Component} (allSteps : ∀ step ∈ steps, step.IsStep)
    {last : Component} (lastStep : last.IsStep) :
    parent? ⟨Text.joinWith '/' ((steps ++ [last]).map Component.text)⟩ =
      some ⟨Text.joinWith '/' (steps.map Component.text)⟩ := by
  have allMore : ∀ step ∈ steps ++ [last], step.IsStep := by
    simpa [or_imp, forall_and] using ⟨allSteps, lastStep⟩
  have noOpening := opening_joinWith allMore
  have pieces_eq := pieces_joinWith (by simp) allMore
  have hasName : (((steps ++ [last]).map Component.text).any fun piece =>
      (Component.ofPiece? piece).isSome) = true := by
    rw [List.map_append]
    exact isSome_of_concat_text _ lastStep
  unfold opening at noOpening
  split at noOpening
  · cases noOpening
  next relative =>
  split at noOpening
  · cases noOpening
  next noDot =>
  rw [pieces_eq] at noDot
  simp only [parent?, pieces_eq, hasName, if_true,
    withoutLast_concat_text allSteps lastStep]
  rw [if_neg relative, if_neg noDot]

theorem parent?_ofComponents_concat
    {done : List Component} (readable : Readable done)
    {last : Component} (lastStep : last.IsStep) :
    (ofComponents (done ++ [last])).parent? = some (ofComponents done) := by
  cases readable with
  | absolute allSteps => exact parent?_slash_joinWith allSteps lastStep
  | relative allSteps =>
      have allMore : ∀ step ∈ done ++ [last], step.IsStep := by
        simpa [or_imp, forall_and] using ⟨allSteps, lastStep⟩
      rw [ofComponents_of_steps allMore, ofComponents_of_steps allSteps]
      exact parent?_joinWith allSteps lastStep

theorem IsNormal.isName_of_concat
    {front : List Component} {name : String}
    (normal : IsNormal (front ++ [.name name])) : IsName name := by
  have fileName :
      (ofComponents (front ++ [.name name])).fileName? = some name := by
    rw [fileName?, components_ofComponents normal.readable, List.getLast?_concat]
  exact isName_of_fileName? fileName

/-- Extending the text of a normal list writes the list that is climbed to. -/
theorem extend_ofComponents
    {done : List Component} (normal : IsNormal done)
    {step : Component} (isStep : step.IsStep) :
    extend (ofComponents done) step = ofComponents (climb done step) := by
  have joined := (ofComponents_concat normal.readable isStep).symm
  cases isStep with
  | name isName => exact joined
  | parent =>
      have components_eq := components_ofComponents normal.readable
      rcases List.eq_nil_or_concat' done with rfl | ⟨shorter, last, rfl⟩
      · exact joined
      · unfold extend climb
        rw [components_eq, List.getLast?_concat]
        cases last with
        | name text =>
            have isName := normal.isName_of_concat
            have above := parent?_ofComponents_concat normal.of_append.readable (.name isName)
            rw [List.dropLast_concat]
            dsimp only
            rw [above, Option.getD_some]
        | root => rfl
        | current => exact joined
        | parent => exact joined

theorem foldl_extend_ofComponents
    {done steps : List Component}
    (normal : IsNormal done) (allSteps : ∀ step ∈ steps, step.IsStep) :
    steps.foldl extend (ofComponents done) = ofComponents (steps.foldl climb done) := by
  induction steps generalizing done with
  | nil => rfl
  | cons step others inductionHypothesis =>
      rw [List.forall_mem_cons] at allSteps
      rw [List.foldl_cons, List.foldl_cons, extend_ofComponents normal allSteps.1]
      exact inductionHypothesis (isNormal_climb normal allSteps.1) allSteps.2

/-- The normal form is the text that is written when the components are read one by one. -/
theorem normalize_eq_foldl_extend (path : Path) :
    path.normalize = path.components.foldl extend ⟨""⟩ := by
  have opened :
      path.opening.foldl extend ⟨""⟩ =
        ofComponents (if path.isAbsolute then [.root] else []) := by
    unfold opening
    split
    · decide
    · split <;> decide
  have normal : IsNormal (if path.isAbsolute then [.root] else []) := by
    split
    · exact @IsNormal.absolute [] (by simp)
    · exact isNormal_nil
  rw [normalize, normalComponents_components, components_eq_opening_append,
    List.foldl_append, opened]
  exact (foldl_extend_ofComponents normal fun step member => isStep_of_mem_steps member).symm

/-! ## Normal forms of parts -/

/-- What has been read can be put into normal form before the next component is read. -/
theorem foldl_climb_climb
    {front : List Component} (allSteps : ∀ step ∈ front, step.IsStep)
    {step : Component} (isStep : step.IsStep) (done : List Component) :
    (climb front step).foldl climb done = climb (front.foldl climb done) step := by
  have together : (front ++ [step]).foldl climb done = climb (front.foldl climb done) step := by
    rw [List.foldl_append]
    rfl
  cases isStep with
  | name isName => exact together
  | parent =>
      rcases List.eq_nil_or_concat' front with rfl | ⟨shorter, last, rfl⟩
      · exact together
      · cases allSteps last (by simp) with
        | parent => simp [climb]
        | @name text isName =>
            -- The name is read and taken back, whatever has been read before it.
            rw [climb_parent_of_name, List.foldl_append, List.foldl_cons, List.foldl_nil,
              climb_name, climb_parent_of_name]

theorem foldl_climb_foldl_climb
    {front steps : List Component}
    (frontSteps : ∀ step ∈ front, step.IsStep) (allSteps : ∀ step ∈ steps, step.IsStep)
    (done : List Component) :
    (steps.foldl climb front).foldl climb done =
      steps.foldl climb (front.foldl climb done) := by
  induction steps generalizing front with
  | nil => rfl
  | cons step others inductionHypothesis =>
      rw [List.forall_mem_cons] at allSteps
      have climbedSteps : ∀ other ∈ climb front step, other.IsStep := by
        intro other member
        rcases List.mem_append.mp ((climb_sublist front step).mem member) with old | new
        · exact frontSteps other old
        · rw [List.mem_singleton.mp new]
          exact allSteps.1
      rw [List.foldl_cons, List.foldl_cons, inductionHypothesis climbedSteps allSteps.2,
        foldl_climb_climb frontSteps allSteps.1]

/-- A relative path and its normal form lead on to the same place from everywhere. -/
theorem foldl_climb_steps_normalize
    {path : Path} (relative : path.isAbsolute = false) (done : List Component) :
    path.normalize.steps.foldl climb done = path.steps.foldl climb done := by
  have allSteps : ∀ step ∈ path.steps, step.IsStep :=
    fun step member => isStep_of_mem_steps member
  have steps_eq : path.normalize.steps = path.steps.foldl climb [] := by
    have noOpening : path.normalize.components = path.steps.foldl climb [] := by
      rw [components_normalize, normalComponents_components, if_neg (by simp [relative])]
    have climbedSteps : ∀ step ∈ path.steps.foldl climb [], step.IsStep := by
      intro step member
      exact allSteps step ((mem_of_mem_foldl_climb member).resolve_left (by simp))
    rw [← filter_components, noOpening, filter_of_steps climbedSteps]
  rw [steps_eq, foldl_climb_foldl_climb (by simp) allSteps]
  rfl

/-- The normal form of a joined path is told by the normal forms of its parts. -/
theorem normalize_join_normalize (path next : Path) :
    (path.normalize.join next.normalize).normalize = (path.join next).normalize := by
  by_cases absolute : next.isAbsolute = true
  · have alsoAbsolute : next.normalize.isAbsolute = true := by
      rw [isAbsolute_normalize, absolute]
    rw [join_of_isAbsolute absolute, join_of_isAbsolute alsoAbsolute, normalize_normalize]
  · rw [Bool.not_eq_true] at absolute
    have alsoRelative : next.normalize.isAbsolute = false := by
      rw [isAbsolute_normalize, absolute]
    rw [normalize_eq_normalize_iff, normalComponents_join absolute,
      normalComponents_join alsoRelative, components_normalize,
      (isNormal_normalComponents path).normalComponents_eq,
      foldl_climb_steps_normalize absolute]

/-! ## What normal forms look like -/

theorem IsNormal.current_not_mem
    {components : List Component} (normal : IsNormal components) :
    .current ∉ components := by
  cases normal with
  | absolute allNames => simp
  | relative height allNames => simp [List.mem_replicate]

/-- Nothing but climbs comes before a climb, so there is none behind a slash. -/
theorem IsNormal.eq_parent_of_before
    {before behind : List Component} (normal : IsNormal (before ++ .parent :: behind)) :
    ∀ step ∈ before, step = .parent := by
  rw [List.append_cons] at normal
  have upToClimb := normal.of_append
  generalize whole_eq : before ++ [Component.parent] = whole at upToClimb
  cases upToClimb with
  | @absolute names allNames =>
      have climb : Component.parent ∈ Component.root :: names.map Component.name := by
        rw [← whole_eq]
        simp
      simp at climb
  | @relative height names allNames =>
      rcases List.eq_nil_or_concat' names with rfl | ⟨others, last, rfl⟩
      · rw [List.map_nil, List.append_nil] at whole_eq
        intro step member
        have inWhole := List.mem_append_left [Component.parent] member
        rw [whole_eq] at inWhole
        exact List.eq_of_mem_replicate inWhole
      · rw [List.map_append, ← List.append_assoc] at whole_eq
        have lastTwo := (List.append_inj' whole_eq rfl).2
        simp at lastTwo

theorem dot_not_mem_pieces_normalize (path : Path) : "." ∉ path.normalize.pieces := by
  have allSteps : ∀ step ∈ path.normalize.steps, step.IsStep :=
    fun step member => isStep_of_mem_steps member
  have notInSteps :
      "." ∉ pieces ⟨Text.joinWith '/' (path.normalize.steps.map Component.text)⟩ := by
    by_cases noSteps : path.normalize.steps = []
    · rw [noSteps]
      decide
    · rw [pieces_joinWith noSteps allSteps, List.mem_map]
      rintro ⟨step, member, dot⟩
      exact (allSteps step member).text_ne_dot dot
  have whole : path.normalize = ⟨path.normalize.text⟩ := rfl
  rw [whole, text_normalize]
  split
  · have cut :=
      pieces_append_slash "" (Text.joinWith '/' (path.normalize.steps.map Component.text))
    rw [String.empty_append] at cut
    rw [cut, List.mem_append, not_or]
    exact ⟨by decide, notInSteps⟩
  · rwa [String.empty_append]

/-- A normal form is what is written component by component. It has no dots, it climbs only where
a relative path begins, it starts where the path starts, and it stays as it is. Parts may be put
into normal form before they are joined. -/
theorem normalize_is_normal_and_respects_join (path : Path) :
    path.normalize = path.components.foldl extend ⟨""⟩ ∧
    (.current ∉ path.normalize.components ∧ "." ∉ path.normalize.pieces) ∧
    (∀ before behind, path.normalize.components = before ++ .parent :: behind →
      path.isAbsolute = false ∧ ∀ step ∈ before, step = .parent) ∧
    path.normalize.isAbsolute = path.isAbsolute ∧
    path.normalize.normalize = path.normalize ∧
    ∀ next : Path,
      (path.join next).normalize = (path.normalize.join next.normalize).normalize := by
  have normal := isNormal_normalComponents path
  rw [← components_normalize] at normal
  refine ⟨normalize_eq_foldl_extend path,
    ⟨normal.current_not_mem, dot_not_mem_pieces_normalize path⟩, ?_,
    isAbsolute_normalize path, normalize_normalize path,
    fun next => (normalize_join_normalize path next).symm⟩
  intro before behind parts
  rw [parts] at normal
  have climbs := normal.eq_parent_of_before
  refine ⟨?_, climbs⟩
  rw [Bool.eq_false_iff]
  intro absolute
  have rootFirst := (head?_normalComponents_eq_root_iff path).mpr absolute
  rw [← components_normalize, parts] at rootFirst
  cases before with
  | nil => cases rootFirst
  | cons first others =>
      obtain rfl := Option.some.inj rootFirst
      cases climbs .root List.mem_cons_self

/-- A path that goes into a directory and out again further than it came in. -/
theorem detour_is_normal_and_respects_join :
    let detour : Path := ⟨"lib/./..//../../app/x/.."⟩
    detour.normalize.components = [.parent] ++ .parent :: [.name "app"] ∧
      (detour.isAbsolute = false ∧ ∀ step ∈ [Component.parent], step = .parent) ∧
        (detour.join ⟨".././../lib/"⟩).normalize = ⟨"../../../lib"⟩ := by
  intro detour
  have properties := normalize_is_normal_and_respects_join detour
  have parts : detour.normalize.components = [.parent] ++ .parent :: [.name "app"] := by
    decide +kernel
  refine ⟨parts, properties.2.2.1 _ _ parts, ?_⟩
  rw [properties.2.2.2.2.2]
  decide +kernel

end MplServer.Path
