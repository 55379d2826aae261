import MplServer.Proofs.Json.Scalars

/-!
# Values within values

The rules by which a value is read in full. Reading follows them for every bound on its steps that
the length of the text allows for, and passing the value over stops at the same place.
-/

namespace MplServer.Json

/-! ## Between values -/

theorem length_skipSpace (text : List Char) :
    (skipSpace text).length ≤ text.length :=
  (List.dropWhile_suffix isSpace).length_le

theorem afterComma_of_full
    {close : Char} {text start : List Char}
    (read : afterComma .full close text = .ok start) (care : Care) :
    afterComma care close text = .ok start ∧ start.length ≤ text.length := by
  have shorter := length_skipSpace text
  unfold afterComma at read
  cases spaced : skipSpace text with
  | nil => simp [spaced, faultAt] at read
  | cons c rest =>
      simp only [spaced] at read
      by_cases closing : c = close
      · rw [if_pos closing] at read
        cases read
      · rw [if_neg closing] at read
        cases read
        rw [spaced] at shorter
        cases care with
        | full => exact ⟨by simp [afterComma, spaced, closing], shorter⟩
        | skim => exact ⟨by simp [afterComma, spaced], shorter⟩

theorem length_lt_of_afterComma
    {close : Char} {behind more start : List Char}
    (separated : skipSpace behind = ',' :: more)
    (begun : afterComma .full close more = .ok start) :
    start.length < behind.length := by
  have spaced := length_skipSpace behind
  have started := (afterComma_of_full begun .full).2
  rw [separated, List.length_cons] at spaced
  omega

theorem length_colon
    {text rest : List Char} (read : colon text = .ok rest) :
    rest.length < text.length := by
  have shorter := length_skipSpace text
  unfold colon at read
  split at read
  · next spaced =>
    cases read
    rw [spaced] at shorter
    exact shorter
  · cases read
  · cases read

theorem memberName_eq_ok
    {text start : List Char} {name : String}
    (read : memberName .full text = .ok (name, start)) :
    ∃ quoted behind,
      text = '"' :: quoted ∧ quotedString .full quoted = .ok (name, behind) ∧
        colon behind = .ok start := by
  unfold memberName at read
  split at read
  · next quoted =>
    cases inQuotes : quotedString .full quoted with
    | error fault => simp [inQuotes, bind, Except.bind] at read
    | ok found =>
        obtain ⟨decoded, behind⟩ := found
        cases separated : colon behind with
        | error fault => simp [inQuotes, separated, bind, Except.bind] at read
        | ok begun =>
            simp only [inQuotes, separated, bind, Except.bind, pure, Except.pure,
              Except.ok.injEq, Prod.mk.injEq] at read
            obtain ⟨rfl, rfl⟩ := read
            exact ⟨quoted, behind, rfl, inQuotes, separated⟩
  · cases read
  · cases read

theorem memberName_of_full
    {text rest : List Char} {name : String}
    (read : memberName .full text = .ok (name, rest)) (care : Care) :
    (∃ other, (care = .full → other = name) ∧
      memberName care text = .ok (other, rest)) ∧
      rest.length < text.length := by
  obtain ⟨quoted, behind, rfl, inQuotes, separated⟩ := memberName_eq_ok read
  obtain ⟨⟨other, skimmed⟩, shorter⟩ := quotedString_skim inQuotes
  have behindColon := length_colon separated
  refine ⟨?_, by rw [List.length_cons]; omega⟩
  cases care with
  | full => exact ⟨name, fun _ => rfl, read⟩
  | skim =>
      refine ⟨other, by simp, ?_⟩
      simp [memberName, skimmed, separated, bind, Except.bind, pure, Except.pure]

/-! ## The rules -/

/-- What is read: a value, or a container from its next item or its next member on. -/
inductive Form where
  | value
  | items
  | members

/-- The rules of reading in full. Containers may be nested `depth - 1` deep. Items and members are
given as the container they make up. -/
inductive Reads : Form → Nat → List Char → Json → List Char → Prop where
  | scalar {depth : Nat} {text rest : List Char} {value : Json}
      (read : scalar .full (skipSpace text) = .ok (value, rest)) :
      Reads .value depth text value rest
  | emptyArray {depth : Nat} {text behind rest : List Char}
      (deep : 1 < depth)
      (opened : skipSpace text = '[' :: behind)
      (closed : skipSpace behind = ']' :: rest) :
      Reads .value depth text (.array []) rest
  | array {depth : Nat} {text behind rest : List Char} {items : List Json}
      (deep : 1 < depth)
      (opened : skipSpace text = '[' :: behind)
      (notClosed : ∀ others, skipSpace behind ≠ ']' :: others)
      (read : Reads .items (depth - 1) (skipSpace behind) (.array items) rest) :
      Reads .value depth text (.array items) rest
  | emptyObject {depth : Nat} {text behind rest : List Char}
      (deep : 1 < depth)
      (opened : skipSpace text = '{' :: behind)
      (closed : skipSpace behind = '}' :: rest) :
      Reads .value depth text (.object []) rest
  | object {depth : Nat} {text behind rest : List Char} {members : List (String × Json)}
      (deep : 1 < depth)
      (opened : skipSpace text = '{' :: behind)
      (notClosed : ∀ others, skipSpace behind ≠ '}' :: others)
      (read : Reads .members (depth - 1) (skipSpace behind) (.object members) rest) :
      Reads .value depth text (.object members) rest
  | lastItem {depth : Nat} {text behind rest : List Char} {item : Json}
      (read : Reads .value depth text item behind)
      (closed : skipSpace behind = ']' :: rest) :
      Reads .items depth text (.array [item]) rest
  | nextItem {depth : Nat} {text behind more start rest : List Char} {item : Json}
      {items : List Json}
      (read : Reads .value depth text item behind)
      (separated : skipSpace behind = ',' :: more)
      (next : afterComma .full ']' more = .ok start)
      (others : Reads .items depth start (.array items) rest) :
      Reads .items depth text (.array (item :: items)) rest
  | lastMember {depth : Nat} {text start behind rest : List Char} {name : String}
      {value : Json}
      (named : memberName .full text = .ok (name, start))
      (read : Reads .value depth start value behind)
      (closed : skipSpace behind = '}' :: rest) :
      Reads .members depth text (.object [(name, value)]) rest
  | nextMember {depth : Nat} {text start behind more next rest : List Char} {name : String}
      {value : Json} {members : List (String × Json)}
      (named : memberName .full text = .ok (name, start))
      (read : Reads .value depth start value behind)
      (separated : skipSpace behind = ',' :: more)
      (begun : afterComma .full '}' more = .ok next)
      (others : Reads .members depth next (.object members) rest) :
      Reads .members depth text (.object ((name, value) :: members)) rest

/-- A reading of the given form succeeds. -/
def Finishes (care : Care) (form : Form) (bound depth : Nat) (text : List Char)
    (value : Json) (rest : List Char) : Prop :=
  match form, value with
  | .value, value => valueWithin care bound depth text = .ok (value, rest)
  | .items, .array items => itemsWithin care bound depth text = .ok (items, rest)
  | .members, .object members => membersWithin care bound depth text = .ok (members, rest)
  | _, _ => False

theorem reads_value_of_within
    {bound depth : Nat} {text rest : List Char} {value : Json}
    (below : ∀ {form : Form} {depth : Nat} {text rest : List Char} {value : Json},
      Finishes .full form bound depth text value rest →
        Reads form depth text value rest)
    (read : valueWithin .full (bound + 1) depth text = .ok (value, rest)) :
    Reads .value depth text value rest := by
  rw [valueWithin] at read
  split at read
  · next behind opened =>
    by_cases shallow : depth ≤ 1
    · simp [shallow, faultAt] at read
    simp only [shallow, and_false, if_false] at read
    split at read
    · cases read
    · next closed =>
      cases read
      exact .emptyArray (by omega) opened closed
    · next notNil notClosed =>
      cases inner : itemsWithin .full bound (depth - 1) (skipSpace behind) with
      | error fault => simp [inner, Except.map] at read
      | ok found =>
          obtain ⟨items, final⟩ := found
          simp only [inner, Except.map, Except.ok.injEq, Prod.mk.injEq] at read
          obtain ⟨rfl, rfl⟩ := read
          exact .array (by omega) opened notClosed (below inner)
  · next behind opened =>
    by_cases shallow : depth ≤ 1
    · simp [shallow, faultAt] at read
    simp only [shallow, and_false, if_false] at read
    split at read
    · cases read
    · next closed =>
      cases read
      exact .emptyObject (by omega) opened closed
    · next notNil notClosed =>
      cases inner : membersWithin .full bound (depth - 1) (skipSpace behind) with
      | error fault => simp [inner, Except.map] at read
      | ok found =>
          obtain ⟨members, final⟩ := found
          simp only [inner, Except.map, Except.ok.injEq, Prod.mk.injEq] at read
          obtain ⟨rfl, rfl⟩ := read
          exact .object (by omega) opened notClosed (below inner)
  · exact .scalar read

theorem reads_items_of_within
    {bound depth : Nat} {text rest : List Char} {items : List Json}
    (below : ∀ {form : Form} {depth : Nat} {text rest : List Char} {value : Json},
      Finishes .full form bound depth text value rest →
        Reads form depth text value rest)
    (read : itemsWithin .full (bound + 1) depth text = .ok (items, rest)) :
    Reads .items depth text (.array items) rest := by
  rw [itemsWithin] at read
  cases first : valueWithin .full bound depth text with
  | error fault => simp [first, bind, Except.bind] at read
  | ok found =>
      obtain ⟨item, behind⟩ := found
      simp only [first, bind, Except.bind] at read
      split at read
      · next closed =>
        cases read
        exact .lastItem (below first) closed
      · next more separated =>
        cases begun : afterComma .full ']' more with
        | error fault => simp [begun] at read
        | ok start =>
            simp only [begun] at read
            cases later : itemsWithin .full bound depth start with
            | error fault => simp [later] at read
            | ok others =>
                obtain ⟨items', final⟩ := others
                simp only [later] at read
                cases read
                exact .nextItem (below first) separated begun (below later)
      · cases read
      · cases read

theorem reads_members_of_within
    {bound depth : Nat} {text rest : List Char} {members : List (String × Json)}
    (below : ∀ {form : Form} {depth : Nat} {text rest : List Char} {value : Json},
      Finishes .full form bound depth text value rest →
        Reads form depth text value rest)
    (read : membersWithin .full (bound + 1) depth text = .ok (members, rest)) :
    Reads .members depth text (.object members) rest := by
  rw [membersWithin] at read
  cases named : memberName .full text with
  | error fault => simp [named, bind, Except.bind] at read
  | ok labelled =>
  obtain ⟨name, start⟩ := labelled
  simp only [named, bind, Except.bind] at read
  cases first : valueWithin .full bound depth start with
  | error fault => simp [first] at read
  | ok found =>
      obtain ⟨value, behind⟩ := found
      simp only [first] at read
      split at read
      · next closed =>
        cases read
        exact .lastMember named (below first) closed
      · next more separated =>
        cases begun : afterComma .full '}' more with
        | error fault => simp [begun] at read
        | ok next =>
            simp only [begun] at read
            cases later : membersWithin .full bound depth next with
            | error fault => simp [later] at read
            | ok others =>
                obtain ⟨members', final⟩ := others
                simp only [later] at read
                cases read
                exact .nextMember named (below first) separated begun (below later)
      · cases read
      · cases read

/-- A reading in full that succeeds follows the rules. -/
theorem reads_of_finishes
    {form : Form} {bound depth : Nat} {text rest : List Char} {value : Json}
    (finishes : Finishes .full form bound depth text value rest) :
    Reads form depth text value rest := by
  induction bound generalizing form depth text value rest with
  | zero =>
      cases form with
      | value => cases finishes
      | items => cases value <;> cases finishes
      | members => cases value <;> cases finishes
  | succ bound inductionHypothesis =>
      cases form with
      | value => exact reads_value_of_within inductionHypothesis finishes
      | items =>
          cases value with
          | array items => exact reads_items_of_within inductionHypothesis finishes
          | _ => cases finishes
      | members =>
          cases value with
          | object members => exact reads_members_of_within inductionHypothesis finishes
          | _ => cases finishes

/-- A whole text that is read follows the rules up to its end. -/
theorem exists_reads_of_readWithin
    {depth : Nat} {text : List Char} {value : Json}
    (read : readWithin depth text = .ok value) :
    ∃ rest, Reads .value depth text value rest ∧ finish rest = .ok () := by
  unfold readWithin at read
  cases whole : valueWithin .full (stepBound text) depth text with
  | error fault => simp [whole, bind, Except.bind] at read
  | ok found =>
      obtain ⟨value', rest⟩ := found
      cases finished : finish rest with
      | error fault => simp [whole, finished, bind, Except.bind] at read
      | ok done =>
          simp only [whole, finished, bind, Except.bind, pure, Except.pure,
            Except.ok.injEq] at read
          subst read
          exact ⟨rest, @reads_of_finishes .value _ _ _ _ _ whole, finished⟩

/-! ## Bounds on the number of steps -/

theorem Reads.length_lt
    {form : Form} {depth : Nat} {text rest : List Char} {value : Json}
    (reads : Reads form depth text value rest) :
    rest.length < text.length := by
  induction reads with
  | @scalar _ text _ _ read =>
      exact Nat.lt_of_lt_of_le (scalar_skim read).2.1 (length_skipSpace text)
  | @emptyArray _ text behind _ _ opened closed
  | @emptyObject _ text behind _ _ opened closed =>
      have before := length_skipSpace text
      have within := length_skipSpace behind
      rw [opened, List.length_cons] at before
      rw [closed, List.length_cons] at within
      omega
  | @array _ text behind _ _ _ opened _ _ inner
  | @object _ text behind _ _ _ opened _ _ inner =>
      have before := length_skipSpace text
      have within := length_skipSpace behind
      rw [opened, List.length_cons] at before
      omega
  | @lastItem _ _ behind _ _ _ closed inner =>
      have after := length_skipSpace behind
      rw [closed, List.length_cons] at after
      omega
  | nextItem _ separated next _ first later =>
      have started := length_lt_of_afterComma separated next
      omega
  | @lastMember _ _ _ behind _ _ _ named _ closed inner =>
      have after := length_skipSpace behind
      have labelled := (memberName_of_full named .full).2
      rw [closed, List.length_cons] at after
      omega
  | nextMember named _ separated begun _ first later =>
      have labelled := (memberName_of_full named .full).2
      have started := length_lt_of_afterComma separated begun
      omega

/-! ## How deep a value is nested -/

mutual

/-- The number of containers around the innermost part of a value. -/
def height : Json → Nat
  | .array items => heightOfItems items + 1
  | .object members => heightOfMembers members + 1
  | _ => 0

def heightOfItems : List Json → Nat
  | [] => 0
  | item :: rest => max item.height (heightOfItems rest)

def heightOfMembers : List (String × Json) → Nat
  | [] => 0
  | (_, value) :: rest => max value.height (heightOfMembers rest)

end

/-- A limit that allows for the containers of a value. Items and members have their container
behind them already. -/
def Fits (form : Form) (value : Json) (limit : Nat) : Prop :=
  match form with
  | .value => value.height < limit
  | .items => value.height ≤ limit
  | .members => value.height ≤ limit

/-- A value is read under every limit that it fits. -/
theorem Reads.of_fits
    {form : Form} {depth limit : Nat} {text rest : List Char} {value : Json}
    (reads : Reads form depth text value rest)
    (fits : Fits form value limit) :
    Reads form limit text value rest := by
  induction reads generalizing limit with
  | scalar read => exact .scalar read
  | emptyArray _ opened closed =>
      simp only [Fits, height, heightOfItems] at fits
      exact .emptyArray (by omega) opened closed
  | array _ opened notClosed _ inductionHypothesis =>
      simp only [Fits, height] at fits inductionHypothesis
      exact .array (by omega) opened notClosed (inductionHypothesis (by omega))
  | emptyObject _ opened closed =>
      simp only [Fits, height, heightOfMembers] at fits
      exact .emptyObject (by omega) opened closed
  | object _ opened notClosed _ inductionHypothesis =>
      simp only [Fits, height] at fits inductionHypothesis
      exact .object (by omega) opened notClosed (inductionHypothesis (by omega))
  | lastItem _ closed inductionHypothesis =>
      simp only [Fits, height, heightOfItems] at fits inductionHypothesis
      exact .lastItem (inductionHypothesis (by omega)) closed
  | nextItem _ separated next _ firstHypothesis laterHypothesis =>
      simp only [Fits, height, heightOfItems] at fits firstHypothesis laterHypothesis
      exact .nextItem (firstHypothesis (by omega)) separated next
        (laterHypothesis (by omega))
  | lastMember named _ closed inductionHypothesis =>
      simp only [Fits, height, heightOfMembers] at fits inductionHypothesis
      exact .lastMember named (inductionHypothesis (by omega)) closed
  | nextMember named _ separated begun _ firstHypothesis laterHypothesis =>
      simp only [Fits, height, heightOfMembers] at fits firstHypothesis laterHypothesis
      exact .nextMember named (firstHypothesis (by omega)) separated begun
        (laterHypothesis (by omega))

/-! ## Enough steps -/

/-- More steps than a reading of the given form takes: a container costs one step for its brackets
and one for each of its items, which stand for two characters at least. -/
def stepsFor (form : Form) (text : List Char) : Nat :=
  match form with
  | .value => 2 * text.length
  | .items => 2 * text.length + 1
  | .members => 2 * text.length + 1

/-- With enough steps a reading in full gives the value, and passing over the text, whatever its
limit, stops at the same place. -/
def Succeeds (form : Form) (depth : Nat) (text : List Char) (value : Json)
    (rest : List Char) : Prop :=
  ∀ (care : Care) (limit bound : Nat),
    (care = .full → limit = depth) →
      stepsFor form text ≤ bound →
        ∃ found, (care = .full → found = value) ∧
          Finishes care form bound limit text found rest

section Rules

variable {depth : Nat} {text start behind more next rest : List Char}
variable {name : String} {value : Json}
variable {items : List Json} {members : List (String × Json)}

theorem not_shallow
    {care : Care} {limit : Nat}
    (deep : 1 < depth) (sameLimit : care = .full → limit = depth) :
    ¬ (care = .full ∧ limit ≤ 1) := by
  rintro ⟨full, shallow⟩
  rw [sameLimit full] at shallow
  exact absurd deep (Nat.not_lt.mpr shallow)

theorem succeeds_scalar
    (read : scalar .full (skipSpace text) = .ok (value, rest)) :
    Succeeds .value depth text value rest := by
  intro care limit bound sameLimit enough
  have shorter := (scalar_skim read).2.1
  have spaced := length_skipSpace text
  obtain ⟨fewer, rfl⟩ : ∃ fewer, bound = fewer + 1 :=
    Nat.exists_eq_add_one_of_ne_zero (by simp only [stepsFor] at enough; omega)
  have same : valueWithin care (fewer + 1) limit text = scalar care (skipSpace text) := by
    rw [valueWithin]
    split
    · next opened =>
      rw [opened] at read
      cases read
    · next opened =>
      rw [opened] at read
      cases read
    · rfl
  cases care with
  | full => exact ⟨value, fun _ => rfl, same.trans read⟩
  | skim =>
      obtain ⟨⟨other, skimmed⟩, _⟩ := scalar_skim read
      exact ⟨other, by simp, same.trans skimmed⟩

theorem succeeds_emptyArray
    (deep : 1 < depth)
    (opened : skipSpace text = '[' :: behind)
    (closed : skipSpace behind = ']' :: rest) :
    Succeeds .value depth text (.array []) rest := by
  intro care limit bound sameLimit enough
  have spaced := length_skipSpace text
  rw [opened, List.length_cons] at spaced
  obtain ⟨fewer, rfl⟩ : ∃ fewer, bound = fewer + 1 :=
    Nat.exists_eq_add_one_of_ne_zero (by simp only [stepsFor] at enough; omega)
  refine ⟨.array [], fun _ => rfl, ?_⟩
  simp only [Finishes, valueWithin, opened, closed, if_neg (not_shallow deep sameLimit)]

theorem succeeds_emptyObject
    (deep : 1 < depth)
    (opened : skipSpace text = '{' :: behind)
    (closed : skipSpace behind = '}' :: rest) :
    Succeeds .value depth text (.object []) rest := by
  intro care limit bound sameLimit enough
  have spaced := length_skipSpace text
  rw [opened, List.length_cons] at spaced
  obtain ⟨fewer, rfl⟩ : ∃ fewer, bound = fewer + 1 :=
    Nat.exists_eq_add_one_of_ne_zero (by simp only [stepsFor] at enough; omega)
  refine ⟨.object [], fun _ => rfl, ?_⟩
  simp only [Finishes, valueWithin, opened, closed, if_neg (not_shallow deep sameLimit)]

theorem Succeeds.array
    (deep : 1 < depth)
    (opened : skipSpace text = '[' :: behind)
    (notClosed : ∀ others, skipSpace behind ≠ ']' :: others)
    (some : skipSpace behind ≠ [])
    (inner : Succeeds .items (depth - 1) (skipSpace behind) (.array items) rest) :
    Succeeds .value depth text (.array items) rest := by
  intro care limit bound sameLimit enough
  have before := length_skipSpace text
  have within := length_skipSpace behind
  rw [opened, List.length_cons] at before
  simp only [stepsFor] at enough
  obtain ⟨fewer, rfl⟩ : ∃ fewer, bound = fewer + 1 :=
    Nat.exists_eq_add_one_of_ne_zero (by omega)
  obtain ⟨found, same, finishes⟩ :=
    inner care (limit - 1) fewer (fun full => by rw [sameLimit full])
      (by simp only [stepsFor]; omega)
  cases found with
  | array found =>
      refine ⟨.array found, same, ?_⟩
      simp only [Finishes] at finishes ⊢
      simp only [valueWithin, opened, if_neg (not_shallow deep sameLimit), finishes]
      rfl
  | _ => cases finishes

theorem Succeeds.object
    (deep : 1 < depth)
    (opened : skipSpace text = '{' :: behind)
    (notClosed : ∀ others, skipSpace behind ≠ '}' :: others)
    (some : skipSpace behind ≠ [])
    (inner : Succeeds .members (depth - 1) (skipSpace behind) (.object members) rest) :
    Succeeds .value depth text (.object members) rest := by
  intro care limit bound sameLimit enough
  have before := length_skipSpace text
  have within := length_skipSpace behind
  rw [opened, List.length_cons] at before
  simp only [stepsFor] at enough
  obtain ⟨fewer, rfl⟩ : ∃ fewer, bound = fewer + 1 :=
    Nat.exists_eq_add_one_of_ne_zero (by omega)
  obtain ⟨found, same, finishes⟩ :=
    inner care (limit - 1) fewer (fun full => by rw [sameLimit full])
      (by simp only [stepsFor]; omega)
  cases found with
  | object found =>
      refine ⟨.object found, same, ?_⟩
      simp only [Finishes] at finishes ⊢
      simp only [valueWithin, opened, if_neg (not_shallow deep sameLimit), finishes]
      rfl
  | _ => cases finishes

theorem Succeeds.lastItem
    (first : Succeeds .value depth text value behind)
    (closed : skipSpace behind = ']' :: rest) :
    Succeeds .items depth text (.array [value]) rest := by
  intro care limit bound sameLimit enough
  simp only [stepsFor] at enough
  obtain ⟨fewer, rfl⟩ : ∃ fewer, bound = fewer + 1 :=
    Nat.exists_eq_add_one_of_ne_zero (by omega)
  obtain ⟨found, same, finishes⟩ :=
    first care limit fewer sameLimit (by simp only [stepsFor]; omega)
  refine ⟨.array [found], fun full => by rw [same full], ?_⟩
  simp only [Finishes] at finishes ⊢
  simp [itemsWithin, finishes, closed, bind, Except.bind, pure, Except.pure]

theorem Succeeds.nextItem
    (first : Succeeds .value depth text value behind)
    (shorter : behind.length < text.length)
    (separated : skipSpace behind = ',' :: more)
    (begun : afterComma .full ']' more = .ok next)
    (later : Succeeds .items depth next (.array items) rest) :
    Succeeds .items depth text (.array (value :: items)) rest := by
  intro care limit bound sameLimit enough
  simp only [stepsFor] at enough
  obtain ⟨fewer, rfl⟩ : ∃ fewer, bound = fewer + 1 :=
    Nat.exists_eq_add_one_of_ne_zero (by omega)
  have left := length_lt_of_afterComma separated begun
  obtain ⟨started, _⟩ := afterComma_of_full begun care
  obtain ⟨found, same, finishes⟩ :=
    first care limit fewer sameLimit (by simp only [stepsFor]; omega)
  obtain ⟨others, sameOthers, othersFinish⟩ :=
    later care limit fewer sameLimit (by simp only [stepsFor]; omega)
  cases others with
  | array others =>
      refine ⟨.array (found :: others), fun full => ?_, ?_⟩
      · rw [same full, Json.array.inj (sameOthers full)]
      · simp only [Finishes] at finishes othersFinish ⊢
        simp [itemsWithin, finishes, separated, started, othersFinish, bind, Except.bind,
          pure, Except.pure]
  | _ => cases othersFinish

theorem Succeeds.lastMember
    (named : memberName .full text = .ok (name, start))
    (first : Succeeds .value depth start value behind)
    (closed : skipSpace behind = '}' :: rest) :
    Succeeds .members depth text (.object [(name, value)]) rest := by
  intro care limit bound sameLimit enough
  simp only [stepsFor] at enough
  obtain ⟨fewer, rfl⟩ : ∃ fewer, bound = fewer + 1 :=
    Nat.exists_eq_add_one_of_ne_zero (by omega)
  obtain ⟨⟨label, sameName, labelled⟩, shorter⟩ := memberName_of_full named care
  obtain ⟨found, same, finishes⟩ :=
    first care limit fewer sameLimit (by simp only [stepsFor]; omega)
  refine ⟨.object [(label, found)], fun full => by rw [same full, sameName full], ?_⟩
  simp only [Finishes] at finishes ⊢
  simp [membersWithin, labelled, finishes, closed, bind, Except.bind, pure, Except.pure]

theorem Succeeds.nextMember
    (named : memberName .full text = .ok (name, start))
    (first : Succeeds .value depth start value behind)
    (shorter : behind.length < start.length)
    (separated : skipSpace behind = ',' :: more)
    (begun : afterComma .full '}' more = .ok next)
    (later : Succeeds .members depth next (.object members) rest) :
    Succeeds .members depth text (.object ((name, value) :: members)) rest := by
  intro care limit bound sameLimit enough
  simp only [stepsFor] at enough
  obtain ⟨fewer, rfl⟩ : ∃ fewer, bound = fewer + 1 :=
    Nat.exists_eq_add_one_of_ne_zero (by omega)
  obtain ⟨⟨label, sameName, labelled⟩, nameShorter⟩ := memberName_of_full named care
  have left := length_lt_of_afterComma separated begun
  obtain ⟨started, _⟩ := afterComma_of_full begun care
  obtain ⟨found, same, finishes⟩ :=
    first care limit fewer sameLimit (by simp only [stepsFor]; omega)
  obtain ⟨others, sameOthers, othersFinish⟩ :=
    later care limit fewer sameLimit (by simp only [stepsFor]; omega)
  cases others with
  | object others =>
      refine ⟨.object ((label, found) :: others), fun full => ?_, ?_⟩
      · rw [same full, sameName full, Json.object.inj (sameOthers full)]
      · simp only [Finishes] at finishes othersFinish ⊢
        simp [membersWithin, labelled, finishes, separated, started, othersFinish, bind,
          Except.bind, pure, Except.pure]
  | _ => cases othersFinish

end Rules

theorem Reads.text_ne_nil
    {form : Form} {depth : Nat} {text rest : List Char} {value : Json}
    (reads : Reads form depth text value rest) :
    text ≠ [] :=
  List.ne_nil_of_length_pos (Nat.zero_lt_of_lt reads.length_lt)

/-- A reading that follows the rules succeeds, and so does passing over the same text, however deep
it is nested. -/
theorem Reads.succeeds
    {form : Form} {depth : Nat} {text rest : List Char} {value : Json}
    (reads : Reads form depth text value rest) :
    Succeeds form depth text value rest := by
  induction reads with
  | scalar read => exact succeeds_scalar read
  | emptyArray deep opened closed => exact succeeds_emptyArray deep opened closed
  | array deep opened notClosed read inner =>
      exact .array deep opened notClosed read.text_ne_nil inner
  | emptyObject deep opened closed => exact succeeds_emptyObject deep opened closed
  | object deep opened notClosed read inner =>
      exact .object deep opened notClosed read.text_ne_nil inner
  | lastItem _ closed first => exact first.lastItem closed
  | nextItem read separated begun _ first later =>
      exact first.nextItem read.length_lt separated begun later
  | lastMember named _ closed first => exact .lastMember named first closed
  | nextMember named read separated begun _ first later =>
      exact .nextMember named first read.length_lt separated begun later

theorem Finishes.unique
    {care : Care} {form : Form} {bound depth : Nat} {text rest rest' : List Char}
    {value value' : Json}
    (left : Finishes care form bound depth text value rest)
    (right : Finishes care form bound depth text value' rest') :
    value = value' ∧ rest = rest' := by
  cases form with
  | value =>
      simp only [Finishes] at left right
      simpa [left] using right
  | items =>
      cases value with
      | array items =>
          cases value' with
          | array items' =>
              simp only [Finishes] at left right
              simpa [left] using right
          | _ => cases right
      | _ => cases left
  | members =>
      cases value with
      | object members =>
          cases value' with
          | object members' =>
              simp only [Finishes] at left right
              simpa [left] using right
          | _ => cases right
      | _ => cases left

/-- A text is read as one value at most, whatever the limits. -/
theorem Reads.unique
    {form : Form} {depth otherDepth : Nat} {text rest rest' : List Char} {value value' : Json}
    (reads : Reads form depth text value rest)
    (alsoReads : Reads form otherDepth text value' rest') :
    value = value' ∧ rest = rest' := by
  have fits (value : Json) {limit : Nat} (below : value.height < limit) :
      Fits form value limit := by
    cases form with
    | value => exact below
    | items => exact Nat.le_of_lt below
    | members => exact Nat.le_of_lt below
  -- Both are readings under a limit that is large enough for both values.
  have left :=
    reads.of_fits (fits value (Nat.lt_succ_of_le (Nat.le_max_left _ value'.height)))
  have right :=
    alsoReads.of_fits (fits value' (Nat.lt_succ_of_le (Nat.le_max_right value.height _)))
  obtain ⟨found, same, finishes⟩ := left.succeeds .full _ _ (fun _ => rfl) (Nat.le_refl _)
  obtain ⟨found', same', finishes'⟩ := right.succeeds .full _ _ (fun _ => rfl) (Nat.le_refl _)
  obtain rfl := same rfl
  obtain rfl := same' rfl
  exact finishes.unique finishes'

end MplServer.Json
