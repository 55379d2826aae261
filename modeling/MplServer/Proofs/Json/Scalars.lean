import MplServer.Json.Reader

/-!
# Scalars read in full and passed over

Where a scalar is read in full, passing it over stops at the same place. The text behind a scalar is
shorter than the text before it.
-/

namespace MplServer.Json

/-! ## Words -/

theorem literal_eq_ok_iff
    {value read : Json} {word text rest : List Char} :
    literal value word text = .ok (read, rest) ↔ read = value ∧ text = word ++ rest := by
  induction word generalizing text with
  | nil =>
      rw [literal, Except.ok.injEq, Prod.mk.injEq]
      exact and_congr eq_comm Iff.rfl
  | cons expected more inductionHypothesis =>
      cases text with
      | nil => simp [literal, faultBefore]
      | cons c behind =>
          rw [literal]
          by_cases same : c = expected
          · rw [if_pos same, inductionHypothesis, same]
            simp
          · rw [if_neg same]
            simp [faultAt, same]

/-! ## Strings -/

/-- Characters that an escape has used are passed over. -/
theorem stringFrom_eq_drop (care : Care) (skip : Nat) (text : List Char) :
    stringFrom care skip text = stringFrom care 0 (text.drop skip) := by
  induction skip generalizing text with
  | zero => rfl
  | succ fewer inductionHypothesis =>
      cases text with
      | nil => simp [stringFrom]
      | cons c rest =>
          rw [stringFrom, inductionHypothesis]
          rfl

/-- An escape by code takes four digits, or a second escape with four more. -/
theorem codeEscape_cases
    {text : List Char} {decoded : Char} {used : Nat}
    (read : codeEscape text = .ok (decoded, used)) :
    (∃ code, hexCode text = .ok code) ∧
      (used = 4 ∨
        used = 10 ∧ ∃ more code,
          text.drop 4 = '\\' :: 'u' :: more ∧ hexCode more = .ok code) := by
  unfold codeEscape at read
  cases first : hexCode text with
  | error fault => simp [first, bind, Except.bind] at read
  | ok code =>
      refine ⟨⟨code, rfl⟩, ?_⟩
      simp only [first, bind, Except.bind] at read
      split at read
      · cases read
      · split at read
        · cases read
          exact Or.inl rfl
        · split at read
          · cases read
          · cases read
          · next more behind =>
            cases second : hexCode more with
            | error fault => simp [second] at read
            | ok low =>
                simp only [second] at read
                split at read
                · cases read
                · simp only [pure, Except.pure, Except.ok.injEq, Prod.mk.injEq] at read
                  exact Or.inr ⟨read.2.symm, more, low, behind, second⟩
          · cases read
          · cases read

/-- Passing over an escape takes the same characters, or the first half of a pair. -/
theorem escape_skim_cases
    {text : List Char} {decoded : Char} {used : Nat}
    (read : escape .full text = .ok (decoded, used)) :
    (∃ other, escape .skim text = .ok (other, used)) ∨
      used = 11 ∧ escape .skim text = .ok ('u', 5) ∧
        ∃ more code,
          text.drop 5 = '\\' :: 'u' :: more ∧ hexCode more = .ok code := by
  cases text with
  | nil => cases read
  | cons c rest =>
      by_cases byCode : c = 'u'
      · subst byCode
        have full :
            escape .full ('u' :: rest) =
              (codeEscape rest).map fun found => (found.1, found.2 + 1) := rfl
        have skimmed :
            escape .skim ('u' :: rest) = (hexCode rest).map fun _ => ('u', 5) := rfl
        rw [full] at read
        cases inner : codeEscape rest with
        | error fault => simp [inner, Except.map] at read
        | ok outcome =>
            obtain ⟨character, taken⟩ := outcome
            obtain ⟨⟨code, first⟩, used_cases⟩ := codeEscape_cases inner
            rw [inner, Except.map, Except.ok.injEq, Prod.mk.injEq] at read
            rw [skimmed, first]
            rcases used_cases with single | ⟨double, more, low, behind, second⟩
            · exact Or.inl ⟨'u', by rw [← read.2, single]; rfl⟩
            · exact Or.inr ⟨by rw [← read.2, double], rfl, more, low, behind, second⟩
      · left
        refine ⟨decoded, ?_⟩
        rw [← read]
        simp [escape, byCode]

/-- An escape that is passed over leaves the end of the string where it is. -/
theorem stringFrom_skim_escape
    {text others rest : List Char} {decoded : Char} {used : Nat}
    (escaped : escape .full text = .ok (decoded, used))
    (skimmed : stringFrom .skim 0 (text.drop used) = .ok (others, rest)) :
    ∃ characters, stringFrom .skim 0 ('\\' :: text) = .ok (characters, rest) := by
  rw [stringFrom, if_neg (by decide), if_pos rfl]
  rcases escape_skim_cases escaped with
    ⟨other, same⟩ | ⟨double, half, next, code, pair, second⟩
  · refine ⟨other :: others, ?_⟩
    simp [same, stringFrom_eq_drop .skim used, skimmed, Except.map]
  · -- The second escape of the pair is passed over by itself.
    have behindPair : text.drop used = next.drop 4 := by
      rw [double, show (11 : Nat) = 5 + 6 from rfl, ← List.drop_drop, pair]
      rfl
    have secondHalf : escape .skim ('u' :: next) = .ok ('u', 5) := by
      have unfolded :
          escape .skim ('u' :: next) = (hexCode next).map fun _ => ('u', 5) := rfl
      rw [unfolded, second]
      rfl
    rw [behindPair] at skimmed
    refine ⟨'u' :: 'u' :: others, ?_⟩
    simp only [half, stringFrom_eq_drop .skim 5, pair]
    rw [stringFrom, if_neg (by decide), if_pos rfl, secondHalf]
    simp [stringFrom_eq_drop .skim 5, skimmed, Except.map]

/-- The end of a string is found whether or not its escapes form characters. -/
theorem stringFrom_skim
    {text characters rest : List Char}
    (read : stringFrom .full 0 text = .ok (characters, rest)) :
    (∃ others, stringFrom .skim 0 text = .ok (others, rest)) ∧
      rest.length < text.length := by
  induction bound : text.length using Nat.strongRecOn generalizing text characters with
  | ind size inductionHypothesis =>
  subst bound
  cases text with
  | nil => cases read
  | cons c behind =>
      rw [stringFrom] at read
      by_cases quote : c = '"'
      · rw [if_pos quote] at read
        cases read
        exact ⟨⟨[], by rw [stringFrom, if_pos quote]⟩, Nat.lt_succ_self _⟩
      rw [if_neg quote] at read
      by_cases backslash : c = '\\'
      · rw [if_pos backslash] at read
        cases escaped : escape .full behind with
        | error fault => simp [escaped] at read
        | ok outcome =>
            obtain ⟨decoded, used⟩ := outcome
            simp only [escaped, stringFrom_eq_drop .full used] at read
            cases later : stringFrom .full 0 (behind.drop used) with
            | error fault => simp [later, Except.map] at read
            | ok found =>
                obtain ⟨more, final⟩ := found
                simp only [later, Except.map, Except.ok.injEq, Prod.mk.injEq] at read
                obtain ⟨_, rfl⟩ := read
                have dropped : (behind.drop used).length < (c :: behind).length := by
                  rw [List.length_drop, List.length_cons]
                  omega
                obtain ⟨⟨others, skimmed⟩, shorter⟩ :=
                  inductionHypothesis _ dropped later rfl
                rw [backslash]
                exact ⟨stringFrom_skim_escape escaped skimmed,
                  Nat.lt_trans shorter dropped⟩
      rw [if_neg backslash] at read
      by_cases control : c.toNat < 32
      · rw [if_pos control] at read
        cases read
      rw [if_neg control] at read
      cases later : stringFrom .full 0 behind with
      | error fault => simp [later, Except.map] at read
      | ok found =>
          obtain ⟨more, final⟩ := found
          simp only [later, Except.map, Except.ok.injEq, Prod.mk.injEq] at read
          obtain ⟨_, rfl⟩ := read
          obtain ⟨⟨others, skimmed⟩, shorter⟩ :=
            inductionHypothesis _ (Nat.lt_succ_self _) later rfl
          refine ⟨⟨c :: others, ?_⟩, Nat.lt_succ_of_lt shorter⟩
          rw [stringFrom, if_neg quote, if_neg backslash, if_neg control, skimmed]
          rfl

/-! ## Numbers -/

theorem absorb_rest (value taken : Nat) (text : List Char) :
    (absorb value taken text).2.2.dropWhile Char.isDigit = text.dropWhile Char.isDigit := by
  induction text generalizing value taken with
  | nil => rfl
  | cons c rest inductionHypothesis =>
      rw [absorb]
      split
      · next taking =>
        rw [Bool.and_eq_true] at taking
        rw [inductionHypothesis, List.dropWhile_cons, if_pos taking.1]
      · rfl

theorem absorbExponent_rest (value : Nat) (text : List Char) :
    (absorbExponent value text).2.dropWhile Char.isDigit = text.dropWhile Char.isDigit := by
  induction text generalizing value with
  | nil => rfl
  | cons c rest inductionHypothesis =>
      rw [absorbExponent]
      split
      · next taking =>
        rw [Bool.and_eq_true] at taking
        rw [inductionHypothesis, List.dropWhile_cons, if_pos taking.1]
      · rfl

theorem scaled_rest
    {negative : Bool} {significand : Nat} {exponent : Int}
    {text rest : List Char} {value : Json}
    (read : scaled negative significand exponent text = .ok (value, rest)) :
    rest = text ∧ ∃ number, value = .float number := by
  have whenOk
      {number : Binary64}
      (same : (Except.ok (signed negative number, text) : Reading Json) =
        .ok (value, rest)) :
      rest = text ∧ ∃ number, value = .float number := by
    rw [Except.ok.injEq, Prod.mk.injEq] at same
    exact ⟨same.2.symm, _, same.1.symm⟩
  unfold scaled at read
  dsimp only at read
  split at read
  · split at read
    · exact whenOk read
    · split at read <;> exact whenOk read
  · split at read
    · exact whenOk read
    · split at read
      · cases read
      · split at read
        · exact whenOk read
        · cases read

theorem exponentDigits_rest
    {negative down : Bool} {significand : Nat} {exponent : Int}
    {digits rest : List Char} {value : Json}
    (read : exponentDigits negative significand exponent down digits = .ok (value, rest)) :
    (∃ c more, digits = c :: more ∧ c.isDigit = true ∧
      rest = more.dropWhile Char.isDigit) ∧
      ∃ number, value = .float number := by
  cases digits with
  | nil => cases read
  | cons c more =>
      unfold exponentDigits at read
      by_cases isDigit : c.isDigit = true
      · have behind := absorbExponent_rest 0 (c :: more)
        rw [List.dropWhile_cons, if_pos isDigit] at behind
        suffices rest_eq :
            rest = (absorbExponent 0 (c :: more)).2.dropWhile Char.isDigit ∧
              ∃ number, value = .float number by
          exact ⟨⟨c, more, rfl, isDigit, rest_eq.1.trans behind⟩, rest_eq.2⟩
        simp only [isDigit, Bool.not_true, Bool.false_eq_true, if_false] at read
        cases left : (absorbExponent 0 (c :: more)).2 with
        | nil =>
            simp only [left] at read
            exact scaled_rest read
        | cons next others =>
            simp only [left] at read
            by_cases nextDigit : next.isDigit = true
            · rw [if_pos nextDigit] at read
              split at read
              · cases read
              · rw [Except.ok.injEq, Prod.mk.injEq] at read
                rw [List.dropWhile_cons, if_pos nextDigit]
                exact ⟨read.2.symm, _, read.1.symm⟩
            · rw [if_neg nextDigit] at read
              rw [List.dropWhile_cons, if_neg nextDigit]
              exact scaled_rest read
      · rw [Bool.not_eq_true] at isDigit
        simp only [isDigit, Bool.not_false, if_true] at read
        cases read

theorem exponentPart_skim
    {negative : Bool} {significand : Nat} {exponent : Int}
    {text rest : List Char} {value : Json}
    (read : exponentPart negative significand exponent text = .ok (value, rest)) :
    skimExponent text = .ok (.null, rest) ∧ ∃ number, value = .float number := by
  have afterSign :
      exponentDigits negative significand exponent (exponentSign text).1
        (exponentSign text).2 = .ok (value, rest) := read
  obtain ⟨⟨c, more, digits_eq, isDigit, rfl⟩, float⟩ := exponentDigits_rest afterSign
  refine ⟨?_, float⟩
  rw [skimExponent, digits_eq]
  exact if_pos isDigit

theorem tail_skim
    {negative : Bool} {significand : Nat} {exponent : Int}
    {text rest : List Char} {value : Json}
    (read : tail negative significand exponent text = .ok (value, rest)) :
    skimTail text = .ok (.null, rest) ∧ ∃ number, value = .float number := by
  cases text with
  | nil =>
      obtain ⟨rfl, float⟩ := scaled_rest read
      exact ⟨rfl, float⟩
  | cons c behind =>
      rw [tail] at read
      rw [skimTail]
      by_cases mark : (c = 'e' || c = 'E') = true
      · rw [if_pos mark] at read ⊢
        exact exponentPart_skim read
      · rw [if_neg mark] at read ⊢
        obtain ⟨rfl, float⟩ := scaled_rest read
        exact ⟨rfl, float⟩

theorem fraction_skim
    {negative : Bool} {significand : Nat} {exponent : Int}
    {text rest : List Char} {value : Json}
    (read : fraction negative significand exponent text = .ok (value, rest)) :
    skimAfterWhole ('.' :: text) = .ok (.null, rest) ∧
      ∃ number, value = .float number := by
  cases text with
  | nil => cases read
  | cons c behind =>
      unfold fraction at read
      by_cases isDigit : c.isDigit = true
      · simp only [isDigit, Bool.not_true, Bool.false_eq_true, if_false,
          absorb_rest] at read
        obtain ⟨skimmed, float⟩ := tail_skim read
        refine ⟨?_, float⟩
        rw [skimAfterWhole]
        exact (if_pos isDigit).trans skimmed
      · rw [Bool.not_eq_true] at isDigit
        simp only [isDigit, Bool.not_false, if_true] at read
        cases read

/-- A value that is neither an array nor an object. -/
def IsScalar (value : Json) : Prop :=
  (∀ items, value ≠ .array items) ∧ ∀ members, value ≠ .object members

theorem isScalar_of_float
    {value : Json} (float : ∃ number, value = .float number) :
    value.IsScalar := by
  obtain ⟨number, rfl⟩ := float
  constructor <;> simp

theorem skimAfterWhole_of_ne_point
    {text : List Char} (noPoint : ∀ behind, text ≠ '.' :: behind) :
    skimAfterWhole text = skimTail text := by
  unfold skimAfterWhole
  split
  · next digits => exact absurd rfl (noPoint digits)
  · rfl

theorem afterWhole_skim
    {negative : Bool} {significand : Nat} {text rest : List Char} {value : Json}
    (read : afterWhole negative significand text = .ok (value, rest)) :
    skimAfterWhole text = .ok (.null, rest) ∧ value.IsScalar := by
  have wholeIsScalar :
      (afterWhole.wholeNumber negative significand).IsScalar := by
    unfold afterWhole.wholeNumber IsScalar signed
    split
    · simp
    · split <;> simp
  unfold afterWhole at read
  split at read
  · next digits =>
    obtain ⟨skimmed, float⟩ := fraction_skim read
    exact ⟨skimmed, isScalar_of_float float⟩
  · next c behind noPoint =>
    have differs (digits : List Char) : c :: behind ≠ '.' :: digits :=
      fun same => noPoint (List.cons.inj same).1
    rw [skimAfterWhole_of_ne_point differs, skimTail]
    split at read
    · next mark =>
      obtain ⟨skimmed, float⟩ := exponentPart_skim read
      rw [if_pos mark]
      exact ⟨skimmed, isScalar_of_float float⟩
    · next noMark =>
      rw [if_neg noMark]
      rw [Except.ok.injEq, Prod.mk.injEq] at read
      obtain ⟨rfl, rfl⟩ := read
      exact ⟨rfl, wholeIsScalar⟩
  · rw [Except.ok.injEq, Prod.mk.injEq] at read
    obtain ⟨rfl, rfl⟩ := read
    exact ⟨rfl, wholeIsScalar⟩

theorem skimNumber_of_ne_zero
    {c : Char} {behind : List Char}
    (notZero : c ≠ '0') (isDigit : c.isDigit = true) :
    skimNumber (c :: behind) = skimAfterWhole (behind.dropWhile Char.isDigit) := by
  unfold skimNumber
  split
  · next empty => cases empty
  · next same => exact absurd (List.cons.inj same).1 notZero
  · next other others _ same =>
    obtain ⟨rfl, rfl⟩ := List.cons.inj same
    simp [isDigit]

theorem number_skim
    {negative : Bool} {text rest : List Char} {value : Json}
    (read : number negative text = .ok (value, rest)) :
    skimNumber text = .ok (.null, rest) ∧ value.IsScalar := by
  unfold number at read
  split at read
  · cases read
  · next behind =>
    split at read
    · next c more =>
      split at read
      · cases read
      · next noDigit =>
        obtain ⟨skimmed, isScalar⟩ := afterWhole_skim read
        refine ⟨?_, isScalar⟩
        rw [skimNumber]
        exact (if_neg noDigit).trans skimmed
    · exact afterWhole_skim read
  · next c behind notZero =>
    by_cases isDigit : c.isDigit = true
    · have digitsLeft := absorb_rest 0 0 (c :: behind)
      rw [List.dropWhile_cons, if_pos isDigit] at digitsLeft
      rw [skimNumber_of_ne_zero notZero isDigit, ← digitsLeft]
      simp only [isDigit, Bool.not_true, Bool.false_eq_true, if_false] at read
      cases left : (absorb 0 0 (c :: behind)).2.2 with
      | nil =>
          simp only [left] at read
          exact afterWhole_skim read
      | cons next others =>
          simp only [left] at read
          by_cases nextDigit : next.isDigit = true
          · rw [if_pos nextDigit] at read
            split at read
            · next digits shape =>
              rw [shape]
              obtain ⟨skimmed, float⟩ := fraction_skim read
              exact ⟨skimmed, isScalar_of_float float⟩
            · next noPoint =>
              rw [skimAfterWhole_of_ne_point noPoint]
              obtain ⟨skimmed, float⟩ := tail_skim read
              exact ⟨skimmed, isScalar_of_float float⟩
          · rw [if_neg nextDigit] at read
            rw [List.dropWhile_cons, if_neg nextDigit]
            exact afterWhole_skim read
    · rw [Bool.not_eq_true] at isDigit
      simp only [isDigit, Bool.not_false, if_true] at read
      cases read

theorem length_skimTail
    {text rest : List Char} {value : Json}
    (read : skimTail text = .ok (value, rest)) :
    rest.length ≤ text.length := by
  have signLength (digits : List Char) :
      (exponentSign digits).2.length ≤ digits.length := by
    unfold exponentSign
    split <;> simp
  unfold skimTail at read
  split at read
  · next c behind =>
    split at read
    · unfold skimExponent at read
      split at read
      · next d more digits_eq =>
        split at read
        · rw [Except.ok.injEq, Prod.mk.injEq] at read
          have bound := signLength behind
          have dropped := (List.dropWhile_suffix Char.isDigit (l := more)).length_le
          rw [digits_eq, List.length_cons] at bound
          rw [← read.2, List.length_cons]
          omega
        · cases read
      · cases read
    · cases read
      exact Nat.le_refl _
  · cases read
    exact Nat.le_refl _

theorem length_skimAfterWhole
    {text rest : List Char} {value : Json}
    (read : skimAfterWhole text = .ok (value, rest)) :
    rest.length ≤ text.length := by
  unfold skimAfterWhole at read
  split at read
  · next digits =>
    split at read
    · next d more =>
      split at read
      · have shorter := length_skimTail read
        have dropped := (List.dropWhile_suffix Char.isDigit (l := d :: more)).length_le
        rw [List.length_cons]
        omega
      · cases read
    · cases read
  · exact length_skimTail read

theorem length_skimNumber
    {text rest : List Char} {value : Json}
    (read : skimNumber text = .ok (value, rest)) :
    rest.length < text.length := by
  unfold skimNumber at read
  split at read
  · cases read
  · split at read
    · split at read
      · cases read
      · exact Nat.lt_succ_of_le (length_skimAfterWhole read)
    · exact Nat.lt_succ_of_le (length_skimAfterWhole read)
  · next c behind _ =>
    split at read
    · cases read
    · have dropped := (List.dropWhile_suffix Char.isDigit (l := behind)).length_le
      exact Nat.lt_succ_of_le (Nat.le_trans (length_skimAfterWhole read) dropped)

/-! ## All scalars -/

theorem quotedString_skim
    {text rest : List Char} {value : String}
    (read : quotedString .full text = .ok (value, rest)) :
    (∃ other, quotedString .skim text = .ok (other, rest)) ∧
      rest.length < text.length := by
  unfold quotedString at read ⊢
  cases characters : stringFrom .full 0 text with
  | error fault => simp [characters, Except.map] at read
  | ok found =>
      obtain ⟨decoded, behind⟩ := found
      simp only [characters, Except.map, Except.ok.injEq, Prod.mk.injEq] at read
      obtain ⟨_, rfl⟩ := read
      obtain ⟨⟨others, skimmed⟩, shorter⟩ := stringFrom_skim characters
      exact ⟨⟨String.ofList others, by rw [skimmed]; rfl⟩, shorter⟩

/-- A scalar is passed over to where it ends when it is read in full. -/
theorem scalar_skim
    {text rest : List Char} {value : Json}
    (read : scalar .full text = .ok (value, rest)) :
    (∃ other, scalar .skim text = .ok (other, rest)) ∧
      rest.length < text.length ∧ value.IsScalar := by
  have word
      {value' : Json} {letters behind : List Char}
      (isScalar : value'.IsScalar)
      (matched : literal value' letters behind = .ok (value, rest)) :
      rest.length < behind.length + 1 ∧ value.IsScalar := by
    obtain ⟨rfl, rfl⟩ := literal_eq_ok_iff.mp matched
    rw [List.length_append]
    exact ⟨by omega, isScalar⟩
  unfold scalar at read
  split at read
  · cases read
  · exact ⟨⟨value, read⟩, word (by simp [IsScalar]) read⟩
  · exact ⟨⟨value, read⟩, word (by simp [IsScalar]) read⟩
  · exact ⟨⟨value, read⟩, word (by simp [IsScalar]) read⟩
  · next behind =>
    cases quoted : quotedString .full behind with
    | error fault => simp [quoted, Except.map] at read
    | ok found =>
        obtain ⟨decoded, final⟩ := found
        simp only [quoted, Except.map, Except.ok.injEq, Prod.mk.injEq] at read
        obtain ⟨rfl, rfl⟩ := read
        obtain ⟨⟨other, skimmed⟩, shorter⟩ := quotedString_skim quoted
        refine ⟨⟨.string other, ?_⟩, Nat.lt_succ_of_lt shorter, by simp [IsScalar]⟩
        rw [scalar, skimmed]
        rfl
  · next behind =>
    obtain ⟨skimmed, isScalar⟩ := number_skim read
    exact ⟨⟨.null, skimmed⟩, Nat.lt_succ_of_lt (length_skimNumber skimmed), isScalar⟩
  · next c behind noNull noTrue noFalse noQuote noMinus =>
    split at read
    · next isDigit =>
      obtain ⟨skimmed, isScalar⟩ := number_skim read
      refine ⟨⟨.null, ?_⟩, length_skimNumber skimmed, isScalar⟩
      rw [← skimmed]
      simp only [scalar]
      exact if_pos isDigit
    · cases read

end MplServer.Json
