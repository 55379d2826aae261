import MplServer.Json.Printer
import MplServer.Proofs.Json.Nesting

/-!
# Written values are read back

A text stands for a value when the rules of reading take it, whatever the bound on its steps. The
written form of a value made of words, strings and containers stands for that value.
-/

namespace MplServer.Json

/-! ## Texts and their values -/

theorem IsScalar.height_eq_zero {value : Json} (isScalar : value.IsScalar) :
    value.height = 0 := by
  cases value with
  | array items => exact absurd rfl (isScalar.1 items)
  | object members => exact absurd rfl (isScalar.2 members)
  | _ => rfl

theorem heightOfItems_le
    {items : List Json} {limit : Nat} (each : ∀ item ∈ items, item.height ≤ limit) :
    heightOfItems items ≤ limit := by
  induction items with
  | nil => exact Nat.zero_le limit
  | cons item rest inductionHypothesis =>
      rw [List.forall_mem_cons] at each
      exact Nat.max_le.mpr ⟨each.1, inductionHypothesis each.2⟩

theorem heightOfMembers_le
    {members : List (String × Json)} {limit : Nat}
    (each : ∀ member ∈ members, member.2.height ≤ limit) :
    heightOfMembers members ≤ limit := by
  induction members with
  | nil => exact Nat.zero_le limit
  | cons member rest inductionHypothesis =>
      rw [List.forall_mem_cons] at each
      exact Nat.max_le.mpr ⟨each.1, inductionHypothesis each.2⟩

/-- What is read under a limit fits it. -/
theorem Reads.fits
    {form : Form} {depth : Nat} {text rest : List Char} {value : Json}
    (reads : Reads form depth text value rest) (positive : 0 < depth) :
    Fits form value depth := by
  induction reads with
  | scalar read =>
      simp only [Fits, (scalar_skim read).2.2.height_eq_zero]
      exact positive
  | emptyArray deep _ _ =>
      simp only [Fits, height, heightOfItems]
      exact deep
  | emptyObject deep _ _ =>
      simp only [Fits, height, heightOfMembers]
      exact deep
  | array deep _ _ _ inner | object deep _ _ _ inner =>
      have within := inner (by omega)
      simp only [Fits] at within ⊢
      omega
  | lastItem _ _ first =>
      have within := first positive
      simp only [Fits, height, heightOfItems] at within ⊢
      omega
  | nextItem _ _ _ _ first later =>
      have within := first positive
      have others := later positive
      simp only [Fits, height, heightOfItems] at within others ⊢
      omega
  | lastMember _ _ _ first =>
      have within := first positive
      simp only [Fits, height, heightOfMembers] at within ⊢
      omega
  | nextMember _ _ _ _ _ first later =>
      have within := first positive
      have others := later positive
      simp only [Fits, height, heightOfMembers] at within others ⊢
      omega

/-- A text stands for a value: the rules of reading take it, with nothing but spaces behind it, and
its containers are less deep than the limit of the reader. -/
structure StandsFor (text : String) (value : Json) : Prop where
  reads :
    ∃ depth rest, Reads .value depth text.toList value rest ∧ skipSpace rest = []
  shallow : value.height < maxDepth

theorem finish_eq_ok_iff (rest : List Char) :
    finish rest = .ok () ↔ skipSpace rest = [] := by
  unfold finish
  cases skipSpace rest <;> simp [faultAt]

theorem read_eq_ok_iff {text : String} {value : Json} :
    Json.read text.toList = .ok value ↔ StandsFor text value := by
  unfold Json.read
  constructor
  · intro read
    obtain ⟨rest, reads, finished⟩ := exists_reads_of_readWithin read
    exact ⟨⟨maxDepth, rest, reads, (finish_eq_ok_iff rest).mp finished⟩, reads.fits (by decide)⟩
  · rintro ⟨⟨depth, rest, reads, spaces⟩, shallow⟩
    have atLimit : Reads .value maxDepth text.toList value rest := reads.of_fits shallow
    have enough : stepsFor .value text.toList ≤ stepBound text.toList := by
      simp only [stepsFor, stepBound]
      omega
    obtain ⟨found, same, finishes⟩ :=
      atLimit.succeeds .full maxDepth _ (fun _ => rfl) enough
    obtain rfl := same rfl
    simp only [Finishes] at finishes
    simp [readWithin, finishes, (finish_eq_ok_iff rest).mpr spaces, bind, Except.bind, pure,
      Except.pure]

/-- A text stands for one value at most. -/
theorem StandsFor.unique
    {text : String} {value other : Json}
    (stands : StandsFor text value) (also : StandsFor text other) :
    value = other := by
  have read := read_eq_ok_iff.mpr stands
  rw [read_eq_ok_iff.mpr also] at read
  exact (Except.ok.inj read).symm

/-! ## Strings -/

theorem hexValue?_hexDigit : ∀ n < 16, hexValue? (hexDigit n) = some n := by
  decide

/-- The escape that a control character is written as. -/
theorem codeEscape_of_control
    {c : Char} (control : c.toNat < 32) (rest : List Char) :
    codeEscape
        ('0' :: '0' :: hexDigit (c.toNat / 16) :: hexDigit (c.toNat % 16) :: rest) =
      .ok (c, 4) := by
  have high := hexValue?_hexDigit (c.toNat / 16) (by omega)
  have low := hexValue?_hexDigit (c.toNat % 16) (by omega)
  have zero : hexValue? '0' = some 0 := by decide
  have digits :
      hexCode ('0' :: '0' :: hexDigit (c.toNat / 16) :: hexDigit (c.toNat % 16) :: rest) =
        .ok c.toNat := by
    simp only [hexCode, zero, high, low, Except.ok.injEq]
    omega
  have below : c.toNat < 0xD800 ∨ 0xDBFF < c.toNat := .inl (by omega)
  have notLow : ¬ (0xDC00 ≤ c.toNat ∧ c.toNat ≤ 0xDFFF) := by omega
  simp only [codeEscape, digits, bind, Except.bind, if_neg notLow, if_pos below, pure,
    Except.pure, Char.ofNat_toNat]

theorem stringFrom_quotedChar (c : Char) (text : List Char) :
    stringFrom .full 0 (quotedChar c ++ text) =
      (stringFrom .full 0 text).map fun found => (c :: found.1, found.2) := by
  unfold quotedChar
  by_cases quote : c = '"'
  · rw [if_pos quote, quote]
    rfl
  · rw [if_neg quote]
    by_cases backslash : c = '\\'
    · rw [if_pos backslash, backslash]
      rfl
    · rw [if_neg backslash]
      by_cases control : c.toNat < 32
      · have escaped :
            escape .full
                ('u' :: '0' :: '0' :: hexDigit (c.toNat / 16) ::
                  hexDigit (c.toNat % 16) :: text) =
              .ok (c, 5) := by
          have unfolded (rest : List Char) :
              escape .full ('u' :: rest) =
                (codeEscape rest).map fun found => (found.1, found.2 + 1) := rfl
          rw [unfolded, codeEscape_of_control control]
          rfl
        rw [if_pos control]
        simp only [List.cons_append, List.nil_append]
        rw [stringFrom, if_neg (by decide), if_pos rfl, escaped]
        dsimp only
        rw [stringFrom_eq_drop]
        rfl
      · rw [if_neg control, List.singleton_append, stringFrom, if_neg quote, if_neg backslash,
          if_neg control]

theorem stringFrom_quoted (characters rest : List Char) :
    stringFrom .full 0 (characters.flatMap quotedChar ++ '"' :: rest) =
      .ok (characters, rest) := by
  induction characters with
  | nil => rfl
  | cons c more inductionHypothesis =>
      rw [List.flatMap_cons, List.append_assoc, stringFrom_quotedChar, inductionHypothesis]
      rfl

theorem quoted_append (characters rest : List Char) :
    quoted characters ++ rest = '"' :: (characters.flatMap quotedChar ++ '"' :: rest) := by
  simp [quoted]

theorem quotedString_quoted (text : String) (rest : List Char) :
    quotedString .full (text.toList.flatMap quotedChar ++ '"' :: rest) = .ok (text, rest) := by
  rw [quotedString, stringFrom_quoted, Except.map]
  dsimp only
  rw [String.ofList_toList]

theorem memberName_quoted (name : String) (rest : List Char) :
    memberName .full (quoted name.toList ++ ':' :: rest) = .ok (name, rest) := by
  have behindName : colon (':' :: rest) = .ok rest := rfl
  rw [quoted_append, memberName]
  simp only [quotedString_quoted, behindName, bind, Except.bind, pure, Except.pure]

/-! ## Values -/

/-- A text begins as a value does: with a character that is no space and closes no container. -/
def Opens (text : List Char) : Prop :=
  ∃ c rest, text = c :: rest ∧ isSpace c = false ∧ c ≠ ']' ∧ c ≠ '}'

theorem Opens.append {text : List Char} (opens : Opens text) (rest : List Char) :
    Opens (text ++ rest) := by
  obtain ⟨c, more, rfl, plain⟩ := opens
  exact ⟨c, more ++ rest, rfl, plain⟩

theorem Opens.skipSpace_eq {text : List Char} (opens : Opens text) :
    skipSpace text = text := by
  obtain ⟨c, more, rfl, notSpace, _⟩ := opens
  rw [skipSpace, List.dropWhile_cons, if_neg (by simp [notSpace])]

theorem Opens.afterComma_eq
    {text : List Char} (opens : Opens text) {close : Char} (closes : close = ']' ∨ close = '}') :
    afterComma .full close text = .ok text := by
  have same := opens.skipSpace_eq
  obtain ⟨c, more, rfl, _, notBracket, notBrace⟩ := opens
  have notClose : c ≠ close := by
    rcases closes with rfl | rfl
    · exact notBracket
    · exact notBrace
  simp only [afterComma, same, if_neg notClose]

theorem Opens.not_closed
    {text : List Char} (opens : Opens text) (others : List Char) :
    skipSpace text ≠ ']' :: others ∧ skipSpace text ≠ '}' :: others := by
  rw [opens.skipSpace_eq]
  obtain ⟨c, more, rfl, _, notBracket, notBrace⟩ := opens
  constructor
  · intro closed
    exact notBracket (List.cons.inj closed).1
  · intro closed
    exact notBrace (List.cons.inj closed).1

/-- A value is read back from what is written for it, whatever stands behind. -/
structure ReadsBack (value : Json) : Prop where
  opens : Opens value.written
  reads :
    ∀ depth rest, value.height < depth →
      Reads .value depth (value.written ++ rest) value rest

theorem readsBack_of_scalar
    {value : Json}
    (opens : Opens value.written)
    (read : ∀ rest, scalar .full (value.written ++ rest) = .ok (value, rest)) :
    ReadsBack value where
  opens := opens
  reads := by
    intro depth rest _
    apply Reads.scalar
    rw [(opens.append rest).skipSpace_eq, read]

theorem readsBack_null : ReadsBack .null :=
  readsBack_of_scalar ⟨'n', _, rfl, by decide⟩ fun _ => rfl

theorem readsBack_boolean (value : Bool) : ReadsBack (.boolean value) := by
  cases value with
  | true => exact readsBack_of_scalar ⟨'t', _, rfl, by decide⟩ fun _ => rfl
  | false => exact readsBack_of_scalar ⟨'f', _, rfl, by decide⟩ fun _ => rfl

theorem opens_quoted (characters : List Char) : Opens (quoted characters) :=
  ⟨'"', _, rfl, by decide⟩

theorem readsBack_string (value : String) : ReadsBack (.string value) := by
  apply readsBack_of_scalar
  · exact opens_quoted value.toList
  · intro rest
    rw [written, quoted_append, scalar, quotedString_quoted]
    rfl

theorem reads_writtenItems
    {item : Json} {items : List Json} {depth : Nat} (rest : List Char)
    (first : ReadsBack item) (others : ∀ other ∈ items, ReadsBack other)
    (shallow : heightOfItems (item :: items) < depth) :
    Reads .items depth (item.written ++ writtenItems items ++ rest) (.array (item :: items))
      rest := by
  induction items generalizing item with
  | nil =>
      simp only [heightOfItems] at shallow
      rw [List.append_assoc]
      exact .lastItem (first.reads depth _ (by omega)) rfl
  | cons next more inductionHypothesis =>
      rw [List.forall_mem_cons] at others
      simp only [heightOfItems] at shallow inductionHypothesis
      have later := inductionHypothesis others.1 others.2 (by omega)
      have begun :
          afterComma .full ']' (next.written ++ writtenItems more ++ rest) =
            .ok (next.written ++ writtenItems more ++ rest) :=
        ((others.1.opens.append _).append _).afterComma_eq (.inl rfl)
      rw [List.append_assoc]
      exact .nextItem (first.reads depth _ (by omega)) rfl begun later

theorem readsBack_array {items : List Json} (each : ∀ item ∈ items, ReadsBack item) :
    ReadsBack (.array items) := by
  cases items with
  | nil =>
      refine ⟨⟨'[', _, rfl, by decide⟩, ?_⟩
      intro depth rest shallow
      simp only [height, heightOfItems] at shallow
      exact .emptyArray (by omega) rfl rfl
  | cons item more =>
      rw [List.forall_mem_cons] at each
      refine ⟨⟨'[', _, rfl, by decide⟩, ?_⟩
      intro depth rest shallow
      rw [height] at shallow
      have inner := (each.1.opens.append (writtenItems more)).append rest
      have items := @reads_writtenItems item more (depth - 1) rest each.1 each.2 (by omega)
      rw [← inner.skipSpace_eq] at items
      exact .array (by omega) rfl (fun others => (inner.not_closed others).1) items

theorem reads_writtenMembers
    {name : String} {value : Json} {members : List (String × Json)} {depth : Nat}
    (rest : List Char)
    (first : ReadsBack value) (others : ∀ member ∈ members, ReadsBack member.2)
    (shallow : heightOfMembers ((name, value) :: members) < depth) :
    Reads .members depth
      (quoted name.toList ++ ':' :: (value.written ++ (writtenMembers members ++ rest)))
      (.object ((name, value) :: members)) rest := by
  induction members generalizing name value with
  | nil =>
      simp only [heightOfMembers] at shallow
      exact .lastMember (memberName_quoted name _) (first.reads depth _ (by omega)) rfl
  | cons member more inductionHypothesis =>
      obtain ⟨nextName, next⟩ := member
      rw [List.forall_mem_cons] at others
      simp only [heightOfMembers] at shallow inductionHypothesis
      have later :=
        @inductionHypothesis nextName next others.1 others.2 (by omega)
      have begun := (opens_quoted nextName.toList).append
        (':' :: (next.written ++ (writtenMembers more ++ rest)))
      have separated :
          writtenMembers ((nextName, next) :: more) ++ rest =
            ',' :: (quoted nextName.toList ++
              ':' :: (next.written ++ (writtenMembers more ++ rest))) := by
        simp [writtenMembers]
      rw [separated]
      exact .nextMember (memberName_quoted name _) (first.reads depth _ (by omega)) rfl
        (begun.afterComma_eq (.inr rfl)) later

theorem readsBack_object
    {members : List (String × Json)} (each : ∀ member ∈ members, ReadsBack member.2) :
    ReadsBack (.object members) := by
  cases members with
  | nil =>
      refine ⟨⟨'{', _, rfl, by decide⟩, ?_⟩
      intro depth rest shallow
      simp only [height, heightOfMembers] at shallow
      exact .emptyObject (by omega) rfl rfl
  | cons member more =>
      obtain ⟨name, value⟩ := member
      rw [List.forall_mem_cons] at each
      refine ⟨⟨'{', _, rfl, by decide⟩, ?_⟩
      intro depth rest shallow
      rw [height] at shallow
      have inner := (opens_quoted name.toList).append
        (':' :: (value.written ++ (writtenMembers more ++ rest)))
      have members :=
        @reads_writtenMembers name value more (depth - 1) rest each.1 each.2 (by omega)
      have opened :
          (Json.object ((name, value) :: more)).written ++ rest =
            '{' :: (quoted name.toList ++
              ':' :: (value.written ++ (writtenMembers more ++ rest))) := by
        simp [written]
      rw [← inner.skipSpace_eq] at members
      rw [opened]
      exact .object (by omega) rfl (fun others => (inner.not_closed others).2) members

/-- What is written for a value stands for it, if it is nested less deep than the limit. -/
theorem ReadsBack.standsFor
    {value : Json} (readsBack : ReadsBack value) (shallow : value.height < maxDepth) :
    StandsFor value.render value where
  reads := by
    refine ⟨maxDepth, [], ?_, rfl⟩
    have reads := readsBack.reads maxDepth [] shallow
    rw [List.append_nil] at reads
    rw [render, String.toList_ofList]
    exact reads
  shallow := shallow

end MplServer.Json
