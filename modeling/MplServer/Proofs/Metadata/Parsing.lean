import MplServer.Metadata.Basic
import MplServer.Proofs.Json.Printing

/-!
# Documents that hold metadata

The table of symbols is read on the way through a document. A document that is read as a JSON object
with one table among its members is metadata, and the table is the one that it holds, unless that
table is nested too deep.
-/

namespace MplServer.Metadata

open Json

variable {table : Option (List (String × Json))} {entries : List (String × Json)}
variable {text start behind rest : List Char}

theorem toOption_eq_some_iff {alpha : Type} {result : Except Fault alpha} {value : alpha} :
    result.toOption = some value ↔ result = .ok value := by
  cases result <;> simp [Except.toOption]

theorem toOption_eq_none_iff {alpha : Type} {result : Except Fault alpha} :
    result.toOption = none ↔ ∃ fault, result = .error fault := by
  cases result <;> simp [Except.toOption]

/-! ## The table -/

theorem readTable_of_reads
    {depth : Nat}
    (reads : Reads .value depth text (.object entries) rest) :
    readTable depth text = .ok (entries, rest) := by
  cases reads with
  | scalar read => exact absurd rfl ((scalar_skim read).2.2.2 entries)
  | emptyObject deep opened closed => simp [readTable, opened, closed]
  | @object _ _ behind _ _ deep opened notClosed inner =>
      have before := length_skipSpace text
      have within := length_skipSpace behind
      rw [opened, List.length_cons] at before
      have enough : stepsFor .members (skipSpace behind) ≤ stepBound text := by
        simp only [stepsFor, stepBound]
        omega
      obtain ⟨found, same, finishes⟩ :=
        inner.succeeds .full (depth - 1) _ (fun _ => rfl) enough
      obtain rfl := same rfl
      have someBehind := inner.text_ne_nil
      simp only [Finishes] at finishes
      simp only [readTable, opened]
      exact finishes

/-- A table that is nested too deep is not read. -/
theorem toOption_readTable_of_deep
    {depth : Nat}
    (reads : Reads .value depth text (.object entries) rest)
    (deep : maxDepth - 1 ≤ (Json.object entries).height) :
    (readTable (maxDepth - 1) text).toOption = none := by
  cases reads with
  | scalar read => exact absurd rfl ((scalar_skim read).2.2.2 entries)
  | emptyObject _ _ _ => exact absurd deep (by decide)
  | @object _ _ behind _ _ _ opened notClosed inner =>
      have someBehind := inner.text_ne_nil
      simp only [readTable, opened]
      cases read : membersWithin .full (stepBound text) (maxDepth - 1 - 1) (skipSpace behind) with
      | error fault => rfl
      | ok found =>
          have alsoReads :=
            @reads_of_finishes .members _ _ _ found.2 (.object found.1) read
          have within : (Json.object found.1).height ≤ maxDepth - 1 - 1 :=
            alsoReads.fits (by decide)
          obtain ⟨same, _⟩ := inner.unique alsoReads
          rw [← same] at within
          have positive : 1 < maxDepth := by decide
          omega

/-! ## One field -/

theorem readField_of_table
    {depth : Nat}
    (separated : colon text = .ok start)
    (reads : Reads .value depth start (.object entries) rest)
    (shallow : (Json.object entries).height < maxDepth - 1) :
    readField none "globals" text = .ok (some entries, rest) := by
  have table := readTable_of_reads (reads.of_fits shallow)
  simp [readField, separated, table, bind, Except.bind, pure, Except.pure]

theorem toOption_readField_of_deep
    {depth : Nat}
    (separated : colon text = .ok start)
    (reads : Reads .value depth start (.object entries) rest)
    (deep : maxDepth - 1 ≤ (Json.object entries).height) :
    (readField none "globals" text).toOption = none := by
  obtain ⟨fault, refused⟩ := toOption_eq_none_iff.mp (toOption_readTable_of_deep reads deep)
  simp [readField, separated, refused, bind, Except.bind, Except.toOption]

theorem readField_of_other
    {name : String} {depth : Nat} {value : Json}
    (other : name ≠ "globals")
    (separated : colon text = .ok start)
    (reads : Reads .value depth start value rest) :
    readField table name text = .ok (table, rest) := by
  have enough : stepsFor .value start ≤ stepBound start := by
    simp only [stepsFor, stepBound]
    omega
  obtain ⟨found, _, finishes⟩ :=
    reads.succeeds .skim maxDepth _ (by simp) enough
  simp only [Finishes] at finishes
  simp [readField, other, separated, finishes, bind, Except.bind, pure, Except.pure]

/-! ## All fields -/

theorem length_lt_of_nextMember
    {depth : Nat} {name : String} {value : Json} {close : Char} {more next : List Char}
    (named : memberName .full text = .ok (name, start))
    (read : Reads .value depth start value behind)
    (separated : skipSpace behind = ',' :: more)
    (begun : afterComma .full close more = .ok next) :
    next.length < text.length := by
  have labelled := (memberName_of_full named .full).2
  have shorter := read.length_lt
  have started := length_lt_of_afterComma separated begun
  omega

theorem readFields_of_last
    {bound : Nat} {name : String} {table' : Option (List (String × Json))}
    (named : memberName .full text = .ok (name, start))
    (field : ∀ afterName, colon afterName = .ok start →
      readField table name afterName = .ok (table', behind))
    (closed : skipSpace behind = '}' :: rest) :
    readFields table (bound + 1) text = .ok (table'.getD [], rest) := by
  obtain ⟨quoted, afterName, rfl, inQuotes, separated⟩ := memberName_eq_ok named
  simp [readFields, inQuotes, field afterName separated, closed, bind, Except.bind, pure,
    Except.pure]

theorem readFields_of_next
    {bound : Nat} {name : String} {table' : Option (List (String × Json))}
    {more next : List Char}
    (named : memberName .full text = .ok (name, start))
    (field : ∀ afterName, colon afterName = .ok start →
      readField table name afterName = .ok (table', behind))
    (separated : skipSpace behind = ',' :: more)
    (begun : afterComma .full '}' more = .ok next) :
    readFields table (bound + 1) text = readFields table' bound next := by
  obtain ⟨quoted, afterName, rfl, inQuotes, colonBehind⟩ := memberName_eq_ok named
  simp [readFields, inQuotes, field afterName colonBehind, separated, begun, bind,
    Except.bind]

theorem toOption_readFields_of_refused
    {bound : Nat} {name : String}
    (named : memberName .full text = .ok (name, start))
    (refused : ∀ afterName, colon afterName = .ok start →
      (readField table name afterName).toOption = none) :
    (readFields table (bound + 1) text).toOption = none := by
  obtain ⟨quoted, afterName, rfl, inQuotes, separated⟩ := memberName_eq_ok named
  obtain ⟨fault, field⟩ := toOption_eq_none_iff.mp (refused afterName separated)
  simp [readFields, inQuotes, field, bind, Except.bind, Except.toOption]

/-- Fields that are no tables leave the table as it is. -/
theorem readFields_of_others
    {bound depth : Nat} {members : List (String × Json)}
    (reads : Reads .members depth text (.object members) rest)
    (others : ∀ member ∈ members, member.1 ≠ "globals")
    (enough : text.length < bound) :
    readFields table bound text = .ok (table.getD [], rest) := by
  induction members generalizing text bound with
  | nil => cases reads
  | cons member more inductionHypothesis =>
      obtain ⟨fewer, rfl⟩ : ∃ fewer, bound = fewer + 1 :=
        Nat.exists_eq_add_one_of_ne_zero (by omega)
      rw [List.forall_mem_cons] at others
      cases reads with
      | lastMember named read closed =>
          exact readFields_of_last named
            (fun _ separated => readField_of_other others.1 separated read) closed
      | nextMember named read separated begun later =>
          have shorter := length_lt_of_nextMember named read separated begun
          rw [readFields_of_next named
            (fun _ separated => readField_of_other others.1 separated read)
            separated begun]
          exact inductionHypothesis later others.2 (by omega)

/-- A table as far as it is kept: one that is nested too deep is refused. -/
def kept? (entries : List (String × Json)) : Option (List (String × Json)) :=
  if (Json.object entries).height < maxDepth - 1 then some entries else none

/-- Of fields with one table among them the table is kept, if it can be. -/
theorem toOption_readFields_of_single
    {bound depth : Nat} {members : List (String × Json)}
    (reads : Reads .members depth text (.object members) rest)
    (single :
      members.filter (fun member => member.1 = "globals") =
        [("globals", .object entries)])
    (enough : text.length < bound) :
    (readFields none bound text).toOption =
      (kept? entries).map fun table => (table, rest) := by
  induction members generalizing text bound with
  | nil => cases single
  | cons member more inductionHypothesis =>
      obtain ⟨fewer, rfl⟩ : ∃ fewer, bound = fewer + 1 :=
        Nat.exists_eq_add_one_of_ne_zero (by omega)
      by_cases isTable : member.1 = "globals"
      · rw [List.filter_cons_of_pos (by simpa using isTable), List.cons.injEq] at single
        obtain ⟨rfl, noOther⟩ := single
        have others : ∀ member ∈ more, member.1 ≠ "globals" := by
          simpa [List.filter_eq_nil_iff] using noOther
        by_cases shallow : (Json.object entries).height < maxDepth - 1
        · rw [kept?, if_pos shallow]
          cases reads with
          | lastMember named read closed =>
              rw [readFields_of_last named
                (fun _ separated => readField_of_table separated read shallow) closed]
              rfl
          | nextMember named read separated begun later =>
              have shorter := length_lt_of_nextMember named read separated begun
              rw [readFields_of_next named
                (fun _ separated => readField_of_table separated read shallow)
                separated begun, readFields_of_others later others (by omega)]
              rfl
        · rw [kept?, if_neg shallow]
          cases reads with
          | lastMember named read _ | nextMember named read _ _ _ =>
              exact toOption_readFields_of_refused named fun _ separated =>
                toOption_readField_of_deep separated read (Nat.le_of_not_lt shallow)
      · rw [List.filter_cons_of_neg (by simpa using isTable)] at single
        cases reads with
        | lastMember named read closed => cases single
        | nextMember named read separated begun later =>
            have shorter := length_lt_of_nextMember named read separated begun
            rw [readFields_of_next named
              (fun _ separated => readField_of_other isTable separated read)
              separated begun]
            exact inductionHypothesis later single (by omega)

theorem toOption_readDocument_of_reads
    {depth : Nat} {members : List (String × Json)}
    (reads : Reads .value depth text (.object members) rest)
    (single :
      members.filter (fun member => member.1 = "globals") =
        [("globals", .object entries)]) :
    (readDocument text).toOption = (kept? entries).map fun table => (table, rest) := by
  cases reads with
  | scalar read => exact absurd rfl ((scalar_skim read).2.2.2 members)
  | emptyObject deep opened closed => cases single
  | @object _ _ behind _ _ deep opened notClosed inner =>
      have before := length_skipSpace text
      have within := length_skipSpace behind
      rw [opened, List.length_cons] at before
      have someBehind := inner.text_ne_nil
      simp only [readDocument, opened]
      exact toOption_readFields_of_single inner single (by omega)

/-- A table at the front of a text with nothing behind it is metadata. -/
theorem toOption_parse_of_readDocument
    {document : String} {table : Option (List (String × Json))}
    (contents :
      (readDocument document.toList).toOption = table.map fun table => (table, rest))
    (finished : finish rest = .ok ()) :
    (parse document).toOption = table.map Metadata.mk := by
  cases table with
  | none =>
      obtain ⟨fault, refused⟩ := toOption_eq_none_iff.mp contents
      simp [parse, Metadata.read, refused, bind, Except.bind, Except.toOption]
  | some entries =>
      have read := toOption_eq_some_iff.mp contents
      simp [parse, Metadata.read, read, finished, bind, Except.bind, pure, Except.pure,
        Except.toOption]

/-- An object with one table among its members is metadata, unless the table is nested too deep. How
deep the other members are nested makes no difference. -/
theorem toOption_parse_of_read
    {document : String} {depth : Nat} {members : List (String × Json)}
    (read : Json.readWithin depth document.toList = .ok (.object members))
    (single :
      members.filter (fun member => member.1 = "globals") =
        [("globals", .object entries)]) :
    (parse document).toOption = (kept? entries).map Metadata.mk := by
  obtain ⟨rest, reads, finished⟩ := exists_reads_of_readWithin read
  exact toOption_parse_of_readDocument (toOption_readDocument_of_reads reads single) finished

/-! ## Documents that are no objects -/

theorem toOption_refuse {alpha : Type} (wanted : Shape) (text : List Char) :
    (refuse wanted text : Except Fault alpha).toOption = none := by
  unfold refuse
  split
  · rfl
  · rfl
  · cases scalar .full text <;> rfl

/-- No scalar begins as a container does. -/
theorem scalar_container_eq_error (text : List Char) :
    (∃ fault, scalar .full ('[' :: text) = .error fault) ∧
      ∃ fault, scalar .full ('{' :: text) = .error fault :=
  ⟨⟨_, rfl⟩, ⟨_, rfl⟩⟩

theorem isObject_of_front
    {depth : Nat} {value : Json}
    (reads : Reads .value depth text value rest)
    (front : skipSpace text = '{' :: behind) :
    value.isObject = true := by
  cases reads with
  | scalar read =>
      obtain ⟨fault, failed⟩ := (scalar_container_eq_error behind).2
      rw [front, failed] at read
      cases read
  | emptyArray _ opened _ | array _ opened _ _ => simp [front] at opened
  | emptyObject _ _ _ | object _ _ _ _ => rfl

theorem exists_array_of_front
    {depth : Nat} {value : Json}
    (reads : Reads .value depth text value rest)
    (front : skipSpace text = '[' :: behind) :
    ∃ items, value = .array items := by
  cases reads with
  | scalar read =>
      obtain ⟨fault, failed⟩ := (scalar_container_eq_error behind).1
      rw [front, failed] at read
      cases read
  | emptyArray _ _ _ | array _ _ _ _ => exact ⟨_, rfl⟩
  | emptyObject _ opened _ | object _ opened _ _ => simp [front] at opened

/-- The members of an object, as the table that it holds. -/
def members? : Json → Option (List (String × Json))
  | .object members => some members
  | _ => none

theorem toOption_readTable
    {depth limit : Nat} {value : Json}
    (reads : Reads .value depth text value rest) (shallow : value.height < limit) :
    (readTable limit text).toOption = (members? value).map fun table => (table, rest) := by
  by_cases isObject : value.isObject
  · cases value with
    | object entries =>
        have fits : Reads .value limit text (.object entries) rest := reads.of_fits shallow
        rw [readTable_of_reads fits]
        rfl
    | _ => cases isObject
  · have none : members? value = none := by
      cases value with
      | object entries => exact absurd rfl isObject
      | _ => rfl
    rw [none]
    unfold readTable
    split
    · rfl
    · rename_i front
      exact absurd (isObject_of_front reads front) isObject
    · exact toOption_refuse .map (skipSpace text)

theorem toOption_closeList_of_comma
    {more : List Char} (separated : skipSpace text = ',' :: more) :
    (closeList text).toOption = none := by
  simp only [closeList, separated]
  split <;> rfl

/-- The table of a document that is no object: an empty one for an empty list, or the only item of a
list. -/
def listedTable? : Json → Option (List (String × Json))
  | .array [] => some []
  | .array [item] => members? item
  | _ => none

theorem toOption_readDocument_of_items
    {depth : Nat} {items : List Json}
    (opened : skipSpace text = '[' :: behind)
    (reads : Reads .items depth (skipSpace behind) (.array items) rest)
    (notClosed : ∀ others, skipSpace behind ≠ ']' :: others)
    (shallow : heightOfItems items < maxDepth - 1) :
    (readDocument text).toOption =
      (listedTable? (.array items)).map fun table => (table, rest) := by
  have someBehind := reads.text_ne_nil
  -- Only the first item is read as a table; behind it the list has to end.
  have inSteps :
      (readDocument text).toOption =
        (readTable (maxDepth - 1) (skipSpace behind)).toOption.bind fun found =>
          (closeList found.2).toOption.map fun more => (found.1, more) := by
    simp only [readDocument, opened]
    cases readTable (maxDepth - 1) (skipSpace behind) with
    | error fault => rfl
    | ok found =>
        simp only [bind, Except.bind, Except.toOption, Option.bind_some]
        cases closeList found.2 <;> rfl
  rw [inSteps]
  cases reads with
  | @lastItem _ _ afterItem _ item first closed =>
      have ended : closeList afterItem = .ok rest := by
        simp only [closeList, closed]
      rw [heightOfItems] at shallow
      rw [toOption_readTable first (by omega), listedTable?]
      cases members? item with
      | none => rfl
      | some entries =>
          simp only [Option.map_some, Option.bind_some, ended]
          rfl
  | @nextItem _ _ afterItem _ _ _ item items first separated next others =>
      have many : listedTable? (.array (item :: items)) = none := by
        cases others <;> rfl
      rw [heightOfItems] at shallow
      rw [toOption_readTable first (by omega), many]
      cases members? item with
      | none => rfl
      | some entries =>
          simp only [Option.map_some, Option.bind_some, toOption_closeList_of_comma separated]
          rfl

theorem toOption_readDocument_of_other
    {depth : Nat} {value : Json}
    (reads : Reads .value depth text value rest)
    (other : value.isObject = false) (shallow : value.height < maxDepth) :
    (readDocument text).toOption = (listedTable? value).map fun table => (table, rest) := by
  cases reads with
  | scalar read =>
      have isScalar := (scalar_skim read).2.2
      have reads : Reads .value depth text value rest := .scalar read
      have noTable : listedTable? value = none := by
        cases value with
        | array items => exact absurd rfl (isScalar.1 items)
        | _ => rfl
      rw [noTable]
      unfold readDocument
      split
      · rfl
      · rename_i front
        rw [isObject_of_front reads front] at other
        cases other
      · rename_i front
        obtain ⟨items, isArray⟩ := exists_array_of_front reads front
        exact absurd isArray (isScalar.1 items)
      · exact toOption_refuse .metadata (skipSpace text)
  | emptyArray _ opened closed =>
      simp only [readDocument, opened, closed]
      rfl
  | array _ opened notClosed items =>
      rw [height] at shallow
      exact toOption_readDocument_of_items opened items notClosed (by omega)
  | emptyObject _ _ _ | object _ _ _ _ => cases other

/-- A document that is no object is metadata if it is a list that is empty or holds a table
alone. -/
theorem toOption_parse_of_other
    {document : String} {value : Json}
    (stands : StandsFor document value) (other : value.isObject = false) :
    (parse document).toOption = (listedTable? value).map Metadata.mk := by
  obtain ⟨depth, rest, reads, ended⟩ := stands.reads
  exact toOption_parse_of_readDocument
    (toOption_readDocument_of_other reads other stands.shallow)
    ((finish_eq_ok_iff rest).mpr ended)

end MplServer.Metadata
