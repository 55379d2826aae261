import Mathlib.Data.List.Forall2
import Mathlib.Data.Set.List
import MplServer.Project.Configuration
import MplServer.Proofs.Entries
import MplServer.Proofs.Json.Printing

/-!
# Reading configurations

An object is a configuration when its fields have the types of a configuration, its entry point is
not blank and it has an output. The configuration then holds what the fields say. Only the last
binding of each field counts, so neither the order of the members nor members of other names make a
difference, and every configuration with an entry point is read back from what is written for it.
-/

namespace MplServer

theorem Json.binding?_eq_lookup (name : String) (members : List (String × Json)) :
    Json.binding? name members = members.reverse.lookup name := by
  induction members with
  | nil => rfl
  | cons member rest inductionHypothesis =>
      obtain ⟨other, value⟩ := member
      rw [Json.binding?, inductionHypothesis, List.reverse_cons, List.lookup_append]
      cases rest.reverse.lookup name with
      | some later => rfl
      | none =>
          by_cases same : other = name
          · simp [same]
          · have different : (name == other) = false :=
              beq_eq_false_iff_ne.mpr (Ne.symm same)
            simp [List.lookup_cons, same, different]

theorem bind_eq_ok_iff
    {epsilon alpha beta : Type} {first : Except epsilon alpha} {next : alpha → Except epsilon beta}
    {result : beta} :
    first >>= next = .ok result ↔ ∃ value, first = .ok value ∧ next value = .ok result := by
  cases first with
  | error cause => simp [bind, Except.bind]
  | ok value => simp [bind, Except.bind]

theorem mapM_eq_ok_iff
    {epsilon alpha beta : Type} {f : alpha → Except epsilon beta}
    {items : List alpha} {values : List beta} :
    items.mapM f = .ok values ↔
      List.Forall₂ (fun item value => f item = .ok value) items values := by
  induction items generalizing values with
  | nil =>
      simp only [List.mapM_nil, pure, Except.pure, Except.ok.injEq, List.forall₂_nil_left_iff]
      exact eq_comm
  | cons item rest inductionHypothesis =>
      simp only [List.mapM_cons, bind_eq_ok_iff, List.forall₂_cons_left_iff, inductionHypothesis,
        pure, Except.pure, Except.ok.injEq]
      constructor
      · rintro ⟨value, first, others, later, rfl⟩
        exact ⟨value, others, first, later, rfl⟩
      · rintro ⟨value, others, first, later, rfl⟩
        exact ⟨value, first, others, later, rfl⟩

namespace Configuration

open Json (StandsFor)

/-! ## One field -/

/-- What a field gives: nothing and null give no value, and a value is given by what is written for
it. -/
inductive Gives {alpha : Type} (write : alpha → Json) : Option Json → Option alpha → Prop where
  | absent : Gives write none none
  | null : Gives write (some .null) none
  | value (given : alpha) : Gives write (some (write given)) (some given)

/-- A reader of values takes what is written for a value, and nothing else. Nothing is written as
null. -/
structure Decodes {alpha : Type} (decode : Json → Except Json.Cause alpha) (write : alpha → Json) :
    Prop where
  eq_ok_iff : ∀ json value, decode json = .ok value ↔ json = write value
  ne_null : ∀ value, write value ≠ .null

def strings (values : List String) : Json :=
  .array (values.map .string)

theorem optional_eq_ok_iff
    {alpha : Type} {decode : Json → Except Json.Cause alpha} {write : alpha → Json}
    (decodes : Decodes decode write) (bound : Option Json) (found : Option alpha) :
    optional decode bound = .ok found ↔ Gives write bound found := by
  constructor
  · intro read
    unfold optional at read
    split at read
    · cases read
      exact .absent
    · cases read
      exact .null
    · rename_i json _
      cases decoded : decode json with
      | error cause => simp [decoded, Except.map] at read
      | ok value =>
          simp only [decoded, Except.map, Except.ok.injEq] at read
          rw [← read, (decodes.eq_ok_iff json value).mp decoded]
          exact .value value
  · intro gives
    cases gives with
    | absent => rfl
    | null => rfl
    | value given =>
        have read := (decodes.eq_ok_iff (write given) given).mpr rfl
        have notNull := decodes.ne_null given
        unfold optional
        split
        · rename_i nothing
          cases nothing
        · rename_i isNull
          exact absurd (Option.some.inj isNull) notNull
        · rename_i same
          cases same
          rw [read]
          rfl

theorem decodes_string : Decodes asString .string where
  eq_ok_iff json value := by
    cases json <;> simp [asString]
  ne_null := by simp

theorem decodes_boolean : Decodes asBoolean .boolean where
  eq_ok_iff json value := by
    cases json <;> simp [asBoolean]
  ne_null := by simp

theorem decodes_strings : Decodes asStrings strings where
  eq_ok_iff json values := by
    cases json with
    | array items =>
        simp only [asStrings, strings, mapM_eq_ok_iff, decodes_string.eq_ok_iff,
          Json.array.injEq]
        rw [← List.forall₂_map_right_iff, List.forall₂_eq_eq_eq]
    | _ => simp [asStrings, strings]
  ne_null := by simp [strings]

/-! ## All fields -/

/-- The names of the fields, in the order in which they are declared. -/
def fieldNames : List String :=
  ["compilerPath", "includePaths", "triple", "entryPoint", "output", "debug", "metaInfo"]

/-- The last value that a list of members binds a name to. -/
def lastBinding (members : List (String × Json)) (name : String) : Option Json :=
  members.reverse.lookup name

/-- The fields of a draft are those that are given under their names. -/
structure Draft.Holds (bound : String → Option Json) (draft : Draft) : Prop where
  compilerPath : Gives .string (bound "compilerPath") draft.compilerPath
  includePaths : Gives strings (bound "includePaths") draft.includePaths
  triple : Gives .string (bound "triple") draft.triple
  entryPoint : Gives .string (bound "entryPoint") draft.entryPoint
  output : Gives .string (bound "output") draft.output
  debug : Gives .boolean (bound "debug") draft.debug
  metaInfo : Gives .boolean (bound "metaInfo") draft.metaInfo

theorem Draft.ofMembers_eq_ok_iff (members : List (String × Json)) (draft : Draft) :
    Draft.ofMembers members = .ok draft ↔ draft.Holds (lastBinding members) := by
  simp only [Draft.ofMembers, bind_eq_ok_iff, Json.binding?_eq_lookup, pure, Except.pure,
    Except.ok.injEq, optional_eq_ok_iff decodes_string, optional_eq_ok_iff decodes_strings,
    optional_eq_ok_iff decodes_boolean]
  constructor
  · rintro ⟨_, compilerPath, _, debug, _, entryPoint, _, includePaths, _, metaInfo, _, output,
      _, triple, rfl⟩
    exact ⟨compilerPath, includePaths, triple, entryPoint, output, debug, metaInfo⟩
  · intro holds
    exact ⟨_, holds.compilerPath, _, holds.debug, _, holds.entryPoint, _, holds.includePaths,
      _, holds.metaInfo, _, holds.output, _, holds.triple, rfl⟩

/-- The draft that a configuration completes. -/
def draft (configuration : Configuration) : Draft where
  compilerPath := configuration.compilerPath
  includePaths := configuration.includePaths
  triple := configuration.triple
  entryPoint := some configuration.entryPoint
  output := some configuration.output
  debug := configuration.debug
  metaInfo := configuration.metaInfo

/-- The entry point is not blank. -/
def HasEntryPoint (configuration : Configuration) : Prop :=
  ∃ c ∈ configuration.entryPoint.toList, Text.isBlank c = false

theorem hasEntryPoint_iff (configuration : Configuration) :
    configuration.HasEntryPoint ↔ Text.isBlankText configuration.entryPoint = false := by
  simp [HasEntryPoint, Text.isBlankText]

theorem Draft.complete_eq_ok_iff (given : Draft) (configuration : Configuration) :
    given.complete = .ok configuration ↔
      given = configuration.draft ∧ configuration.HasEntryPoint := by
  rw [hasEntryPoint_iff]
  constructor
  · intro completed
    unfold Draft.complete at completed
    split at completed
    · cases completed
    · rename_i entryPoint entry
      split at completed
      · cases completed
      · rename_i notBlank
        split at completed
        · cases completed
        · rename_i output out
          cases completed
          refine ⟨?_, by simpa using notBlank⟩
          obtain ⟨_, _, _, _, _, _, _⟩ := given
          cases entry
          cases out
          rfl
  · rintro ⟨rfl, notBlank⟩
    simp [Draft.complete, draft, notBlank]

/-- The fields give a configuration: its own fields, among them an entry point that is not blank. -/
structure Declares (bound : String → Option Json) (configuration : Configuration) : Prop where
  fields : configuration.draft.Holds bound
  named : configuration.HasEntryPoint

theorem ofJson_eq_ok_iff (value : Json) (configuration : Configuration) :
    ofJson value = .ok configuration ↔
      Draft.ofJson value = .ok configuration.draft ∧ configuration.HasEntryPoint := by
  unfold ofJson
  cases read : Draft.ofJson value with
  | error cause => simp
  | ok given =>
      dsimp only
      rw [Draft.complete_eq_ok_iff, Except.ok.injEq]

theorem ofJson_object_eq_ok_iff
    (members : List (String × Json)) (configuration : Configuration) :
    ofJson (.object members) = .ok configuration ↔
      Declares (lastBinding members) configuration := by
  rw [ofJson_eq_ok_iff, Draft.ofJson, Draft.ofMembers_eq_ok_iff]
  constructor
  · rintro ⟨fields, named⟩
    exact ⟨fields, named⟩
  · intro declares
    exact ⟨declares.fields, declares.named⟩

/-! ## What is acceptable -/

/-- A field is left out, or null, or a value of the right kind. -/
def IsOptional (kind : Json → Prop) (bound : Option Json) : Prop :=
  bound = none ∨ bound = some .null ∨ ∃ value, bound = some value ∧ kind value

def IsString (value : Json) : Prop :=
  ∃ text, value = .string text

def IsFlag (value : Json) : Prop :=
  ∃ flag, value = .boolean flag

def IsStrings (value : Json) : Prop :=
  ∃ items, value = .array items ∧ ∀ item ∈ items, IsString item

/-- The fields have their types, and the required ones are there. -/
structure Acceptable (bound : String → Option Json) : Prop where
  compilerPath : IsOptional IsString (bound "compilerPath")
  includePaths : IsOptional IsStrings (bound "includePaths")
  triple : IsOptional IsString (bound "triple")
  entryPoint :
    ∃ text, bound "entryPoint" = some (.string text) ∧ ∃ c ∈ text.toList, Text.isBlank c = false
  output : ∃ text, bound "output" = some (.string text)
  debug : IsOptional IsFlag (bound "debug")
  metaInfo : IsOptional IsFlag (bound "metaInfo")

theorem exists_gives_iff
    {alpha : Type} {write : alpha → Json} {kind : Json → Prop}
    (isKind : ∀ value, kind value ↔ ∃ given, value = write given) (bound : Option Json) :
    (∃ found, Gives write bound found) ↔ IsOptional kind bound := by
  constructor
  · rintro ⟨found, gives⟩
    cases gives with
    | absent => exact .inl rfl
    | null => exact .inr (.inl rfl)
    | value given => exact .inr (.inr ⟨_, rfl, (isKind _).mpr ⟨given, rfl⟩⟩)
  · rintro (rfl | rfl | ⟨value, rfl, isOfKind⟩)
    · exact ⟨none, .absent⟩
    · exact ⟨none, .null⟩
    · obtain ⟨given, rfl⟩ := (isKind value).mp isOfKind
      exact ⟨some given, .value given⟩

theorem isStrings_iff (value : Json) :
    IsStrings value ↔ ∃ given, value = strings given := by
  constructor
  · rintro ⟨items, rfl, each⟩
    have inRange : items ∈ Set.range (List.map Json.string) := by
      rw [Set.range_list_map]
      intro item member
      obtain ⟨text, rfl⟩ := each item member
      exact ⟨text, rfl⟩
    obtain ⟨texts, rfl⟩ := inRange
    exact ⟨texts, rfl⟩
  · rintro ⟨given, rfl⟩
    refine ⟨_, rfl, ?_⟩
    simp [IsString]

theorem gives_some_iff {bound : Option Json} {text : String} :
    Gives .string bound (some text) ↔ bound = some (.string text) := by
  constructor
  · intro gives
    cases gives
    rfl
  · rintro rfl
    exact .value text

theorem exists_declares_iff (bound : String → Option Json) :
    (∃ configuration, Declares bound configuration) ↔ Acceptable bound := by
  have texts := @exists_gives_iff String .string IsString (fun _ => Iff.rfl)
  have flags := @exists_gives_iff Bool .boolean IsFlag (fun _ => Iff.rfl)
  have lists := exists_gives_iff isStrings_iff
  constructor
  · rintro ⟨configuration, ⟨compilerPath, includePaths, triple, entryPoint, output, debug,
      metaInfo⟩, named⟩
    exact {
      compilerPath := (texts _).mp ⟨_, compilerPath⟩
      includePaths := (lists _).mp ⟨_, includePaths⟩
      triple := (texts _).mp ⟨_, triple⟩
      entryPoint := ⟨_, gives_some_iff.mp entryPoint, named⟩
      output := ⟨_, gives_some_iff.mp output⟩
      debug := (flags _).mp ⟨_, debug⟩
      metaInfo := (flags _).mp ⟨_, metaInfo⟩ }
  · intro acceptable
    obtain ⟨compilerPath, givesCompiler⟩ := (texts _).mpr acceptable.compilerPath
    obtain ⟨includePaths, givesIncludes⟩ := (lists _).mpr acceptable.includePaths
    obtain ⟨triple, givesTriple⟩ := (texts _).mpr acceptable.triple
    obtain ⟨entryPoint, entry, named⟩ := acceptable.entryPoint
    obtain ⟨output, out⟩ := acceptable.output
    obtain ⟨debug, givesDebug⟩ := (flags _).mpr acceptable.debug
    obtain ⟨metaInfo, givesMetaInfo⟩ := (flags _).mpr acceptable.metaInfo
    exact ⟨⟨compilerPath, includePaths, triple, entryPoint, output, debug, metaInfo⟩,
      ⟨givesCompiler, givesIncludes, givesTriple, gives_some_iff.mpr entry,
        gives_some_iff.mpr out, givesDebug, givesMetaInfo⟩, named⟩

/-! ## Texts -/

theorem parse_of_standsFor {text : String} {value : Json} (stands : StandsFor text value) :
    parse text = (ofJson value).mapError .invalid := by
  rw [parse, Json.read_eq_ok_iff.mpr stands]

theorem parse_eq_ok_iff
    {text : String} {value : Json} (stands : StandsFor text value)
    (configuration : Configuration) :
    parse text = .ok configuration ↔ ofJson value = .ok configuration := by
  rw [parse_of_standsFor stands]
  cases ofJson value <;> simp [Except.mapError]

theorem parse_malformed_iff (text : String) :
    (∃ document fault, parse text = .error (.malformed document fault)) ↔
      ¬ ∃ value, StandsFor text value := by
  constructor
  · rintro ⟨document, fault, malformed⟩ ⟨value, stands⟩
    rw [parse_of_standsFor stands] at malformed
    cases made : ofJson value <;> simp [made, Except.mapError] at malformed
  · intro noValue
    cases read : Json.read text.toList with
    | error fault => exact ⟨text, fault, by rw [parse, read]⟩
    | ok value => exact absurd ⟨value, Json.read_eq_ok_iff.mp read⟩ noValue

theorem exists_invalid
    {text : String} {value : Json} {fault : ConfigurationError}
    (stands : StandsFor text value) (failed : parse text = .error fault) :
    ∃ reason, fault = .invalid reason := by
  rw [parse_of_standsFor stands] at failed
  cases made : ofJson value with
  | ok configuration => simp [made, Except.mapError] at failed
  | error reason =>
      simp only [made, Except.mapError, Except.error.injEq] at failed
      exact ⟨reason, failed.symm⟩

/-- A text that stands for an object gives a configuration exactly if its fields are acceptable, and
then the one that they declare. Otherwise it is invalid. -/
structure TakenAsDeclared (text : String) (members : List (String × Json)) : Prop where
  accepted :
    (∃ configuration, parse text = .ok configuration) ↔ Acceptable (lastBinding members)
  result :
    ∀ configuration,
      parse text = .ok configuration ↔ Declares (lastBinding members) configuration
  refused :
    ¬ Acceptable (lastBinding members) → ∃ reason, parse text = .error (.invalid reason)

theorem takenAsDeclared
    {text : String} {members : List (String × Json)}
    (stands : StandsFor text (.object members)) :
    TakenAsDeclared text members := by
  have result (configuration : Configuration) :
      parse text = .ok configuration ↔ Declares (lastBinding members) configuration := by
    rw [parse_eq_ok_iff stands, ofJson_object_eq_ok_iff]
  have accepted :
      (∃ configuration, parse text = .ok configuration) ↔ Acceptable (lastBinding members) := by
    rw [← exists_declares_iff]
    exact exists_congr result
  refine ⟨accepted, result, ?_⟩
  intro unacceptable
  cases parsed : parse text with
  | ok configuration => exact absurd (accepted.mp ⟨configuration, parsed⟩) unacceptable
  | error fault =>
      obtain ⟨reason, rfl⟩ := exists_invalid stands parsed
      exact ⟨reason, rfl⟩

/-! ## What makes no difference -/

variable {members others : List (String × Json)} {name : String}

theorem Draft.ofMembers_congr
    (same : ∀ name ∈ fieldNames, lastBinding members name = lastBinding others name) :
    Draft.ofMembers members = Draft.ofMembers others := by
  have sameBinding {name : String} (field : name ∈ fieldNames) :
      Json.binding? name members = Json.binding? name others := by
    rw [Json.binding?_eq_lookup, Json.binding?_eq_lookup]
    exact same name field
  simp only [Draft.ofMembers, @sameBinding "compilerPath" (by decide),
    @sameBinding "debug" (by decide), @sameBinding "entryPoint" (by decide),
    @sameBinding "includePaths" (by decide), @sameBinding "metaInfo" (by decide),
    @sameBinding "output" (by decide), @sameBinding "triple" (by decide)]

theorem parse_congr
    {text other : String}
    (stands : StandsFor text (.object members)) (also : StandsFor other (.object others))
    (same : ∀ name ∈ fieldNames, lastBinding members name = lastBinding others name) :
    parse text = parse other := by
  rw [parse_of_standsFor stands, parse_of_standsFor also, ofJson, ofJson, Draft.ofJson,
    Draft.ofJson, Draft.ofMembers_congr same]

/-- Members of other names may be left out. -/
theorem lastBinding_filter
    {keep : String → Prop} [DecidablePred keep] (kept : keep name)
    (members : List (String × Json)) :
    lastBinding (members.filter fun member => keep member.1) name = lastBinding members name := by
  rw [lastBinding, ← List.filter_reverse]
  exact lookup_filter kept members.reverse

/-- The members that are fields of a configuration. -/
def ownMembers (members : List (String × Json)) : List (String × Json) :=
  members.filter fun member => member.1 ∈ fieldNames

theorem lastBinding_of_distinct
    (distinct : (members.map Prod.fst).Nodup) (name : String) :
    lastBinding members name = members.lookup name :=
  (lookup_eq_of_perm distinct (List.reverse_perm members).symm name).symm

theorem lastBinding_eq_of_perm
    (distinct : ((ownMembers members).map Prod.fst).Nodup)
    (reordered : (ownMembers members).Perm (ownMembers others))
    (field : name ∈ fieldNames) :
    lastBinding members name = lastBinding others name := by
  have alsoDistinct : ((ownMembers others).map Prod.fst).Nodup :=
    (reordered.map Prod.fst).nodup_iff.mp distinct
  have own (members : List (String × Json)) :
      lastBinding (ownMembers members) name = lastBinding members name :=
    @lastBinding_filter name (· ∈ fieldNames) _ field members
  rw [← own members, ← own others, lastBinding_of_distinct distinct,
    lastBinding_of_distinct alsoDistinct]
  exact lookup_eq_of_perm distinct reordered name

/-! ## Written configurations -/

/-- What is written for a field: null, if it is not set. -/
def written {alpha : Type} (write : alpha → Json) : Option alpha → Json
  | none => .null
  | some value => write value

/-- The fields of a configuration as they are written. -/
def fields (configuration : Configuration) : List (String × Json) :=
  [("compilerPath", written .string configuration.compilerPath),
    ("includePaths", written strings configuration.includePaths),
    ("triple", written .string configuration.triple),
    ("entryPoint", .string configuration.entryPoint),
    ("output", .string configuration.output),
    ("debug", written .boolean configuration.debug),
    ("metaInfo", written .boolean configuration.metaInfo)]

/-- A list of members that writes a configuration: in any order its own fields, each once at most.
Only fields that are not set may be left out. -/
structure Writes (members : List (String × Json)) (configuration : Configuration) : Prop where
  distinct : (members.map Prod.fst).Nodup
  own : ∀ member ∈ members, member ∈ configuration.fields
  complete : ∀ field ∈ configuration.fields, field.2 ≠ .null → field ∈ members

theorem nodup_fields (configuration : Configuration) :
    (configuration.fields.map Prod.fst).Nodup := by
  have names : configuration.fields.map Prod.fst = fieldNames := rfl
  rw [names]
  decide

theorem Writes.gives
    {configuration : Configuration} {alpha : Type} {decode : Json → Except Json.Cause alpha}
    {write : alpha → Json} {value : Option alpha}
    (writes : Writes members configuration) (decodes : Decodes decode write)
    (field : (name, written write value) ∈ configuration.fields) :
    Gives write (lastBinding members name) value := by
  rw [lastBinding_of_distinct writes.distinct]
  cases value with
  | some given =>
      have member := writes.complete _ field (decodes.ne_null given)
      rw [lookup_eq_some_of_mem writes.distinct member]
      exact .value given
  | none =>
      cases bound : members.lookup name with
      | none => exact .absent
      | some json =>
          -- Fields have distinct names, so what is bound here is the null of this field.
          have member := writes.own _ (mem_of_lookup_eq_some bound)
          have found := lookup_eq_some_of_mem (nodup_fields configuration) member
          rw [lookup_eq_some_of_mem (nodup_fields configuration) field] at found
          rw [← Option.some.inj found]
          exact .null

theorem Writes.declares
    {configuration : Configuration}
    (writes : Writes members configuration) (named : configuration.HasEntryPoint) :
    Declares (lastBinding members) configuration where
  fields := {
    compilerPath := writes.gives decodes_string (by simp [draft, fields])
    includePaths := writes.gives decodes_strings (by simp [draft, fields])
    triple := writes.gives decodes_string (by simp [draft, fields])
    entryPoint := writes.gives decodes_string (by simp [draft, fields, written])
    output := writes.gives decodes_string (by simp [draft, fields, written])
    debug := writes.gives decodes_boolean (by simp [draft, fields])
    metaInfo := writes.gives decodes_boolean (by simp [draft, fields]) }
  named := named

/-- A value that is read back and is a list of scalars at most. -/
structure IsPlain (value : Json) : Prop where
  readsBack : Json.ReadsBack value
  shallow : value.height ≤ 1

theorem isPlain_string (text : String) : IsPlain (.string text) :=
  ⟨Json.readsBack_string text, Nat.zero_le 1⟩

theorem isPlain_boolean (flag : Bool) : IsPlain (.boolean flag) :=
  ⟨Json.readsBack_boolean flag, Nat.zero_le 1⟩

theorem isPlain_strings (texts : List String) : IsPlain (strings texts) where
  readsBack := by
    apply Json.readsBack_array
    rw [List.forall_mem_map]
    intro text _
    exact Json.readsBack_string text
  shallow := by
    rw [strings, Json.height]
    apply Nat.succ_le_succ
    apply Json.heightOfItems_le
    rw [List.forall_mem_map]
    intro text _
    exact Nat.le_refl 0

theorem isPlain_written
    {alpha : Type} {write : alpha → Json}
    (plain : ∀ value, IsPlain (write value)) (value : Option alpha) :
    IsPlain (written write value) := by
  cases value with
  | none => exact ⟨Json.readsBack_null, Nat.zero_le 1⟩
  | some given => exact plain given

theorem isPlain_of_mem_fields
    {configuration : Configuration} {field : String × Json}
    (member : field ∈ configuration.fields) :
    IsPlain field.2 := by
  simp only [fields, List.mem_cons, List.not_mem_nil, or_false] at member
  rcases member with rfl | rfl | rfl | rfl | rfl | rfl | rfl
  · exact isPlain_written isPlain_string _
  · exact isPlain_written isPlain_strings _
  · exact isPlain_written isPlain_string _
  · exact isPlain_string _
  · exact isPlain_string _
  · exact isPlain_written isPlain_boolean _
  · exact isPlain_written isPlain_boolean _

theorem standsFor_of_isPlain (plain : ∀ member ∈ members, IsPlain member.2) :
    StandsFor (Json.object members).render (.object members) := by
  have readsBack : Json.ReadsBack (.object members) :=
    Json.readsBack_object fun member within => (plain member within).readsBack
  have flat : Json.heightOfMembers members ≤ 1 :=
    Json.heightOfMembers_le fun member within => (plain member within).shallow
  apply readsBack.standsFor
  rw [Json.height, Json.maxDepth]
  omega

theorem Writes.parse_eq
    {configuration : Configuration}
    (writes : Writes members configuration) (named : configuration.HasEntryPoint) :
    parse (Json.object members).render = .ok configuration := by
  have stands : StandsFor (Json.object members).render (.object members) :=
    standsFor_of_isPlain fun member within => isPlain_of_mem_fields (writes.own member within)
  apply ((takenAsDeclared stands).result configuration).mpr
  exact writes.declares named

/-- Configurations are what objects declare. A text that stands for no value is malformed, and every
other fault is one of the value. Members of other names and the order of the fields make no
difference, and of several bindings of a field the last one counts. -/
theorem parse_takes_what_objects_declare :
    (∀ text members, StandsFor text (.object members) → TakenAsDeclared text members) ∧
    (∀ text,
      (∃ document fault, parse text = .error (.malformed document fault)) ↔
        ¬ ∃ value, StandsFor text value) ∧
    (∀ text value fault, StandsFor text value → parse text = .error fault →
      ∃ reason, fault = .invalid reason) ∧
    (∀ text other members others,
      StandsFor text (.object members) → StandsFor other (.object others) →
      (∀ name ∈ fieldNames, lastBinding members name = lastBinding others name) →
      parse text = parse other) ∧
    (∀ text other members others,
      StandsFor text (.object members) → StandsFor other (.object others) →
      ((ownMembers members).map Prod.fst).Nodup →
      (ownMembers members).Perm (ownMembers others) →
      parse text = parse other) ∧
    (∀ configuration members, configuration.HasEntryPoint → Writes members configuration →
      parse (Json.object members).render = .ok configuration) := by
  refine ⟨fun _ _ => takenAsDeclared, parse_malformed_iff, fun _ _ _ => exists_invalid,
    fun _ _ _ _ => parse_congr, ?_, fun _ _ named writes => writes.parse_eq named⟩
  intro text other members others stands also distinct reordered
  apply parse_congr stands also
  intro name field
  exact lastBinding_eq_of_perm distinct reordered field

/-- An object of three fields, one of them null. -/
def plainMembers : List (String × Json) :=
  [("entryPoint", .string "main.mpl"), ("output", .string ""), ("debug", .null)]

/-- The fields of `plainMembers` in another order, among a member that is no field. -/
def reorderedMembers : List (String × Json) :=
  [("debug", .null), ("entryPoint", .string "main.mpl"), ("color", .string "red"),
    ("output", .string "")]

/-- The members of `reorderedMembers` behind another output. -/
def repeatedMembers : List (String × Json) :=
  ("output", .string "out") :: reorderedMembers

theorem plain_members_are_taken :
    parse (Json.object plainMembers).render =
        .ok ⟨none, none, none, "main.mpl", "", none, none⟩ ∧
      parse (Json.object reorderedMembers).render =
        parse (Json.object plainMembers).render ∧
      parse (Json.object repeatedMembers).render =
        parse (Json.object plainMembers).render ∧
      ∃ reason, parse (Json.object []).render = .error (.invalid reason) := by
  obtain ⟨taken, _, invalid, sameBindings, sameFields, written⟩ :=
    parse_takes_what_objects_declare
  have plainNull : IsPlain .null := ⟨Json.readsBack_null, Nat.zero_le 1⟩
  have plain : StandsFor (Json.object plainMembers).render (.object plainMembers) :=
    standsFor_of_isPlain (by simp [plainMembers, isPlain_string, plainNull])
  have reordered :
      StandsFor (Json.object reorderedMembers).render (.object reorderedMembers) :=
    standsFor_of_isPlain (by simp [reorderedMembers, isPlain_string, plainNull])
  have repeatedOutput :
      StandsFor (Json.object repeatedMembers).render (.object repeatedMembers) :=
    standsFor_of_isPlain
      (by simp [repeatedMembers, reorderedMembers, isPlain_string, plainNull])
  have empty : StandsFor (Json.object []).render (.object []) :=
    standsFor_of_isPlain (by simp)
  have named :
      HasEntryPoint ⟨none, none, none, "main.mpl", "", none, none⟩ :=
    ⟨'m', by decide, by decide⟩
  have writes : Writes plainMembers ⟨none, none, none, "main.mpl", "", none, none⟩ := by
    refine ⟨by decide, ?_, ?_⟩
    · simp [plainMembers, fields, Configuration.written]
    · simp [plainMembers, fields, Configuration.written]
  refine ⟨written _ plainMembers named writes, ?_, ?_, ?_⟩
  · apply sameFields _ _ reorderedMembers plainMembers reordered plain
    · decide
    · exact @List.perm_append_comm (String × Json) [("debug", .null)]
        [("entryPoint", .string "main.mpl"), ("output", .string "")]
  · apply sameBindings _ _ repeatedMembers plainMembers repeatedOutput plain
    simp [fieldNames, lastBinding, repeatedMembers, reorderedMembers, plainMembers,
      List.lookup_cons]
  · apply (taken _ _ empty).refused
    intro acceptable
    obtain ⟨output, bound⟩ := acceptable.output
    cases bound

end Configuration

end MplServer
