import MplServer.Proofs.Definition.Lookup

/-!
# Lists in the place of objects

A configuration, a table of symbols and an occurrence are written as objects. A list is taken for
one as well, if it gives the fields in the order in which they are declared: it then stands for the
object with these fields. Other values are refused.
-/

namespace MplServer

open Json (StandsFor)

variable {items : List Json} {name : String} {index : Nat}

theorem lastBinding_zip
    {names : List String} (distinct : names.Nodup) (named : names[index]? = some name)
    (items : List Json) :
    Configuration.lastBinding (names.zip items) name = items[index]? := by
  rw [Configuration.lastBinding_of_distinct (nodup_zip distinct items),
    lookup_zip distinct named items]

/-! ## Configurations -/

namespace Configuration

theorem item_eq_ok_iff
    {alpha : Type} {decode : Json → Except Json.Cause alpha} {write : alpha → Json}
    (decodes : Decodes decode write) (found : Option alpha) :
    item decode items index = .ok found ↔
      index < items.length ∧ Gives write items[index]? found := by
  unfold item
  cases at_index : items[index]? with
  | none =>
      have beyond : ¬ index < items.length := by
        simpa using at_index
      simp [beyond]
  | some value =>
      have within : index < items.length := by
        by_contra beyond
        rw [List.getElem?_eq_none (by omega)] at at_index
        cases at_index
      simp [within, optional_eq_ok_iff decodes]

theorem Draft.ofItems_eq_ok_iff (items : List Json) (draft : Draft) :
    Draft.ofItems items = .ok draft ↔
      items.length = 7 ∧ draft.Holds (lastBinding (fieldNames.zip items)) := by
  -- The equation of `lastBinding_zip` turned round, to state each item as the field that it gives.
  have field {index : Nat} {name : String} (named : fieldNames[index]? = some name) :
      items[index]? = lastBinding (fieldNames.zip items) name :=
    (lastBinding_zip (by decide) named items).symm
  simp only [Draft.ofItems, bind_eq_ok_iff, item_eq_ok_iff decodes_string,
    item_eq_ok_iff decodes_strings, item_eq_ok_iff decodes_boolean,
    @field 0 "compilerPath" rfl, @field 1 "includePaths" rfl, @field 2 "triple" rfl,
    @field 3 "entryPoint" rfl, @field 4 "output" rfl, @field 5 "debug" rfl,
    @field 6 "metaInfo" rfl]
  constructor
  · rintro ⟨_, ⟨_, compilerPath⟩, _, ⟨_, includePaths⟩, _, ⟨_, triple⟩, _, ⟨_, entryPoint⟩, _,
      ⟨_, output⟩, _, ⟨_, debug⟩, _, ⟨enough, metaInfo⟩, last⟩
    by_cases many : 7 < items.length
    · rw [if_pos many] at last
      cases last
    · rw [if_neg many] at last
      cases last
      exact ⟨by omega,
        compilerPath, includePaths, triple, entryPoint, output, debug, metaInfo⟩
  · rintro ⟨full, holds⟩
    have within {index : Nat} (below : index < 7) : index < items.length := by
      omega
    refine ⟨_, ⟨within (by decide), holds.compilerPath⟩,
      _, ⟨within (by decide), holds.includePaths⟩, _, ⟨within (by decide), holds.triple⟩,
      _, ⟨within (by decide), holds.entryPoint⟩, _, ⟨within (by decide), holds.output⟩,
      _, ⟨within (by decide), holds.debug⟩, _, ⟨within (by decide), holds.metaInfo⟩, ?_⟩
    rw [if_neg (by omega)]
    rfl

/-- A value that is no object gives a configuration if it is a list of the seven fields, null for
those that are not set. -/
theorem ofJson_eq_ok_iff_of_other
    {value : Json} (other : value.isObject = false) (configuration : Configuration) :
    ofJson value = .ok configuration ↔
      ∃ items, value = .array items ∧ items.length = 7 ∧
        Declares (lastBinding (fieldNames.zip items)) configuration := by
  rw [ofJson_eq_ok_iff]
  cases value with
  | object members => cases other
  | array items =>
      rw [Draft.ofJson, Draft.ofItems_eq_ok_iff]
      constructor
      · rintro ⟨⟨full, fields⟩, named⟩
        exact ⟨items, rfl, full, fields, named⟩
      · rintro ⟨_, same, full, declares⟩
        cases same
        exact ⟨⟨full, declares.fields⟩, declares.named⟩
  | _ => simp [Draft.ofJson]

theorem parse_eq_ok_iff_of_other
    {text : String} {value : Json}
    (stands : StandsFor text value) (other : value.isObject = false)
    (configuration : Configuration) :
    parse text = .ok configuration ↔
      ∃ items, value = .array items ∧ items.length = 7 ∧
        Declares (lastBinding (fieldNames.zip items)) configuration := by
  rw [parse_eq_ok_iff stands, ofJson_eq_ok_iff_of_other other]

theorem parse_invalid_iff_of_other
    {text : String} {value : Json}
    (stands : StandsFor text value) (other : value.isObject = false) :
    (∃ reason, parse text = .error (.invalid reason)) ↔
      ¬ ∃ items configuration, value = .array items ∧ items.length = 7 ∧
        Declares (lastBinding (fieldNames.zip items)) configuration := by
  constructor
  · rintro ⟨reason, invalid⟩ ⟨items, configuration, taken⟩
    have parsed :=
      (parse_eq_ok_iff_of_other stands other configuration).mpr ⟨items, taken⟩
    rw [invalid] at parsed
    cases parsed
  · intro notTaken
    cases parsed : parse text with
    | ok configuration =>
        obtain ⟨items, taken⟩ :=
          (parse_eq_ok_iff_of_other stands other configuration).mp parsed
        exact absurd ⟨items, configuration, taken⟩ notTaken
    | error fault =>
        obtain ⟨reason, rfl⟩ := exists_invalid stands parsed
        exact ⟨reason, rfl⟩

end Configuration

/-! ## Metadata -/

namespace Metadata

theorem listedTable?_eq_some_iff (value : Json) (entries : List (String × Json)) :
    listedTable? value = some entries ↔
      value = .array [] ∧ entries = [] ∨ value = .array [.object entries] := by
  unfold listedTable?
  split
  · simp [eq_comm]
  · rename_i item
    cases item <;> simp [members?]
  · rename_i notEmpty notSingle
    constructor
    · intro impossible
      cases impossible
    · rintro (⟨empty, _⟩ | single)
      · exact absurd empty notEmpty
      · exact absurd single (notSingle _)

theorem parse_eq_ok_iff_of_other
    {text : String} {value : Json}
    (stands : StandsFor text value) (other : value.isObject = false) (metadata : Metadata) :
    parse text = .ok metadata ↔
      value = .array [] ∧ metadata.globals = [] ∨
        value = .array [.object metadata.globals] := by
  rw [← listedTable?_eq_some_iff, ← toOption_eq_some_iff, toOption_parse_of_other stands other]
  obtain ⟨globals⟩ := metadata
  simp

theorem parse_error_iff_of_other
    {text : String} {value : Json}
    (stands : StandsFor text value) (other : value.isObject = false) :
    (∃ fault, parse text = .error fault) ↔
      value ≠ .array [] ∧ ∀ entries, value ≠ .array [.object entries] := by
  constructor
  · rintro ⟨fault, malformed⟩
    have notTaken (metadata : Metadata) : parse text ≠ .ok metadata := by
      rw [malformed]
      intro impossible
      cases impossible
    constructor
    · intro empty
      exact notTaken ⟨[]⟩ ((parse_eq_ok_iff_of_other stands other _).mpr (.inl ⟨empty, rfl⟩))
    · intro entries single
      exact notTaken ⟨entries⟩ ((parse_eq_ok_iff_of_other stands other _).mpr (.inr single))
  · rintro ⟨notEmpty, notSingle⟩
    cases parsed : parse text with
    | error fault => exact ⟨fault, rfl⟩
    | ok metadata =>
        rcases (parse_eq_ok_iff_of_other stands other metadata).mp parsed with
          ⟨empty, _⟩ | single
        · exact absurd empty notEmpty
        · exact absurd single (notSingle _)

end Metadata

/-! ## Occurrences -/

namespace Occurrence

/-- The names of the fields, in the order in which they are declared. -/
def fieldNames : List String :=
  ["file", "line", "column"]

theorem ofJson?_array (items : List Json) :
    ofJson? (.array items) =
      if 3 < items.length then none else ofJson? (.object (fieldNames.zip items)) := by
  have field {index : Nat} {name : String} (named : fieldNames[index]? = some name) :
      Json.binding? name (fieldNames.zip items) = items[index]? := by
    rw [Json.binding?_eq_lookup]
    exact lastBinding_zip (by decide) named items
  by_cases many : 3 < items.length
  · simp [ofJson?, many]
  · simp [ofJson?, many, @field 0 "file" rfl, @field 1 "line" rfl, @field 2 "column" rfl]

theorem ofJson?_eq_some_iff_of_other
    {item : Json} (other : item.isObject = false) (occurrence : Occurrence) :
    ofJson? item = some occurrence ↔
      ∃ items, item = .array items ∧ items.length ≤ 3 ∧
        ofJson? (.object (fieldNames.zip items)) = some occurrence := by
  cases item with
  | object members => cases other
  | array items =>
      rw [ofJson?_array]
      by_cases many : 3 < items.length
      · rw [if_pos many]
        constructor
        · intro impossible
          cases impossible
        · rintro ⟨_, same, few, _⟩
          cases same
          omega
      · rw [if_neg many]
        constructor
        · intro stands
          exact ⟨items, rfl, by omega, stands⟩
        · rintro ⟨_, same, _, stands⟩
          cases same
          exact stands
  | _ => simp [ofJson?]

/-- An object, or a list with no more items than an occurrence has fields. -/
def mayStand : Json → Bool
  | .object _ => true
  | .array items => items.length ≤ 3
  | _ => false

theorem mayStand_of_isSome
    {item : Json} (recorded : (ofJson? item).isSome) :
    mayStand item = true := by
  obtain ⟨occurrence, stands⟩ := Option.isSome_iff_exists.mp recorded
  by_cases isObject : item.isObject
  · cases item with
    | object members => rfl
    | _ => cases isObject
  · have other : item.isObject = false := by
      simpa using isObject
    obtain ⟨items, rfl, few, _⟩ := (ofJson?_eq_some_iff_of_other other occurrence).mp stands
    simpa [mayStand] using few

theorem length_occurrences_le (metadata : Metadata) (symbol : String) :
    (metadata.occurrences symbol).length ≤
      ((itemsOf symbol metadata.globals).filter mayStand).length := by
  rw [occurrences_eq_filterMap, List.length_filterMap_eq_countP, ← List.countP_eq_length_filter]
  apply List.countP_mono_left
  intro item _ recorded
  exact mayStand_of_isSome recorded

end Occurrence

/-! ## All three -/

/-- A value that is no object is a configuration if it is a list of the seven fields, metadata if it
is a list that is empty or holds a table alone, and an occurrence if it is a list of at most three
fields. All other values are refused. -/
theorem only_lists_stand_for_objects (value : Json) (other : value.isObject = false) :
    (∀ text, StandsFor text value →
      (∀ configuration,
        Configuration.parse text = .ok configuration ↔
          ∃ items, value = .array items ∧ items.length = 7 ∧
            Configuration.Declares
              (Configuration.lastBinding (Configuration.fieldNames.zip items))
              configuration) ∧
      ((∃ reason, Configuration.parse text = .error (.invalid reason)) ↔
        ¬ ∃ items configuration, value = .array items ∧ items.length = 7 ∧
          Configuration.Declares
            (Configuration.lastBinding (Configuration.fieldNames.zip items))
            configuration) ∧
      (∀ metadata,
        Metadata.parse text = .ok metadata ↔
          value = .array [] ∧ metadata.globals = [] ∨
            value = .array [.object metadata.globals]) ∧
      ((∃ fault, Metadata.parse text = .error fault) ↔
        value ≠ .array [] ∧ ∀ entries, value ≠ .array [.object entries])) ∧
    (∀ occurrence,
      Occurrence.ofJson? value = some occurrence ↔
        ∃ items, value = .array items ∧ items.length ≤ 3 ∧
          Occurrence.ofJson? (.object (Occurrence.fieldNames.zip items)) = some occurrence) ∧
    (∀ (metadata : Metadata) symbol,
      metadata.occurrences symbol =
          (itemsOf symbol metadata.globals).filterMap Occurrence.ofJson? ∧
        (metadata.occurrences symbol).length ≤
          ((itemsOf symbol metadata.globals).filter Occurrence.mayStand).length) := by
  refine ⟨?_, Occurrence.ofJson?_eq_some_iff_of_other other, ?_⟩
  · intro text stands
    exact ⟨Configuration.parse_eq_ok_iff_of_other stands other,
      Configuration.parse_invalid_iff_of_other stands other,
      Metadata.parse_eq_ok_iff_of_other stands other,
      Metadata.parse_error_iff_of_other stands other⟩
  · intro metadata symbol
    exact ⟨occurrences_eq_filterMap metadata symbol,
      Occurrence.length_occurrences_le metadata symbol⟩

/-- The fields of a configuration, given as a list. -/
def listedConfiguration : Json :=
  .array [.null, .null, .null, .string "main.mpl", .string "out", .null, .null]

/-- A table of symbols, given as the only item of a list. -/
def listedTable : Json :=
  .array [.object [("main", .array [])]]

/-- The fields of an occurrence, given as a list. -/
def listedOccurrence : Json :=
  .array [.string "src/main.mpl", .integer 3, .integer 5]

theorem standsFor_listedConfiguration :
    StandsFor listedConfiguration.render listedConfiguration := by
  have readsBack : Json.ReadsBack listedConfiguration :=
    Json.readsBack_array (by simp [Json.readsBack_null, Json.readsBack_string])
  exact readsBack.standsFor (by decide)

theorem standsFor_listedTable : StandsFor listedTable.render listedTable := by
  have noItems : Json.ReadsBack (.array []) :=
    Json.readsBack_array (by simp)
  have table : Json.ReadsBack (.object [("main", .array [])]) :=
    Json.readsBack_object (by simpa using noItems)
  have readsBack : Json.ReadsBack listedTable :=
    Json.readsBack_array (by simpa using table)
  exact readsBack.standsFor (by decide)

theorem three_lists_are_taken :
    Configuration.parse listedConfiguration.render =
        .ok ⟨none, none, none, "main.mpl", "out", none, none⟩ ∧
      Metadata.parse listedTable.render = .ok ⟨[("main", .array [])]⟩ ∧
      Occurrence.ofJson? listedOccurrence = some ⟨some "src/main.mpl", some 3, some 5⟩ ∧
      Occurrence.ofJson? (.integer 3) = none := by
  obtain ⟨configurationTexts, _, _⟩ := only_lists_stand_for_objects listedConfiguration rfl
  obtain ⟨configurations, _, _, _⟩ := configurationTexts _ standsFor_listedConfiguration
  obtain ⟨tableTexts, _, _⟩ := only_lists_stand_for_objects listedTable rfl
  obtain ⟨_, _, tables, _⟩ := tableTexts _ standsFor_listedTable
  obtain ⟨_, occurrences, _⟩ := only_lists_stand_for_objects listedOccurrence rfl
  obtain ⟨_, numbers, _⟩ := only_lists_stand_for_objects (.integer 3) rfl
  refine ⟨?_, (tables ⟨[("main", .array [])]⟩).mpr (.inr rfl), ?_, ?_⟩
  · apply (configurations _).mpr
    exact ⟨_, rfl, rfl, ⟨.null, .null, .null, .value _, .value _, .null, .null⟩,
      ⟨'m', by decide, by decide⟩⟩
  · apply (occurrences _).mpr
    exact ⟨_, rfl, by decide, by decide +kernel⟩
  · apply Option.eq_none_iff_forall_ne_some.mpr
    intro occurrence stands
    obtain ⟨items, isArray, _⟩ := (numbers occurrence).mp stands
    cases isArray

/-- Three texts in which a list is taken for an object. -/
theorem lists_are_taken_for_objects :
    (listedConfiguration.render = "[null,null,null,\"main.mpl\",\"out\",null,null]" ∧
      StandsFor listedConfiguration.render listedConfiguration ∧
      listedConfiguration.isObject = false ∧
      (Configuration.parse listedConfiguration.render).toOption =
        some ⟨none, none, none, "main.mpl", "out", none, none⟩) ∧
    (listedTable.render = "[\x7b\"main\":[]\x7d]" ∧
      StandsFor listedTable.render listedTable ∧
      listedTable.isObject = false ∧
      (Metadata.parse listedTable.render).toOption.map (fun metadata =>
        metadata.globals.map Prod.fst) = some ["main"]) ∧
    (Metadata.parse "\x7b\"globals\":\x7b\"main\":[[\"src/main.mpl\",3,5]]\x7d\x7d").toOption.map
        (fun metadata =>
          ((itemsOf "main" metadata.globals).map Json.isObject, metadata.occurrences "main")) =
      some ([false], [⟨some "src/main.mpl", some 3, some 5⟩]) := by
  refine ⟨⟨?_, standsFor_listedConfiguration, rfl, ?_⟩,
    ⟨?_, standsFor_listedTable, rfl, ?_⟩, ?_⟩
  all_goals decide +kernel

end MplServer
