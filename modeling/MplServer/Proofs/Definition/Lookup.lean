import MplServer.Definition.Resolver
import MplServer.Json.Printer
import MplServer.Proofs.FileSystem.Update
import MplServer.Proofs.Metadata.Parsing
import MplServer.Proofs.Project.Configuration
import MplServer.Proofs.Text.Encoding

/-!
# Looking up a symbol

A lookup answers with one location for each recorded item that is an occurrence and whose path is
resolved, in their order. It depends on the items of its own symbol only: documents that differ in
other entries, or in items that come to nothing, give the same answer.
-/

namespace MplServer

/-! ## Items and their locations -/

/-- The number a client is told for a recorded one: counted from zero, and kept in range. -/
def clamped (recorded : Option Int) : Nat :=
  min (max (recorded.getD 1) 1 - 1).toNat (Nat.pow 2 32 - 1)

namespace Occurrence

/-- Where the difference does not leave the numbers of 64 bits, nothing wraps around. -/
theorem zeroBased_eq_clamped
    {recorded : Option Int}
    (fits : ∀ value ∈ recorded, -Int.pow 2 63 < value ∧ value < Int.pow 2 63) :
    zeroBased recorded = clamped recorded := by
  cases recorded with
  | none => decide
  | some value =>
      obtain ⟨above, below⟩ := fits value rfl
      have half : Int.pow 2 63 = 9223372036854775808 := by decide
      have whole : (Nat.pow 2 64 : Nat) = (18446744073709551616 : Int) := by decide
      have stays :
          Int.bmod ((if value = 0 then 1 else value) - 1) (Nat.pow 2 64) =
            (if value = 0 then 1 else value) - 1 := by
        apply Int.bmod_eq_of_le
        · split <;> omega
        · split <;> omega
      unfold zeroBased clamped maxPosition
      dsimp only [Option.getD_some]
      rw [stays]
      split <;> omega

theorem range_of_numberField?
    {field : Option Json} {recorded : Option Int}
    (read : numberField? field = some recorded) :
    ∀ value ∈ recorded, -Int.pow 2 63 ≤ value ∧ value < Int.pow 2 63 := by
  rintro value ⟨⟩
  unfold numberField? at read
  split at read
  · cases read
  · cases read
  · split at read
    · cases read
      assumption
    · cases read
  · cases read

/-- The numbers of an occurrence are read from fields of the item. -/
theorem numberFields_of_ofJson?
    {item : Json} {occurrence : Occurrence} (read : ofJson? item = some occurrence) :
    (∃ field, numberField? field = some occurrence.line) ∧
      ∃ field, numberField? field = some occurrence.column := by
  cases item with
  | object members =>
      simp only [ofJson?, Option.bind_eq_bind, Option.bind_eq_some_iff] at read
      obtain ⟨file, _, line, lineRead, column, columnRead, found⟩ := read
      cases found
      exact ⟨⟨_, lineRead⟩, ⟨_, columnRead⟩⟩
  | array items =>
      simp only [ofJson?, Option.bind_eq_bind, Option.bind_eq_some_iff] at read
      obtain ⟨file, _, line, lineRead, column, columnRead, found⟩ := read
      split at found
      · cases found
      · cases found
        exact ⟨⟨_, lineRead⟩, ⟨_, columnRead⟩⟩
  | _ => cases read

/-- A recorded number other than the least of 64 bits is counted from zero and kept in range. -/
theorem zeroBased_eq_clamped_of_numberField?
    {field : Option Json} {recorded : Option Int}
    (read : numberField? field = some recorded)
    (other : recorded ≠ some (-Int.pow 2 63)) :
    zeroBased recorded = clamped recorded := by
  apply zeroBased_eq_clamped
  intro value member
  obtain ⟨above, below⟩ := range_of_numberField? read value member
  have notLeast : value ≠ -Int.pow 2 63 := by
    rintro rfl
    exact other member
  exact ⟨by omega, below⟩

end Occurrence

/-- The location a recorded item stands for. -/
def located? (files : FileSystem) (resolver : Resolver) (item : Json) : Option Location := do
  let occurrence ← Occurrence.ofJson? item
  let (path, strategy) ← resolver.resolvePath? files occurrence.path
  return {
    path
    line := Occurrence.zeroBased occurrence.line
    column := Occurrence.zeroBased occurrence.column
    strategy }

theorem located?_eq_resolve?
    (files : FileSystem) (resolver : Resolver) (item : Json) :
    located? files resolver item =
      (Occurrence.ofJson? item).bind (resolver.resolve? files) := by
  cases read : Occurrence.ofJson? item with
  | none => simp [located?, read]
  | some occurrence =>
      simp [located?, read, Resolver.resolve?, Occurrence.position]

/-- The items that are recorded for a symbol. -/
def itemsOf (symbol : String) (entries : List (String × Json)) : List Json :=
  match Json.binding? symbol entries with
  | some (.array items) => items
  | _ => []

theorem occurrences_eq_filterMap (metadata : Metadata) (symbol : String) :
    metadata.occurrences symbol =
      (itemsOf symbol metadata.globals).filterMap Occurrence.ofJson? := by
  unfold Metadata.occurrences itemsOf
  cases Json.binding? symbol metadata.globals with
  | none => rfl
  | some value => cases value <;> rfl

theorem filterMap_occurrences
    (files : FileSystem) (resolver : Resolver) (metadata : Metadata) (symbol : String) :
    (metadata.occurrences symbol).filterMap (resolver.resolve? files) =
      (itemsOf symbol metadata.globals).filterMap (located? files resolver) := by
  have composed :
      located? files resolver =
        fun item => (Occurrence.ofJson? item).bind (resolver.resolve? files) :=
    funext (located?_eq_resolve? files resolver)
  rw [composed, occurrences_eq_filterMap, List.filterMap_filterMap]

/-! ## The answer -/

theorem has_of_readText
    {files : FileSystem} {path : Path} {text : String}
    (read : files.readText path = .ok text) :
    files.has path = true := by
  unfold FileSystem.has
  cases found : files.find path with
  | ok node => rfl
  | error cause =>
      simp [FileSystem.readText, FileSystem.read, found, bind, Except.bind] at read

/-- The metadata of a project, step by step. -/
theorem ofProject?_eq
    (files : FileSystem) (root : Path) :
    Metadata.ofProject? files root =
      match Project.loadConfiguration files root with
      | .error _ => none
      | .ok configuration =>
          match files.readText
              (Metadata.artifactPath root configuration.output configuration.entryBase) with
          | .error _ => none
          | .ok text => (Metadata.parse text).toOption := by
  unfold Metadata.ofProject?
  cases Project.loadConfiguration files root with
  | error cause => rfl
  | ok configuration =>
      simp only [Except.toOption, Option.bind_eq_bind, Option.bind_some]
      generalize Metadata.artifactPath root configuration.output configuration.entryBase =
        artifact
      unfold Metadata.load
      cases read : files.readText artifact with
      | error cause =>
          cases files.has artifact <;> rfl
      | ok text =>
          rw [if_pos (has_of_readText read)]
          dsimp only
          cases Metadata.parse text <;> rfl

/-- What a lookup answers. -/
theorem lookup_eq
    (files : FileSystem) (root : Path) (folders : List Path) (symbol : String) :
    Definition.lookup files root folders symbol =
      match Project.loadConfiguration files root with
      | .error _ => []
      | .ok configuration =>
          match files.readText
              (Metadata.artifactPath root configuration.output configuration.entryBase) with
          | .error _ => []
          | .ok text =>
              match Metadata.parse text with
              | .error _ => []
              | .ok metadata =>
                  (itemsOf symbol metadata.globals).filterMap
                    (located? files (.new root configuration.output folders)) := by
  unfold Definition.lookup
  rw [ofProject?_eq]
  unfold Resolver.ofProject
  cases Project.loadConfiguration files root with
  | error cause => rfl
  | ok configuration =>
      dsimp only
      cases files.readText
          (Metadata.artifactPath root configuration.output configuration.entryBase) with
      | error cause => rfl
      | ok text =>
          dsimp only
          cases Metadata.parse text with
          | error fault => rfl
          | ok metadata => exact filterMap_occurrences ..

/-! ## Two runs -/

theorem attempt?_outline
    (resolver : Resolver) (files : FileSystem) (strategy : Strategy) (recorded : Path) :
    resolver.attempt? files.outline strategy recorded =
      resolver.attempt? files strategy recorded := by
  have sameFiles : files.outline.isFile = files.isFile :=
    funext files.isFile_outline
  cases strategy with
  | projectRoot => simp only [Resolver.attempt?, sameFiles]
  | outputDirectory => simp only [Resolver.attempt?, sameFiles]
  | workspaceFolder => simp only [Resolver.attempt?, sameFiles]
  | fileName => simp only [Resolver.attempt?, FileSystem.search_outline]
  | pathSuffix => exact FileSystem.search_outline ..

theorem located?_outline
    (files : FileSystem) (resolver : Resolver) (item : Json) :
    located? files.outline resolver item = located? files resolver item := by
  simp only [located?, Resolver.resolvePath?, attempt?_outline]

theorem located?_eq_of_outline
    {before after : FileSystem} (same : before.outline = after.outline)
    (resolver : Resolver) :
    located? before resolver = located? after resolver := by
  funext item
  rw [← located?_outline before, same, located?_outline]

/-- Two file systems differ in one document: their files lie in the same places, and a path
that does not give the same text in both gives the document in one and the changed document
in the other. -/
structure DiffersIn (before after : FileSystem) (document changed : String) : Prop where
  outline : before.outline = after.outline
  texts :
    ∀ path, before.readText path = after.readText path ∨
      before.readText path = .ok document ∧ after.readText path = .ok changed

/-- A new document written over another makes such a difference. -/
theorem differsIn_put_of_file
    {files : FileSystem} {place : Place} {old new : Bytes} {oldRuns newRuns : Bool}
    {document changed : String}
    (there : files.root.at? place = some (.file old oldRuns))
    (oldText : FileSystem.textOf? old = some document)
    (newText : FileSystem.textOf? new = some changed) :
    DiffersIn files (files.put place (.file new newRuns)) document changed where
  outline := FileSystem.outline_put_of_file there
  texts := FileSystem.readText_put_of_file there oldText newText

/-- A document is JSON, however deep it is nested, with one table among its members. -/
structure IsTableDocument (document : String) (members entries : List (String × Json)) :
    Prop where
  read : ∃ depth, Json.readWithin depth document.toList = .ok (.object members)
  single :
    members.filter (fun member => member.1 = "globals") = [("globals", .object entries)]

/-- Such a document is metadata exactly if its table is not nested too deep to be read. -/
theorem IsTableDocument.parse_cases
    {document : String} {members entries : List (String × Json)}
    (isTable : IsTableDocument document members entries) :
    if (Json.object entries).height < Json.maxDepth - 1 then
      Metadata.parse document = .ok ⟨entries⟩
    else ∃ fault, Metadata.parse document = .error fault := by
  obtain ⟨depth, read⟩ := isTable.read
  have parsed := Metadata.toOption_parse_of_read read isTable.single
  by_cases shallow : (Json.object entries).height < Json.maxDepth - 1
  · rw [Metadata.kept?, if_pos shallow] at parsed
    rw [if_pos shallow]
    exact Metadata.toOption_eq_some_iff.mp parsed
  · rw [Metadata.kept?, if_neg shallow] at parsed
    rw [if_neg shallow]
    exact Metadata.toOption_eq_none_iff.mp parsed

theorem IsTableDocument.parse
    {document : String} {members entries : List (String × Json)}
    (isTable : IsTableDocument document members entries)
    (shallow : (Json.object entries).height < Json.maxDepth - 1) :
    Metadata.parse document = .ok ⟨entries⟩ := by
  have parsed := isTable.parse_cases
  rwa [if_pos shallow] at parsed

/-- Two documents are objects with the same members, tables apart. -/
def AgreeBesidesTable (document changed : String) : Prop :=
  ∃ members members',
    Json.read document.toList = .ok (.object members) ∧
      Json.read changed.toList = .ok (.object members') ∧
      members.filter (fun member => member.1 ≠ "globals") =
        members'.filter (fun member => member.1 ≠ "globals")

/-- A configuration has no table, so a table makes no difference to it. -/
theorem configuration_parse_eq
    {document changed : String} (agree : AgreeBesidesTable document changed) :
    Configuration.parse document = Configuration.parse changed := by
  obtain ⟨members, members', read, changedRead, others⟩ := agree
  apply Configuration.parse_congr (Json.read_eq_ok_iff.mp read)
    (Json.read_eq_ok_iff.mp changedRead)
  intro name field
  have other : name ≠ "globals" := by
    rintro rfl
    exact absurd field (by decide)
  have besides (members : List (String × Json)) :
      Configuration.lastBinding (members.filter fun member => member.1 ≠ "globals") name =
        Configuration.lastBinding members name :=
    @Configuration.lastBinding_filter name (· ≠ "globals") _ other members
  rw [← besides members, others, besides members']

/-- The document is not the configuration, or what changes in it is not the configuration's. -/
def KeepsConfiguration
    (before after : FileSystem) (document changed : String) (root : Path) : Prop :=
  before.readText (root.child Configuration.fileName) =
      after.readText (root.child Configuration.fileName) ∨
    AgreeBesidesTable document changed

theorem loadConfiguration_eq
    {before after : FileSystem} {document changed : String} {root : Path}
    (differs : DiffersIn before after document changed)
    (keeps : KeepsConfiguration before after document changed root) :
    Project.loadConfiguration before root = Project.loadConfiguration after root := by
  unfold Project.loadConfiguration Configuration.load
  rcases keeps with same | agree
  · rw [same]
  rcases differs.texts (root.child Configuration.fileName) with same | ⟨old, new⟩
  · rw [same]
  · rw [old, new]
    simp only [configuration_parse_eq agree]

theorem filterMap_eq_of_filter_eq
    {alpha beta : Type} {f : alpha → Option beta} {left right : List alpha}
    (same :
      left.filter (fun item => (f item).isSome) =
        right.filter (fun item => (f item).isSome)) :
    left.filterMap f = right.filterMap f := by
  have useful (items : List alpha) :
      (items.filter fun item => (f item).isSome).filterMap f = items.filterMap f := by
    rw [List.filterMap_filter]
    congr 1
    funext item
    cases f item <;> rfl
  rw [← useful left, same, useful right]

/-- Documents that differ in entries of other symbols, or in items that come to nothing, give the
same answer. -/
theorem lookup_eq_of_sameItems
    {before after : FileSystem} {document changed : String}
    {entries entries' : List (String × Json)}
    {root : Path} {folders : List Path} {symbol : String}
    (differs : DiffersIn before after document changed)
    (keeps : KeepsConfiguration before after document changed root)
    (parsed : Metadata.parse document = .ok ⟨entries⟩)
    (changedParsed : Metadata.parse changed = .ok ⟨entries'⟩)
    (sameItems :
      (itemsOf symbol entries).filter
          (fun item =>
            (located? before (Resolver.ofProject before root folders) item).isSome) =
        (itemsOf symbol entries').filter
          (fun item =>
            (located? before (Resolver.ofProject before root folders) item).isSome)) :
    Definition.lookup before root folders symbol =
      Definition.lookup after root folders symbol := by
  rw [lookup_eq, lookup_eq, ← loadConfiguration_eq differs keeps]
  unfold Resolver.ofProject at sameItems
  cases loaded : Project.loadConfiguration before root with
  | error cause => rfl
  | ok configuration =>
      simp only [loaded] at sameItems
      dsimp only
      rw [← located?_eq_of_outline differs.outline (.new root configuration.output folders)]
      rcases differs.texts
          (Metadata.artifactPath root configuration.output configuration.entryBase) with
        same | ⟨old, new⟩
      · rw [same]
      · rw [old, new]
        dsimp only
        rw [parsed, changedParsed]
        exact filterMap_eq_of_filter_eq sameItems

/-- A lookup answers from the items of its symbol: with one location for each that is an occurrence
and whose path is resolved, at the recorded line and column, which are counted from zero and kept in
range unless they are the least number of 64 bits. Other entries, and items that come to nothing,
make no difference between documents that are metadata, and a document with one table is metadata
exactly if the table is not nested too deep. -/
theorem lookup_answers_from_its_items
    (files : FileSystem) (root : Path) (folders : List Path) (symbol : String) :
    (Definition.lookup files root folders symbol =
        match Project.loadConfiguration files root with
        | .error _ => []
        | .ok configuration =>
            match files.readText
                (Metadata.artifactPath root configuration.output
                  configuration.entryBase) with
            | .error _ => []
            | .ok text =>
                match Metadata.parse text with
                | .error _ => []
                | .ok metadata =>
                    (itemsOf symbol metadata.globals).filterMap
                      (located? files (.new root configuration.output folders))) ∧
      (∀ item occurrence,
        Occurrence.ofJson? item = some occurrence →
          (occurrence.line ≠ some (-Int.pow 2 63) →
              Occurrence.zeroBased occurrence.line = clamped occurrence.line) ∧
            (occurrence.column ≠ some (-Int.pow 2 63) →
              Occurrence.zeroBased occurrence.column = clamped occurrence.column)) ∧
      (∀ after document changed entries entries',
        DiffersIn files after document changed →
          KeepsConfiguration files after document changed root →
          Metadata.parse document = .ok ⟨entries⟩ →
          Metadata.parse changed = .ok ⟨entries'⟩ →
          (itemsOf symbol entries).filter
              (fun item =>
                (located? files (Resolver.ofProject files root folders) item).isSome) =
            (itemsOf symbol entries').filter
              (fun item =>
                (located? files (Resolver.ofProject files root folders) item).isSome) →
          Definition.lookup files root folders symbol =
            Definition.lookup after root folders symbol) ∧
      ∀ document members entries,
        IsTableDocument document members entries →
          if (Json.object entries).height < Json.maxDepth - 1 then
            Metadata.parse document = .ok ⟨entries⟩
          else ∃ fault, Metadata.parse document = .error fault := by
  refine ⟨lookup_eq files root folders symbol, ?_, ?_, fun _ _ _ isTable => isTable.parse_cases⟩
  · intro item occurrence read
    obtain ⟨⟨_, lineRead⟩, _, columnRead⟩ := Occurrence.numberFields_of_ofJson? read
    exact ⟨Occurrence.zeroBased_eq_clamped_of_numberField? lineRead,
      Occurrence.zeroBased_eq_clamped_of_numberField? columnRead⟩
  · intro after document changed entries entries' differs keeps parsed changedParsed sameItems
    exact lookup_eq_of_sameItems differs keeps parsed changedParsed sameItems

/-! ## A project -/

/-- Metadata for one symbol and whatever is recorded for another. -/
def tableWith (other : Json) : Json :=
  .object [("globals", .object
    [("main", .array [.object [("file", .string "main.mpl")]]), ("other", other)])]

def notebookConfiguration : String :=
  "\x7b\"entryPoint\":\"main.mpl\",\"output\":\"app\"\x7d"

/-- A project with one file and the given metadata. -/
def notebook (metadata : Json) : FileSystem where
  root := .directory
    [("mpl.json", .file (Text.encode notebookConfiguration) false),
      ("main.mpl", .file [] false),
      ("app.meta.json", .file (Text.encode metadata.render) false)]
  workingDirectory := []

theorem isTableDocument_tableWith
    {other : Json} (short : other = .null ∨ other = .boolean true) :
    IsTableDocument (tableWith other).render
      [("globals", .object
        [("main", .array [.object [("file", .string "main.mpl")]]), ("other", other)])]
      [("main", .array [.object [("file", .string "main.mpl")]]), ("other", other)] where
  read := by
    refine ⟨Json.maxDepth, ?_⟩
    rw [Json.render, String.toList_ofList]
    rcases short with rfl | rfl
    · cbv
    · cbv
  single := rfl

theorem height_tableWith
    {other : Json} (short : other = .null ∨ other = .boolean true) :
    (Json.object
      [("main", .array [.object [("file", .string "main.mpl")]]), ("other", other)]).height <
        Json.maxDepth - 1 := by
  rcases short with rfl | rfl
  · decide
  · decide

theorem readText_of_find
    {files : FileSystem} {path : Path} {text : String} {executable : Bool}
    (found : files.find path = .ok (.file (Text.encode text) executable)) :
    files.readText path = .ok text := by
  simp [FileSystem.readText, FileSystem.read, found, textOf?_encode, bind, Except.bind,
    pure, Except.pure]

theorem lookup_main_eq :
    Definition.lookup (notebook (tableWith .null)) ⟨"/"⟩ [] "main" =
        Definition.lookup
          ((notebook (tableWith .null)).put ["app.meta.json"]
            (.file (Text.encode (tableWith (.boolean true)).render) false))
          ⟨"/"⟩ [] "main" ∧
      Occurrence.zeroBased (some 3) = clamped (some 3) := by
  obtain ⟨_, position_eq, sameItems_eq, parse_cases⟩ :=
    lookup_answers_from_its_items (notebook (tableWith .null)) ⟨"/"⟩ [] "main"
  have parsed (other : Json) (short : other = .null ∨ other = .boolean true) :=
    (if_pos (height_tableWith short)).mp (parse_cases _ _ _ (isTableDocument_tableWith short))
  constructor
  · exact sameItems_eq _ _ _ _ _
      (@differsIn_put_of_file (notebook (tableWith .null)) ["app.meta.json"] _ _ false false
        _ _ rfl (textOf?_encode _) (textOf?_encode _))
      (.inl ((readText_of_find rfl).trans (readText_of_find rfl).symm))
      (parsed .null (.inl rfl)) (parsed (.boolean true) (.inr rfl)) rfl
  · exact (position_eq (.object [("line", .integer 3)]) ⟨none, some 3, none⟩ (by decide)).1
      (by decide)

/-- Arrays within arrays. -/
def nested : Nat → Json
  | 0 => .array []
  | depth + 1 => .array [nested depth]

theorem parse_notebookConfiguration :
    (Configuration.parse notebookConfiguration).toOption =
      some ⟨none, none, none, "main.mpl", "app", none, none⟩ := by
  decide +kernel

theorem lookup_notebook_eq_nil
    {metadata : Json} (symbol : String)
    (refused : (Metadata.read metadata.written).toOption.isSome = false) :
    Definition.lookup (notebook metadata) ⟨"/"⟩ [] symbol = [] := by
  have configured :
      Project.loadConfiguration (notebook metadata) ⟨"/"⟩ =
        (Configuration.parse notebookConfiguration).mapError (.unloadable ⟨"/"⟩) := by
    rw [Project.loadConfiguration, Configuration.load, readText_of_find rfl]
  have document :
      (notebook metadata).readText (Metadata.artifactPath ⟨"/"⟩ "app" "main") =
        .ok metadata.render :=
    readText_of_find rfl
  rw [lookup_eq, configured]
  have read := parse_notebookConfiguration
  cases parsed : Configuration.parse notebookConfiguration with
  | error cause => rfl
  | ok configuration =>
      rw [parsed, Except.toOption, Option.some.injEq] at read
      subst read
      simp only [Except.mapError]
      rw [show Configuration.entryBase ⟨none, none, none, "main.mpl", "app", none, none⟩ =
        "main" from by decide, document]
      simp only [Metadata.parse, Json.render, String.toList_ofList]
      cases outcome : Metadata.read metadata.written with
      | error fault => rfl
      | ok found =>
          rw [outcome] at refused
          cases refused

/-- An entry that is nested too deep to be read hides the other symbols too. -/
theorem deep_entry_hides_symbols :
    ¬ (∀ other : Json,
        Definition.lookup (notebook (tableWith other)) ⟨"/"⟩ [] "main" =
          Definition.lookup (notebook (tableWith .null)) ⟨"/"⟩ [] "main") ∧
      ¬ ∀ entries : List (String × Json), ∃ metadata,
        Metadata.parse (Json.render (.object [("globals", .object entries)])) =
          .ok metadata := by
  have tooDeep :
      (Metadata.read (tableWith (nested Json.maxDepth)).written).toOption.isSome = false := by
    decide +kernel
  constructor
  · intro same
    have shallow :
        Definition.lookup (notebook (tableWith .null)) ⟨"/"⟩ [] "main" ≠ [] := by
      decide +kernel
    rw [← same (nested Json.maxDepth), lookup_notebook_eq_nil "main" tooDeep] at shallow
    exact shallow rfl
  · intro parses
    obtain ⟨metadata, parsed⟩ :=
      parses
        [("main", .array [.object [("file", .string "main.mpl")]]),
          ("other", nested Json.maxDepth)]
    rw [Metadata.parse, Json.render, String.toList_ofList] at parsed
    rw [tableWith, parsed] at tooDeep
    cases tooDeep

end MplServer
