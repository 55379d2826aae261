import Mathlib.Algebra.GroupWithZero.Nat
import Mathlib.Data.List.TakeWhile
import MplServer.Metadata.Artifact
import MplServer.Proofs.Project.Invocation

/-!
# The metadata of a build lies beside its output

The output is passed to the compiler as it is written, and the blanks at its ends are cut off where
the metadata is looked for. The two name one file just when there is nothing to cut off.
-/

namespace MplServer

namespace Text

/-! ## Blanks at the ends -/

theorem exists_trim (text : String) :
    ∃ front back : String,
      text = front ++ trim text ++ back ∧
        (∀ c ∈ front.toList, isBlank c = true) ∧ ∀ c ∈ back.toList, isBlank c = true := by
  let middle := text.toList.dropWhile isBlank
  have cutFront : text.toList.takeWhile isBlank ++ middle = text.toList :=
    List.takeWhile_append_dropWhile
  have cutBack :
      (middle.reverse.dropWhile isBlank).reverse ++
          (middle.reverse.takeWhile isBlank).reverse =
        middle := by
    rw [← List.reverse_append, List.takeWhile_append_dropWhile, List.reverse_reverse]
  refine
    ⟨String.ofList (text.toList.takeWhile isBlank),
      String.ofList (middle.reverse.takeWhile isBlank).reverse, ?_, ?_, ?_⟩
  · apply String.toList_injective
    rw [String.toList_append, String.toList_append, trim, String.toList_ofList,
      String.toList_ofList, String.toList_ofList, List.append_assoc, cutBack, cutFront]
  · intro c member
    rw [String.toList_ofList] at member
    exact List.mem_takeWhile_imp member
  · intro c member
    rw [String.toList_ofList, List.mem_reverse] at member
    exact List.mem_takeWhile_imp member

theorem trim_ne_empty
    {text : String}
    (given : isBlankText text = false) :
    trim text ≠ "" := by
  obtain ⟨front, back, text_eq, frontBlank, backBlank⟩ := exists_trim text
  intro nothing
  have blank : isBlankText text = true := by
    rw [text_eq, nothing, isBlankText, List.all_eq_true]
    intro c member
    rw [String.append_empty, String.toList_append, List.mem_append] at member
    rcases member with inFront | inBack
    · exact frontBlank c inFront
    · exact backBlank c inBack
  rw [blank] at given
  cases given

theorem slash_not_mem_of_blank
    {text : String}
    (blank : ∀ c ∈ text.toList, isBlank c = true) :
    '/' ∉ text.toList := by
  intro member
  have slashBlank := blank '/' member
  revert slashBlank
  decide

end Text

namespace Path

/-! ## The characters in the steps of a path -/

/-- How many characters the steps of a path have together. -/
def weight (path : Path) : Nat :=
  (path.steps.map fun step => step.text.length).sum

theorem weight_append_slash (left right : String) :
    weight ⟨left ++ "/" ++ right⟩ = weight ⟨left⟩ + weight ⟨right⟩ := by
  rw [weight, steps_append_slash, List.map_append, List.sum_append]
  rfl

theorem weight_join
    {path next : Path}
    (relative : next.isAbsolute = false) :
    (path.join next).weight = path.weight + next.weight := by
  rw [weight, steps_join relative, List.map_append, List.sum_append]
  rfl

theorem weight_le_weight_join (path next : Path) :
    next.weight ≤ (path.join next).weight := by
  cases form : next.isAbsolute with
  | true => rw [join_of_isAbsolute form]
  | false =>
      rw [weight_join form]
      exact Nat.le_add_left _ _

theorem weight_of_isName
    {text : String} (isName : IsName text) :
    weight ⟨text⟩ = text.length := by
  rw [weight, steps_of_isName isName]
  simp [Component.text]

theorem weight_le_length
    {text : String} (unbroken : '/' ∉ text.toList) :
    weight ⟨text⟩ ≤ text.length := by
  have onePiece : pieces ⟨text⟩ = [text] :=
    Text.splitAt_eq_singleton unbroken
  rw [weight, steps, onePiece]
  by_cases meaningless : text = "" ∨ text = "."
  · simp [Component.ofPiece?, meaningless]
  · by_cases dots : text = ".."
    · simp [Component.ofPiece?, dots, Component.text]
    · simp [Component.ofPiece?, meaningless, dots, Component.text]

theorem isAbsolute_append
    {text : String} (more : String) (nonempty : text ≠ "") :
    isAbsolute ⟨text ++ more⟩ = isAbsolute ⟨text⟩ := by
  cases characters : text.toList with
  | nil => exact absurd (String.toList_injective characters) nonempty
  | cons first rest => simp [isAbsolute, characters]

theorem isAbsolute_of_blank_append
    {front text : String}
    (blank : ∀ c ∈ front.toList, Text.isBlank c = true)
    (absolute : isAbsolute ⟨front ++ text⟩ = true) :
    isAbsolute ⟨text⟩ = true := by
  by_cases empty : front = ""
  · rwa [empty, String.empty_append] at absolute
  · rw [isAbsolute_append text empty, isAbsolute, beq_iff_eq] at absolute
    exact absurd (List.mem_of_mem_head? absolute) (Text.slash_not_mem_of_blank blank)

theorem isName_blank_append
    {front text : String}
    (blank : ∀ c ∈ front.toList, Text.isBlank c = true)
    (nonempty : front ≠ "")
    (unbroken : '/' ∉ text.toList) :
    IsName (front ++ text) := by
  cases characters : front.toList with
  | nil => exact absurd (String.toList_injective characters) nonempty
  | cons first rest =>
      have firstBlank : Text.isBlank first = true := by
        apply blank
        rw [characters]
        exact List.mem_cons_self
      -- Neither of the dots is a blank.
      have other : ∀ text', text'.toList.head? ≠ some first → front ++ text ≠ text' := by
        rintro text' different rfl
        simp [characters] at different
      have notDot : first ≠ '.' := by
        rintro rfl
        revert firstBlank
        decide
      refine ⟨other "" (by simp), other "." ?_, other ".." ?_, ?_⟩
      · simpa using notDot.symm
      · simpa using notDot.symm
      · simp [Text.slash_not_mem_of_blank blank, unbroken]

theorem isName_append_nameEnding
    {text : String} (unbroken : '/' ∉ text.toList) :
    IsName (text ++ Metadata.nameEnding) := by
  have longer : ∀ other : String, other.length < 10 → text ++ Metadata.nameEnding ≠ other := by
    rintro other short rfl
    rw [String.length_append] at short
    have endingLength : Metadata.nameEnding.length = 10 := by
      decide
    omega
  have endingUnbroken : '/' ∉ Metadata.nameEnding.toList := by
    decide
  refine ⟨longer "" (by decide), longer "." (by decide), longer ".." (by decide), ?_⟩
  simp [unbroken, endingUnbroken]

/-- Blanks before a path are part of its first name. -/
theorem weight_add_length_le
    {front : String} (text : String)
    (blank : ∀ c ∈ front.toList, Text.isBlank c = true) :
    weight ⟨text⟩ + front.length ≤ weight ⟨front ++ text⟩ := by
  by_cases empty : front = ""
  · simp [empty]
  · obtain ⟨first, unbroken, text_eq⟩ := Text.exists_first_piece text
    have firstWeight := weight_le_length unbroken
    have longerWeight := weight_of_isName (isName_blank_append blank empty unbroken)
    rw [String.length_append] at longerWeight
    rcases text_eq with rfl | ⟨behind, rfl⟩
    · omega
    · rw [← String.append_assoc, ← String.append_assoc, weight_append_slash,
        weight_append_slash]
      omega

/-- Blanks before the ending are part of the last name. -/
theorem weight_append_nameEnding
    (text : String) {back : String}
    (unbroken : '/' ∉ back.toList) :
    weight ⟨text ++ back ++ Metadata.nameEnding⟩ =
      weight ⟨text ++ Metadata.nameEnding⟩ + back.length := by
  obtain ⟨last, lastUnbroken, text_eq⟩ := Text.exists_last_piece text
  have bothUnbroken : '/' ∉ (last ++ back).toList := by
    simp [lastUnbroken, unbroken]
  have shortWeight := weight_of_isName (isName_append_nameEnding lastUnbroken)
  have longWeight := weight_of_isName (isName_append_nameEnding bothUnbroken)
  rw [String.length_append] at shortWeight
  rw [String.length_append, String.length_append] at longWeight
  rcases text_eq with rfl | ⟨before, rfl⟩
  · omega
  · have longCut :
        before ++ "/" ++ last ++ back ++ Metadata.nameEnding =
          before ++ "/" ++ (last ++ back ++ Metadata.nameEnding) := by
      simp only [String.append_assoc]
    have shortCut :
        before ++ "/" ++ last ++ Metadata.nameEnding =
          before ++ "/" ++ (last ++ Metadata.nameEnding) := by
      simp only [String.append_assoc]
    rw [longCut, shortCut, weight_append_slash, weight_append_slash]
    omega

end Path

namespace Metadata

/-! ## Where the metadata is looked for -/

variable {root : Path} {output entryBase : String}

theorem artifactPath_eq_join_of_named
    (root : Path) (entryBase : String)
    (named : Text.trim output ≠ "") :
    artifactPath root output entryBase = root.join ⟨Text.trim output ++ nameEnding⟩ := by
  unfold artifactPath
  rw [if_neg (by simpa using named)]
  split
  · next absolute =>
    have longerAbsolute :
        (⟨Text.trim output ++ nameEnding⟩ : Path).isAbsolute = true := by
      rw [Path.isAbsolute_append nameEnding named, absolute]
    rw [Path.join_of_isAbsolute longerAbsolute]
  · rfl

/-- The artifact is named after the output without the blanks at its ends. -/
theorem artifactPath_eq_join
    (root : Path) (entryBase : String)
    (given : Text.isBlankText output = false) :
    artifactPath root output entryBase = root.join ⟨Text.trim output ++ nameEnding⟩ :=
  artifactPath_eq_join_of_named root entryBase (Text.trim_ne_empty given)

theorem ofProject?_of_configured
    {files : FileSystem} {configuration : Configuration}
    (configured : Project.loadConfiguration files root = .ok configuration) :
    ofProject? files root =
      (load files
        (artifactPath root configuration.output configuration.entryBase)).toOption := by
  simp only [ofProject?, configured, Except.toOption, Option.bind_eq_bind, Option.bind_some]

/-- The blanks that are cut off are missing among the steps. -/
theorem weight_join_trimmed_le
    {front name back : String}
    (root : Path)
    (named : name ≠ "")
    (frontBlank : ∀ c ∈ front.toList, Text.isBlank c = true)
    (backBlank : ∀ c ∈ back.toList, Text.isBlank c = true) :
    (root.join ⟨name ++ nameEnding⟩).weight + front.length + back.length ≤
      (root.join ⟨front ++ name ++ back ++ nameEnding⟩).weight := by
  have frontWeight := Path.weight_add_length_le (name ++ nameEnding) frontBlank
  have backWeight :=
    Path.weight_append_nameEnding (front ++ name) (Text.slash_not_mem_of_blank backBlank)
  rw [← String.append_assoc] at frontWeight
  cases form : (⟨name ++ nameEnding⟩ : Path).isAbsolute with
  | true =>
      have wholeWeight :=
        Path.weight_le_weight_join root ⟨front ++ name ++ back ++ nameEnding⟩
      rw [Path.join_of_isAbsolute form]
      omega
  | false =>
      have wholeForm :
          (⟨front ++ name ++ back ++ nameEnding⟩ : Path).isAbsolute = false := by
        rw [Bool.eq_false_iff]
        intro absolute
        rw [String.append_assoc, String.append_assoc] at absolute
        have behindFront := Path.isAbsolute_of_blank_append frontBlank absolute
        rw [Path.isAbsolute_append _ named] at behindFront form
        rw [behindFront] at form
        cases form
      rw [Path.weight_join form, Path.weight_join wholeForm]
      omega

theorem sameAs_join_iff_trim_eq
    (root : Path)
    (given : Text.isBlankText output = false) :
    (root.join ⟨Text.trim output ++ nameEnding⟩).sameAs
          (root.join ⟨output ++ nameEnding⟩) =
        true ↔
      Text.trim output = output := by
  constructor
  · intro same
    obtain ⟨front, back, output_eq, frontBlank, backBlank⟩ := Text.exists_trim output
    have lighter :=
      weight_join_trimmed_le root (Text.trim_ne_empty given) frontBlank backBlank
    have sameSteps := Path.steps_eq_of_components_eq (of_decide_eq_true same)
    have sameWeight :
        (root.join ⟨Text.trim output ++ nameEnding⟩).weight =
          (root.join ⟨output ++ nameEnding⟩).weight := by
      rw [Path.weight, sameSteps, Path.weight]
    rw [← output_eq, ← sameWeight] at lighter
    have noFront : front = "" := by
      rw [← String.length_eq_zero_iff]
      omega
    have noBack : back = "" := by
      rw [← String.length_eq_zero_iff]
      omega
    rw [noFront, noBack, String.empty_append, String.append_empty] at output_eq
    exact output_eq.symm
  · intro nothingCut
    rw [nothingCut]
    exact decide_eq_true rfl

/-- A project whose output is not blank is looked up beside the output that its command line names,
less the blanks at the ends of it. This is the file that the compiler writes just when there are no
such blanks. -/
theorem artifactPath_sameAs_written_iff
    (root : Path) (settings : Settings) (configuration : Configuration)
    (given : Text.isBlankText configuration.output = false) :
    ∃ reading,
      Invocation.read? (configuration.invocation root settings).words = some reading ∧
        artifactPath root configuration.output configuration.entryBase =
          root.join ⟨Text.trim reading.output ++ nameEnding⟩ ∧
        ((artifactPath root configuration.output configuration.entryBase).sameAs
              (root.join ⟨reading.output ++ nameEnding⟩) =
            true ↔
          Text.trim reading.output = reading.output) ∧
        ∀ files : FileSystem,
          Project.loadConfiguration files root = .ok configuration →
            ofProject? files root =
              (load files (root.join ⟨Text.trim reading.output ++ nameEnding⟩)).toOption := by
  have lookedFor := artifactPath_eq_join root configuration.entryBase given
  refine
    ⟨_, BuildPlan.read?_invocation root (BuildPlan.of configuration settings),
      lookedFor, ?_, ?_⟩
  · rw [lookedFor]
    exact sameAs_join_iff_trim_eq root given
  · intro files configured
    rw [ofProject?_of_configured configured, lookedFor]
    rfl

/-- A configuration with nothing but what it must have. -/
def plainConfiguration (output : String) : Configuration where
  compilerPath := none
  includePaths := none
  triple := none
  entryPoint := "main.mpl"
  output := output
  debug := none
  metaInfo := none

theorem build_app_artifact_sameAs_written :
    Text.isBlankText (plainConfiguration "build/app").output = false ∧
      (artifactPath ⟨"/proj"⟩ "build/app" "main").sameAs
          ⟨"/proj/build/app.meta.json"⟩ =
        true := by
  have given : Text.isBlankText (plainConfiguration "build/app").output = false := by
    decide
  obtain ⟨reading, read, _, sameAs_iff, _⟩ :=
    artifactPath_sameAs_written_iff ⟨"/proj"⟩ (Settings.ofLayers [])
      (plainConfiguration "build/app") given
  have output_eq : reading.output = "build/app" := by
    rw [Configuration.invocation, BuildPlan.read?_invocation, Option.some.injEq] at read
    rw [← read]
    rfl
  rw [output_eq] at sameAs_iff
  exact ⟨given, sameAs_iff.mpr (by decide)⟩

/-- The file behind a blank is written, and the file without the blank is looked for. -/
theorem padded_output_artifact_not_sameAs_written :
    (Configuration.parse "\x7b\"entryPoint\":\"main.mpl\",\"output\":\" out\"\x7d").toOption =
        some (plainConfiguration " out") ∧
      Text.isBlankText (plainConfiguration " out").output = false ∧
      ∃ reading,
        Invocation.read?
              ((plainConfiguration " out").invocation ⟨"/proj"⟩ (Settings.ofLayers [])).words =
            some reading ∧
          (artifactPath ⟨"/proj"⟩ (plainConfiguration " out").output
                (plainConfiguration " out").entryBase).sameAs
              ((⟨"/proj"⟩ : Path).join ⟨reading.output ++ nameEnding⟩) =
            false := by
  refine ⟨by decide +kernel, by decide, _, BuildPlan.read?_invocation _ _, ?_⟩
  decide

end Metadata

end MplServer
