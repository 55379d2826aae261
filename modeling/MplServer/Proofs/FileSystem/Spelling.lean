import MplServer.Proofs.FileSystem.Steps
import MplServer.Proofs.Path.Ancestors

/-!
# Spellings of a path

Slashes and dots can be put into the text of a path. Where it leads stays the same, as long as the
text is not too long, and does not end in a dot or a slash where there is no directory.
-/

namespace MplServer

namespace Node

variable {root : Node} {links : Nat} {place final : Place} {rest : List String}

/-! ## Steps with dots -/

theorem Leads.dots_append
    {dots : List String} {entries : List (String × Node)}
    (leads : Leads root links place rest final)
    (inDirectory : root.at? place = some (.directory entries))
    (allDots : ∀ step ∈ dots, step = ".") :
    Leads root links place (dots ++ rest) final := by
  induction dots with
  | nil => exact leads
  | cons step others inductionHypothesis =>
      rw [List.forall_mem_cons] at allDots
      obtain ⟨rfl, othersDots⟩ := allDots
      exact .dot inDirectory (inductionHypothesis othersDots)

/-- The first step that is no dot, with the dots before it. -/
theorem exists_dots_of_filter_eq_cons
    {step : String} {others : List String}
    (filtered : rest.filter (· ≠ ".") = step :: others) :
    ∃ dots behind, rest = dots ++ step :: behind ∧ (∀ dot ∈ dots, dot = ".") ∧
      others = behind.filter (· ≠ ".") ∧
        (behind.getLast? = some "." → rest.getLast? = some ".") := by
  obtain ⟨dots, behind, rfl, allDots, _, behind_eq⟩ := List.filter_eq_cons_iff.mp filtered
  refine ⟨dots, behind, rfl, by simpa using allDots, behind_eq.symm, ?_⟩
  intro last
  rw [List.getLast?_append, List.getLast?_cons, last]
  rfl

/-- Dots can be put into steps, but not behind the last of them where that leads to no directory. -/
theorem Leads.insert_dots_append
    {whole front : List String}
    (leads : Leads root links place whole final)
    (parts : whole = front ++ rest.filter (· ≠ "."))
    (ending :
      (∃ entries, root.at? final = some (.directory entries)) ∨ rest.getLast? ≠ some ".") :
    Leads root links place (front ++ rest) final := by
  induction leads generalizing front rest with
  | stop links place =>
      obtain ⟨rfl, noSteps⟩ := List.append_eq_nil_iff.mp parts.symm
      have allDots : ∀ step ∈ rest, step = "." := by
        simpa [List.filter_eq_nil_iff] using noSteps
      rcases ending with ⟨entries, inDirectory⟩ | undotted
      · have stays := (Leads.stop links place).dots_append inDirectory allDots
        rwa [List.append_nil] at stays
      · have nothing : rest = [] := by
          rcases List.eq_nil_or_concat' rest with none | ⟨before, last, rfl⟩
          · exact none
          · rw [allDots last (by simp), List.getLast?_concat] at undotted
            exact absurd rfl undotted
        rw [nothing]
        exact .stop links place
  | dot inDirectory onward inductionHypothesis =>
      cases front with
      | nil =>
          obtain ⟨_, _, _, _, kept, _⟩ := List.filter_eq_cons_iff.mp parts.symm
          simp at kept
      | cons step others =>
          obtain ⟨rfl, rfl⟩ := List.cons.inj parts
          exact .dot inDirectory (inductionHypothesis rfl ending)
  | dots inDirectory onward inductionHypothesis =>
      cases front with
      | nil =>
          obtain ⟨dots, behind, rfl, allDots, rfl, last⟩ :=
            exists_dots_of_filter_eq_cons parts.symm
          have taken := @inductionHypothesis behind [] rfl (ending.imp_right (mt last))
          exact (Leads.dots inDirectory taken).dots_append inDirectory allDots
      | cons step others =>
          obtain ⟨rfl, rfl⟩ := List.cons.inj parts
          exact .dots inDirectory (inductionHypothesis rfl ending)
  | entry inDirectory notDot notDots found noLink onward inductionHypothesis =>
      cases front with
      | nil =>
          obtain ⟨dots, behind, rfl, allDots, rfl, last⟩ :=
            exists_dots_of_filter_eq_cons parts.symm
          have taken := @inductionHypothesis behind [] rfl (ending.imp_right (mt last))
          exact (Leads.entry inDirectory notDot notDots found noLink taken).dots_append
            inDirectory allDots
      | cons step others =>
          obtain ⟨rfl, rfl⟩ := List.cons.inj parts
          exact .entry inDirectory notDot notDots found noLink (inductionHypothesis rfl ending)
  | link inDirectory notDot notDots found onward inductionHypothesis =>
      -- The steps of the link's target come before those that dots are put into.
      cases front with
      | nil =>
          obtain ⟨dots, behind, rfl, allDots, rfl, last⟩ :=
            exists_dots_of_filter_eq_cons parts.symm
          have taken := inductionHypothesis rfl (ending.imp_right (mt last))
          exact (Leads.link inDirectory notDot notDots found taken).dots_append
            inDirectory allDots
      | cons step others =>
          obtain ⟨rfl, rfl⟩ := List.cons.inj parts
          have taken := inductionHypothesis (List.append_assoc ..).symm ending
          rw [List.append_assoc] at taken
          exact .link inDirectory notDot notDots found taken

theorem Leads.insert_dots
    {steps : List String}
    (leads : Leads root links place (steps.filter (· ≠ ".")) final)
    (ending :
      (∃ entries, root.at? final = some (.directory entries)) ∨ steps.getLast? ≠ some ".") :
    Leads root links place steps final :=
  @Leads.insert_dots_append _ _ _ _ _ _ [] leads rfl ending

end Node

/-! ## Spellings -/

/-- A NUL character in a path stands in one of its steps. -/
theorem exists_step_of_nul
    {path : Path} (nul : '\x00' ∈ path.text.toList) :
    ∃ step ∈ path.steps, '\x00' ∈ step.text.toList := by
  obtain ⟨piece, inPieces, inPiece⟩ := Text.exists_mem_splitAt nul (by decide : _ ≠ '/')
  have notEmpty : piece ≠ "" := by
    rintro rfl
    simp at inPiece
  have notDot : piece ≠ "." := by
    rintro rfl
    exact absurd inPiece (by decide)
  by_cases dots : piece = ".."
  · rw [dots] at inPiece
    exact absurd inPiece (by decide)
  · have read : Path.Component.ofPiece? piece = some (.name piece) := by
      simp [Path.Component.ofPiece?, notEmpty, notDot, dots]
    exact ⟨.name piece, List.mem_filterMap.mpr ⟨piece, inPieces, read⟩, inPiece⟩

theorem nul_of_mem_steps
    {path : Path} {step : Path.Component}
    (member : step ∈ path.steps) (nul : '\x00' ∈ step.text.toList) :
    '\x00' ∈ path.text.toList := by
  obtain ⟨piece, inPieces, read⟩ := List.mem_filterMap.mp member
  unfold Path.Component.ofPiece? at read
  split at read
  · cases read
  · split at read
    · cases read
      exact absurd nul (by decide)
    · cases read
      exact Text.mem_of_mem_splitAt inPieces nul

/-- A text whose last character is no slash asks for no directory by it, and one whose last
character is no dot by none either. -/
theorem getLast?_stepsOf_ne_dot
    {text : String} {letter : Char}
    (last : text.toList.getLast? = some letter)
    (notSlash : letter ≠ '/') (notDot : letter ≠ '.') :
    (stepsOf text).getLast? ≠ some "." := by
  obtain ⟨piece, unbroken, form⟩ := Text.exists_last_piece text
  have ending : piece.toList.getLast? = some letter := by
    rcases form with rfl | ⟨before, rfl⟩
    · exact last
    · rw [String.toList_append, List.getLast?_append] at last
      cases shape : piece.toList.getLast? with
      | some final =>
          rw [shape, Option.some_or] at last
          exact last
      | none =>
          rw [shape, Option.none_or, String.toList_append, List.getLast?_append] at last
          simp at last
          exact absurd last.symm notSlash
  have nonempty : piece ≠ "" := by
    rintro rfl
    simp at ending
  have notDotted : piece ≠ "." := by
    rintro rfl
    simp at ending
    exact notDot ending.symm
  obtain ⟨front, steps_eq⟩ := exists_stepsOf_eq_concat unbroken nonempty form
  rw [steps_eq, List.getLast?_concat]
  simpa using notDotted

/-- Two absolute paths with the same components: they differ by slashes and dots only. Unless they
do not differ at all, both are short enough to be followed. -/
structure Respelled (left right : Path) : Prop where
  absolute : left.isAbsolute = true
  same : left.components = right.components
  short :
    left = right ∨
      left.text.utf8ByteSize ≤ FileSystem.maxPathSize ∧
        right.text.utf8ByteSize ≤ FileSystem.maxPathSize

/-- The text of a path ends in neither a slash nor a dot. -/
def EndsPlainly (path : Path) : Prop :=
  ∃ letter, path.text.toList.getLast? = some letter ∧ letter ≠ '/' ∧ letter ≠ '.'

namespace Respelled

variable {left right : Path}

theorem symm (respelled : Respelled left right) : Respelled right left := by
  refine ⟨?_, respelled.same.symm, ?_⟩
  · rw [← Path.isAbsolute_eq_of_components_eq respelled.same, respelled.absolute]
  · rcases respelled.short with equal | ⟨leftShort, rightShort⟩
    · exact .inl equal.symm
    · exact .inr ⟨rightShort, leftShort⟩

theorem steps_eq (respelled : Respelled left right) : left.steps = right.steps :=
  Path.steps_eq_of_components_eq respelled.same

end Respelled

namespace FileSystem

variable {files others : FileSystem} {left right : Path} {node : Node}

/-- What is found at a path is found at any spelling of it, unless the spelling ends like that of a
directory and what is found is none. -/
theorem find_of_respelled
    (sameTree : others.root = files.root)
    (respelled : Respelled left right)
    (ending : (∃ entries, node = .directory entries) ∨ EndsPlainly right)
    (found : files.find left = .ok node) :
    others.find right = .ok node := by
  obtain ⟨place, located, reached⟩ := find_eq_ok_iff.mp found
  obtain ⟨noNul, short, leadsTo⟩ := locate_eq_ok_iff.mp located
  have leads := leadsTo.leads_steps
  rw [start_of_isAbsolute respelled.absolute, respelled.steps_eq, ← filter_stepsOf] at leads
  have rightAbsolute := respelled.symm.absolute
  have rightNoNul : '\x00' ∉ right.text.toList := by
    intro nul
    obtain ⟨step, member, inStep⟩ := exists_step_of_nul nul
    rw [← respelled.steps_eq] at member
    exact noNul (nul_of_mem_steps member inStep)
  have rightShort : right.text.utf8ByteSize ≤ maxPathSize := by
    rcases respelled.short with equal | bounds
    · rwa [← equal]
    · exact bounds.2
  have rightEnding :
      (∃ entries, files.root.at? place = some (.directory entries)) ∨
        (stepsOf right.text).getLast? ≠ some "." := by
    rcases ending with ⟨entries, isDirectory⟩ | ⟨letter, last, notSlash, notDot⟩
    · exact .inl ⟨entries, by rw [reached, isDirectory]⟩
    · exact .inr (getLast?_stepsOf_ne_dot last notSlash notDot)
  have rightLeads : others.LeadsTo right place := by
    refine ⟨Path.text_ne_empty_of_isAbsolute rightAbsolute, ?_⟩
    rw [start_of_isAbsolute rightAbsolute, sameTree]
    exact leads.insert_dots rightEnding
  refine find_eq_ok_iff.mpr ⟨place, ?_, by rwa [sameTree]⟩
  exact locate_eq_ok_iff.mpr ⟨rightNoNul, rightShort, rightLeads⟩

theorem toOption_find_of_respelled
    (sameTree : others.root = files.root)
    (respelled : Respelled left right)
    (leftPlain : EndsPlainly left) (rightPlain : EndsPlainly right) :
    (others.find right).toOption = (files.find left).toOption := by
  have toOption_iff :
      ∀ (result : Except FileError Node) (node : Node),
        result.toOption = some node ↔ result = .ok node := by
    intro result node
    cases result <;> simp [Except.toOption]
  apply Option.ext
  intro node
  rw [toOption_iff, toOption_iff]
  constructor
  · exact find_of_respelled sameTree.symm respelled.symm (.inr leftPlain)
  · exact find_of_respelled sameTree respelled (.inr rightPlain)

/-- An absolute path leads to the same node from any working directory. -/
theorem find_of_isAbsolute
    {path : Path}
    (sameTree : others.root = files.root) (absolute : path.isAbsolute = true) :
    others.find path = files.find path := by
  unfold find locate
  rw [if_pos absolute, if_pos absolute, sameTree]

theorem size_le_size_join
    {path next : Path} (relative : next.isAbsolute = false) :
    path.text.utf8ByteSize ≤ (path.join next).text.utf8ByteSize := by
  unfold Path.join
  rw [if_neg (by simp [relative])]
  split <;> simp only [String.utf8ByteSize_append] <;> omega

/-- A directory in which something is found is itself found. -/
theorem exists_directory_of_has_child
    {directory : Path} {name : String}
    (absolute : directory.isAbsolute = true)
    (isName : Path.IsName name)
    (has : files.has (directory.child name) = true) :
    ∃ entries, files.find directory = .ok (.directory entries) := by
  have relative := Path.isAbsolute_of_isName isName
  have childAbsolute : (directory.child name).isAbsolute = true :=
    Path.isAbsolute_join_of_isAbsolute absolute _
  obtain ⟨place, node, located, reached⟩ := has_eq_true_iff.mp has
  obtain ⟨noNul, short, leadsTo⟩ := locate_eq_ok_iff.mp located
  have leads := leadsTo.leads_steps
  rw [start_of_isAbsolute childAbsolute, Path.steps_child directory isName,
    List.map_append] at leads
  obtain ⟨fewer, middle, bounded, before, behind⟩ := leads.split rfl
  obtain ⟨entries, inDirectory⟩ := behind.directory_of_cons
  rw [← filter_stepsOf] at before
  have toDirectory : files.LeadsTo directory middle := by
    refine ⟨Path.text_ne_empty_of_isAbsolute absolute, ?_⟩
    rw [start_of_isAbsolute absolute]
    exact before.insert_dots (.inl ⟨entries, inDirectory⟩)
  have directoryNoNul : '\x00' ∉ directory.text.toList := by
    intro nul
    obtain ⟨step, member, inStep⟩ := exists_step_of_nul nul
    have inChild : step ∈ (directory.child name).steps := by
      rw [Path.steps_child directory isName]
      exact List.mem_append_left _ member
    exact noNul (nul_of_mem_steps inChild inStep)
  have directoryShort : directory.text.utf8ByteSize ≤ maxPathSize :=
    Nat.le_trans (size_le_size_join relative) short
  have directoryLocated := locate_eq_ok_iff.mpr ⟨directoryNoNul, directoryShort, toDirectory⟩
  exact ⟨entries, find_eq_ok_iff.mpr ⟨middle, directoryLocated, inDirectory⟩⟩

/-- A path at which something is found is short enough to be followed. -/
theorem size_le_of_find (found : files.find left = .ok node) :
    left.text.utf8ByteSize ≤ maxPathSize := by
  obtain ⟨place, located, _⟩ := find_eq_ok_iff.mp found
  exact (locate_eq_ok_iff.mp located).2.1

/-! ## What is read -/

/-- The text of a node, which is a file with text in it. -/
def nodeText? : Node → Option String
  | .file contents _ => textOf? contents
  | _ => none

theorem has_eq_isSome (files : FileSystem) (path : Path) :
    files.has path = (files.find path).toOption.isSome := by
  unfold FileSystem.has
  cases files.find path <;> rfl

theorem toOption_readText (files : FileSystem) (path : Path) :
    (files.readText path).toOption = (files.find path).toOption.bind nodeText? := by
  unfold readText FileSystem.read
  cases files.find path with
  | error cause => rfl
  | ok node =>
      cases node with
      | file contents executable =>
          simp only [bind, Except.bind, pure, Except.pure, Except.toOption, Option.bind,
            nodeText?]
          cases textOf? contents <;> rfl
      | symlink target => rfl
      | directory entries => rfl

end FileSystem

end MplServer
