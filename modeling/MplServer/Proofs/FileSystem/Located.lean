import MplServer.Proofs.FileSystem.Lawful

/-!
# Where paths lead

A path leads to a place by its steps. An operation on a file finds the place if the path is short
enough and has no NUL character, and a name added to a path is one more step.
-/

namespace MplServer

/-! ## The steps of a text -/

theorem stepsOf_append_slash (text : String) :
    stepsOf (text ++ "/") =
      (Text.splitAt '/' text).filter (· ≠ "") ++ ["."] := by
  have cut := Text.splitAt_append_slash text ""
  rw [String.append_empty] at cut
  simp [stepsOf, cut]

/-- The last piece of a text is its last step; an empty one asks for a directory. -/
theorem stepsOf_append_slash_append
    (text : String) {last : String}
    (unbroken : '/' ∉ last.toList) (nonempty : last ≠ "") :
    stepsOf (text ++ "/" ++ last) =
      (Text.splitAt '/' text).filter (· ≠ "") ++ [last] := by
  have noSlash : (text ++ "/" ++ last).toList.getLast? ≠ some '/' := by
    intro slashed
    rw [String.toList_append, List.getLast?_append] at slashed
    cases ending : last.toList.getLast? with
    | none =>
        rw [List.getLast?_eq_none_iff] at ending
        exact nonempty (String.toList_injective ending)
    | some final =>
        rw [ending, Option.some_or] at slashed
        exact unbroken (List.mem_of_getLast? (ending.trans slashed))
  unfold stepsOf
  rw [if_neg (by simpa only [beq_iff_eq] using noSlash), Text.splitAt_append_slash,
    List.filter_append, Text.splitAt_eq_singleton unbroken]
  simp [nonempty]

theorem stepsOf_piece
    {text : String}
    (unbroken : '/' ∉ text.toList) (nonempty : text ≠ "") :
    stepsOf text = [text] := by
  have noSlash : text.toList.getLast? ≠ some '/' :=
    fun slashed => unbroken (List.mem_of_getLast? slashed)
  unfold stepsOf
  rw [if_neg (by simpa only [beq_iff_eq] using noSlash),
    Text.splitAt_eq_singleton unbroken]
  simp [nonempty]

/-- The last piece of a text is its last step, unless the text ends with a slash. -/
theorem exists_stepsOf_eq_concat
    {text last : String}
    (unbroken : '/' ∉ last.toList) (nonempty : last ≠ "")
    (form : text = last ∨ ∃ before : String, text = before ++ "/" ++ last) :
    ∃ front, stepsOf text = front ++ [last] := by
  rcases form with whole | ⟨before, whole⟩
  · exact ⟨[], by rw [whole, stepsOf_piece unbroken nonempty]; rfl⟩
  · exact ⟨_, by rw [whole, stepsOf_append_slash_append before unbroken nonempty]⟩

namespace FileSystem

/-- Where the steps of a path start. -/
def start (files : FileSystem) (path : Path) : Place :=
  if path.isAbsolute then [] else files.workingDirectory

/-- The steps of a path lead to a place. The empty path leads nowhere. -/
def LeadsTo (files : FileSystem) (path : Path) (place : Place) : Prop :=
  path.text ≠ "" ∧
    files.root.Leads maxLinks (files.start path) (stepsOf path.text) place

/-- There is a regular file where a path leads, links followed. -/
def HoldsFile (files : FileSystem) (path : Path) : Prop :=
  ∃ place contents executable,
    files.LeadsTo path place ∧
      files.root.at? place = some (.file contents executable)

variable {files : FileSystem} {path : Path} {place : Place}

theorem start_of_isAbsolute
    (absolute : path.isAbsolute = true) :
    files.start path = [] := by
  rw [start, if_pos absolute]

theorem locate_eq_ok_iff :
    files.locate path = .ok place ↔
      '\x00' ∉ path.text.toList ∧ path.text.utf8ByteSize ≤ maxPathSize ∧
        files.LeadsTo path place := by
  unfold locate LeadsTo start
  by_cases nul : '\x00' ∈ path.text.toList
  · simp [nul]
  by_cases empty : path.text = ""
  · simp [empty]
  by_cases short : path.text.utf8ByteSize ≤ maxPathSize
  · have notLong : ¬ maxPathSize < path.text.utf8ByteSize := Nat.not_lt_of_le short
    simp [nul, empty, short, notLong, Node.follow_eq_ok_iff]
  · have long : maxPathSize < path.text.utf8ByteSize := Nat.lt_of_not_le short
    simp [nul, empty, short, long]

theorem find_eq_ok_iff {node : Node} :
    files.find path = .ok node ↔
      ∃ place, files.locate path = .ok place ∧ files.root.at? place = some node := by
  unfold find
  cases located : files.locate path with
  | error cause => simp [bind, Except.bind]
  | ok place =>
      simp only [bind, Except.bind, Except.ok.injEq, exists_eq_left']
      cases files.root.at? place with
      | none => simp [throw, throwThe, MonadExceptOf.throw]
      | some found => simp [pure, Except.pure]

theorem has_eq_true_iff :
    files.has path = true ↔
      ∃ place node, files.locate path = .ok place ∧ files.root.at? place = some node := by
  have found_iff : files.has path = true ↔ ∃ node, files.find path = .ok node := by
    unfold FileSystem.has
    cases files.find path with
    | error cause => simp
    | ok node => simp
  rw [found_iff]
  constructor
  · rintro ⟨node, found⟩
    obtain ⟨place, located, reached⟩ := find_eq_ok_iff.mp found
    exact ⟨place, node, located, reached⟩
  · rintro ⟨place, node, located, reached⟩
    exact ⟨node, find_eq_ok_iff.mpr ⟨place, located, reached⟩⟩

theorem isFile_eq_true_iff :
    files.isFile path = true ↔
      '\x00' ∉ path.text.toList ∧ path.text.utf8ByteSize ≤ maxPathSize ∧
        files.HoldsFile path := by
  have found_iff :
      files.isFile path = true ↔
        ∃ contents executable, files.find path = .ok (.file contents executable) := by
    unfold isFile
    split
    · next contents executable found =>
      simp [found]
    · next noFile =>
      simp only [Bool.false_eq_true, false_iff, not_exists]
      exact noFile
  rw [found_iff]
  simp only [find_eq_ok_iff, locate_eq_ok_iff, HoldsFile]
  constructor
  · rintro ⟨contents, executable, place, ⟨noNul, short, leads⟩, reached⟩
    exact ⟨noNul, short, place, contents, executable, leads, reached⟩
  · rintro ⟨noNul, short, place, contents, executable, leads, reached⟩
    exact ⟨contents, executable, place, ⟨noNul, short, leads⟩, reached⟩

/-! ## Names added to a path -/

theorem LeadsTo.child
    {entries : List (String × Node)} {name : String} {node : Node}
    (leads : files.LeadsTo path place)
    (legal : LegalName name)
    (here : files.root.at? place = some (.directory entries))
    (found : entries.lookup name = some node)
    (noLink : ∀ target, node ≠ .symlink target) :
    files.LeadsTo (path.child name) (place ++ [name]) := by
  have relative := Path.isAbsolute_of_isName legal.toIsName
  obtain ⟨shorter, form, joined⟩ := Path.join_eq_append_slash relative leads.1
  have sameStart : files.start (path.child name) = files.start path := by
    rw [start, start, Path.child, Path.isAbsolute_join relative]
  -- Without its final dot, if it has one, the path leads to the same place.
  have toHere :
      files.root.Leads maxLinks (files.start path)
        ((Text.splitAt '/' shorter).filter (· ≠ "")) place := by
    have whole := leads.2
    rcases form with form | form
    · rw [form, stepsOf] at whole
      split at whole
      · exact whole.dropLast_dot.1
      · exact whole
    · rw [form, stepsOf_append_slash] at whole
      exact whole.dropLast_dot.1
  constructor
  · rw [Path.child, joined]
    simp
  · rw [sameStart, Path.child, joined,
      stepsOf_append_slash_append shorter legal.unbroken legal.nonempty]
    refine toHere.append fun fewer _ => ?_
    exact .entry here legal.notDot legal.notDots found noLink (.stop fewer _)

theorem LeadsTo.foldl_child
    {node : Node} {names : Place} {contents : Bytes} {executable : Bool}
    (leads : files.LeadsTo path place)
    (here : files.root.at? place = some node)
    (reached : node.at? names = some (.file contents executable))
    (legal : ∀ name ∈ names, LegalName name) :
    files.LeadsTo (names.foldl Path.child path) (place ++ names) := by
  induction names generalizing node path place with
  | nil => rwa [List.append_nil]
  | cons name rest inductionHypothesis =>
      obtain ⟨entries, next, rfl, looked, below⟩ := Node.exists_lookup_of_at?_cons reached
      have nextPlace : files.root.at? (place ++ [name]) = some next := by
        rw [Node.at?_append, here, Option.bind_some, Node.at?_cons_of_lookup looked]
        cases next <;> rfl
      have noLink : ∀ target, next ≠ .symlink target := by
        rintro target rfl
        cases rest <;> cases below
      have onward :=
        inductionHypothesis
          (leads.child (legal name List.mem_cons_self) here looked noLink)
          nextPlace below
          fun other later => legal other (List.mem_cons_of_mem name later)
      rwa [List.append_assoc] at onward

theorem noNul_foldl_child
    {names : Place}
    (noNul : '\x00' ∉ path.text.toList)
    (legal : ∀ name ∈ names, LegalName name) :
    '\x00' ∉ (names.foldl Path.child path).text.toList := by
  induction names generalizing path with
  | nil => exact noNul
  | cons name rest inductionHypothesis =>
      rw [List.forall_mem_cons] at legal
      refine inductionHypothesis ?_ legal.2
      have nameNoNul := legal.1.noNul
      unfold Path.child Path.join
      split
      · exact nameNoNul
      · split <;> simp [noNul, nameNoNul]

/-- The path of a file ends with a name: dots and a final slash lead to directories. -/
theorem HoldsFile.exists_fileName
    (holds : files.HoldsFile path) :
    ∃ name, path.fileName? = some name := by
  obtain ⟨place, contents, executable, ⟨nonempty, leads⟩, reached⟩ := holds
  have noDirectory :
      ¬ ∃ entries, files.root.at? place = some (.directory entries) := by
    rintro ⟨entries, inDirectory⟩
    rw [reached] at inDirectory
    cases inDirectory
  obtain ⟨last, unbroken, shape⟩ := Text.exists_last_piece path.text
  have lastNonempty : last ≠ "" := by
    rintro rfl
    rcases shape with whole | ⟨before, whole⟩
    · exact nonempty whole
    · rw [whole, String.append_empty, stepsOf_append_slash] at leads
      exact noDirectory leads.dropLast_dot.2
  obtain ⟨front, steps_eq⟩ := exists_stepsOf_eq_concat unbroken lastNonempty shape
  rw [steps_eq] at leads
  have notDot : last ≠ "." := by
    rintro rfl
    exact noDirectory leads.dropLast_dot.2
  have notDots : last ≠ ".." := by
    rintro rfl
    exact noDirectory leads.directory_of_dots
  have isName : Path.IsName last := ⟨lastNonempty, notDot, notDots, unbroken⟩
  refine ⟨last, (Path.fileName?_eq_some_iff path last).mpr ?_⟩
  rcases shape with whole | ⟨before, whole⟩
  · rw [show path = ⟨last⟩ from congrArg Path.mk whole, Path.steps_of_isName isName]
    rfl
  · rw [show path = ⟨before ++ "/" ++ last⟩ from congrArg Path.mk whole,
      Path.steps_append_slash, Path.steps_of_isName isName]
    simp

end FileSystem

end MplServer
