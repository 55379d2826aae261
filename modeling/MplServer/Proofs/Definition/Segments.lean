import Mathlib.Data.List.TakeWhile
import Mathlib.Logic.Relation
import MplServer.Proofs.Definition.Recorded

/-!
# The segments of a recorded path

What is left of a recorded path depends on what stands between its separators, and not on how many
separators there are, of which kind, or what stands before the first segment that is not a dot.
-/

namespace MplServer

/-- What is between the separators of a text, where that is not nothing. -/
def piecesBetween (separates : Char → Bool) (text : List Char) : List String :=
  ((text.splitOnP separates).map String.ofList).filter (· ≠ "")

section Pieces

variable {separates : Char → Bool} {c : Char}

@[simp]
theorem piecesBetween_nil : piecesBetween separates [] = [] := by
  simp [piecesBetween]

theorem piecesBetween_append_cons
    (isSeparator : separates c = true) (left right : List Char) :
    piecesBetween separates (left ++ c :: right) =
      piecesBetween separates left ++ piecesBetween separates right := by
  rw [piecesBetween, List.splitOnP_append_cons _ _ isSeparator, List.map_append,
    List.filter_append]
  rfl

theorem piecesBetween_cons
    (isSeparator : separates c = true) (rest : List Char) :
    piecesBetween separates (c :: rest) = piecesBetween separates rest := by
  simpa using piecesBetween_append_cons isSeparator [] rest

theorem piecesBetween_eq_singleton
    {text : List Char}
    (nonempty : text ≠ []) (apart : ∀ d ∈ text, separates d = false) :
    piecesBetween separates text = [String.ofList text] := by
  have named : String.ofList text ≠ "" := by
    simpa using nonempty
  rw [piecesBetween, List.splitOnP_eq_singleton (by simpa using apart), List.map_singleton]
  simp [named]

theorem piecesBetween_dot_cons
    (isSeparator : separates c = true) (dotApart : separates '.' = false) (rest : List Char) :
    piecesBetween separates ('.' :: c :: rest) = "." :: piecesBetween separates rest := by
  have dot : piecesBetween separates ['.'] = ["."] :=
    piecesBetween_eq_singleton (List.cons_ne_nil '.' []) (by simpa using dotApart)
  rw [← List.singleton_append, piecesBetween_append_cons isSeparator, dot,
    List.singleton_append]

/-- A text that does not begin with a separator begins with a piece. -/
theorem piecesBetween_cons_of_apart
    (apart : separates c = false) (rest : List Char) :
    piecesBetween separates (c :: rest) =
      String.ofList (c :: rest.takeWhile fun d => !separates d) ::
        piecesBetween separates (rest.dropWhile fun d => !separates d) := by
  have unbroken :
      ∀ d ∈ c :: rest.takeWhile fun d => !separates d, separates d = false := by
    intro d member
    rcases List.mem_cons.mp member with rfl | inRest
    · exact apart
    · simpa using List.mem_takeWhile_imp inRest
  have first := piecesBetween_eq_singleton (List.cons_ne_nil _ _) unbroken
  have parts := @List.takeWhile_append_dropWhile Char (fun d => !separates d) rest
  have stops := List.head?_dropWhile_not (fun d => !separates d) rest
  cases after : rest.dropWhile fun d => !separates d with
  | nil =>
      rw [after, List.append_nil] at parts
      rw [parts] at first ⊢
      rw [first, piecesBetween_nil]
  | cons separator others =>
      have isSeparator : separates separator = true := by
        simpa [after] using stops
      rw [after] at parts
      rw [piecesBetween_cons isSeparator]
      nth_rewrite 1 [← parts]
      rw [← List.cons_append, piecesBetween_append_cons isSeparator, first,
        List.singleton_append]

theorem nonempty_of_mem_piecesBetween
    {text : List Char} {piece : String}
    (member : piece ∈ piecesBetween separates text) :
    piece ≠ "" := by
  simpa using (List.mem_filter.mp member).2

theorem unbroken_of_mem_piecesBetween
    {text : List Char} {piece : String}
    (member : piece ∈ piecesBetween separates text) :
    ∀ d ∈ piece.toList, separates d = false := by
  obtain ⟨characters, inSplit, rfl⟩ := List.mem_map.mp (List.mem_filter.mp member).1
  rw [String.toList_ofList]
  exact Text.separates_eq_false_of_mem_splitOnP inSplit

end Pieces

/-! ## Either separator -/

def isSeparator (c : Char) : Bool :=
  c = '/' || c = '\\'

/-- The pieces of a recorded path between its separators, which are slashes and backslashes. -/
def segments (recorded : String) : List String :=
  piecesBetween isSeparator recorded.toList

/-- A text with a slash for each backslash. -/
def unified (text : List Char) : List Char :=
  text.map fun c => if c = '\\' then '/' else c

theorem splitOnP_unified (text : List Char) :
    (unified text).splitOnP (· == '/') = text.splitOnP isSeparator := by
  induction text with
  | nil => rfl
  | cons head tail inductionHypothesis =>
      have unified_cons :
          unified (head :: tail) = (if head = '\\' then '/' else head) :: unified tail := rfl
      rw [unified_cons, List.splitOnP_cons_eq_if_modifyHead, List.splitOnP_cons_eq_if_modifyHead,
        inductionHypothesis]
      by_cases backslash : head = '\\'
      · simp [backslash, isSeparator]
      · by_cases slash : head = '/'
        · simp [slash, isSeparator]
        · simp [slash, backslash, isSeparator]

theorem piecesBetween_unified (text : List Char) :
    piecesBetween (· == '/') (unified text) = piecesBetween isSeparator text := by
  rw [piecesBetween, splitOnP_unified, piecesBetween]

theorem normalizeRecorded?_eq (recorded : String) :
    normalizeRecorded? recorded =
      if (piecesBetween (· == '/') (stripLeading (unified recorded.toList))).isEmpty then none
      else some
        ⟨Text.joinWith '/'
          (piecesBetween (· == '/') (stripLeading (unified recorded.toList)))⟩ := by
  have pieces_eq (text : List Char) :
      (Text.splitAt '/' (String.ofList text)).filter (· ≠ "") =
        piecesBetween (· == '/') text := by
    rw [Text.splitAt, String.toList_ofList, List.splitOn_eq_splitOnP, piecesBetween]
  rw [← pieces_eq]
  rfl

/-! ## What goes from the front -/

/-- A text that nothing goes from begins with a piece that is not a dot, unless it is one. -/
theorem first_piece_of_bare
    {text : List Char}
    (notDotSlash : ∀ after, text ≠ '.' :: '/' :: after)
    (notSlash : ∀ after, text ≠ '/' :: after) :
    text = [] ∨ text = ['.'] ∨
      ∃ first others, piecesBetween (· == '/') text = first :: others ∧ first ≠ "." := by
  cases text with
  | nil => exact Or.inl rfl
  | cons c rest =>
      by_cases alone : c :: rest = ['.']
      · exact Or.inr (Or.inl alone)
      have apart : (c == '/') = false := by
        rw [beq_eq_false_iff_ne]
        rintro rfl
        exact notSlash rest rfl
      have pieces_eq := @piecesBetween_cons_of_apart (· == '/') c apart rest
      refine Or.inr (Or.inr ⟨_, _, pieces_eq, fun dot => ?_⟩)
      have characters := congrArg String.toList dot
      have dotAlone : ".".toList = ['.'] := rfl
      rw [String.toList_ofList, dotAlone, List.cons.injEq] at characters
      obtain ⟨rfl, untilSlash⟩ := characters
      cases rest with
      | nil => exact alone rfl
      | cons next after =>
          by_cases slash : next = '/'
          · exact notDotSlash after (by rw [slash])
          · simp [slash] at untilSlash

theorem piecesBetween_stripLeading_of_some
    {text : List Char}
    (someOther : ∃ piece ∈ piecesBetween (· == '/') text, piece ≠ ".") :
    piecesBetween (· == '/') (stripLeading text) =
      (piecesBetween (· == '/') text).dropWhile (· = ".") := by
  fun_induction stripLeading text with
  | case1 rest inductionHypothesis =>
      rw [piecesBetween_dot_cons rfl rfl] at someOther ⊢
      rw [List.dropWhile_cons_of_pos (by simp)]
      apply inductionHypothesis
      simpa using someOther
  | case2 rest inductionHypothesis =>
      rw [piecesBetween_cons rfl] at someOther ⊢
      exact inductionHypothesis someOther
  | case3 text notDotSlash notSlash =>
      obtain rfl | rfl | ⟨first, others, pieces_eq, notDot⟩ :=
        first_piece_of_bare notDotSlash notSlash
      · rfl
      · exact absurd someOther (by decide)
      · rw [pieces_eq, List.dropWhile_cons_of_neg (by simpa using notDot)]

theorem piecesBetween_stripLeading_of_dots
    {text : List Char}
    (dots : ∀ piece ∈ piecesBetween (· == '/') text, piece = ".") :
    piecesBetween (· == '/') (stripLeading text) =
      if text.getLast? = some '.' then ["."] else [] := by
  fun_induction stripLeading text with
  | case1 rest inductionHypothesis =>
      rw [piecesBetween_dot_cons rfl rfl, List.forall_mem_cons] at dots
      rw [inductionHypothesis dots.2]
      cases rest <;> simp
  | case2 rest inductionHypothesis =>
      rw [piecesBetween_cons rfl] at dots
      rw [inductionHypothesis dots]
      cases rest <;> simp
  | case3 text notDotSlash notSlash =>
      obtain rfl | rfl | ⟨first, others, pieces_eq, notDot⟩ :=
        first_piece_of_bare notDotSlash notSlash
      · rfl
      · decide
      · rw [pieces_eq] at dots
        exact absurd (dots first List.mem_cons_self) notDot

/-! ## What is left -/

theorem normalizeRecorded?_of_some
    {recorded : String}
    (someOther : ∃ piece ∈ segments recorded, piece ≠ ".") :
    normalizeRecorded? recorded =
      some ⟨Text.joinWith '/' ((segments recorded).dropWhile (· = "."))⟩ := by
  have someLeft : (segments recorded).dropWhile (· = ".") ≠ [] := by
    simpa using someOther
  rw [segments, ← piecesBetween_unified] at someOther someLeft
  rw [normalizeRecorded?_eq, piecesBetween_stripLeading_of_some someOther, segments,
    ← piecesBetween_unified, if_neg (by simpa using someLeft)]

theorem getLast?_unified_eq_dot_iff (text : List Char) :
    (unified text).getLast? = some '.' ↔ text.getLast? = some '.' := by
  rw [unified, List.getLast?_map, Option.map_eq_some_iff]
  constructor
  · rintro ⟨c, last, dot⟩
    split at dot
    · cases dot
    · rwa [dot] at last
  · intro last
    exact ⟨'.', last, rfl⟩

theorem normalizeRecorded?_of_dots
    {recorded : String}
    (dots : ∀ piece ∈ segments recorded, piece = ".") :
    normalizeRecorded? recorded =
      if recorded.toList.getLast? = some '.' then some ⟨"."⟩ else none := by
  rw [segments, ← piecesBetween_unified] at dots
  rw [normalizeRecorded?_eq, piecesBetween_stripLeading_of_dots dots]
  simp only [getLast?_unified_eq_dot_iff]
  split <;> rfl

/-- Pieces without separators are what is between the slashes of the text that they make. -/
theorem piecesBetween_joinWith
    {pieces : List String}
    (nonempty : ∀ piece ∈ pieces, piece ≠ "")
    (unbroken : ∀ piece ∈ pieces, ∀ c ∈ piece.toList, isSeparator c = false) :
    piecesBetween isSeparator (Text.joinWith '/' pieces).toList = pieces := by
  induction pieces with
  | nil => simp
  | cons first others inductionHypothesis =>
      rw [List.forall_mem_cons] at nonempty unbroken
      have firstPieces : piecesBetween isSeparator first.toList = [first] := by
        rw [piecesBetween_eq_singleton (by simpa using nonempty.1) unbroken.1,
          String.ofList_toList]
      by_cases alone : others = []
      · rw [alone, Text.joinWith_singleton, firstPieces]
      · have parts :
            (Text.joinWith '/' (first :: others)).toList =
              first.toList ++ '/' :: (Text.joinWith '/' others).toList := by
          have joined := Text.joinWith_append_slash (List.cons_ne_nil first []) alone
          rw [List.singleton_append, Text.joinWith_singleton] at joined
          simp [joined]
        rw [parts, piecesBetween_append_cons rfl, firstPieces,
          inductionHypothesis nonempty.2 unbroken.2, List.singleton_append]

/-- What is left of a recorded path is a dot, or begins with another piece. -/
theorem exists_pieces_of_normalizeRecorded?
    {recorded : String} {path : Path}
    (normalized : normalizeRecorded? recorded = some path) :
    ∃ first others,
      path.text = Text.joinWith '/' (first :: others) ∧
        (first = "." → others = []) ∧ segments path.text = first :: others := by
  by_cases someOther : ∃ piece ∈ segments recorded, piece ≠ "."
  · rw [normalizeRecorded?_of_some someOther, Option.some.injEq] at normalized
    have someLeft : (segments recorded).dropWhile (· = ".") ≠ [] := by
      simpa using someOther
    have notDot := List.head_dropWhile_not (fun piece => decide (piece = ".")) someLeft
    have fromRecorded (piece : String) :
        piece ∈ (segments recorded).dropWhile (· = ".") → piece ∈ segments recorded :=
      fun member => (List.dropWhile_sublist _).mem member
    obtain ⟨first, others, left_eq⟩ := List.exists_cons_of_ne_nil someLeft
    simp only [left_eq, List.head_cons, decide_eq_false_iff_not] at notDot normalized fromRecorded
    subst normalized
    refine ⟨first, others, rfl, fun dot => absurd dot notDot, ?_⟩
    apply piecesBetween_joinWith
    · exact fun piece member => nonempty_of_mem_piecesBetween (fromRecorded piece member)
    · exact fun piece member => unbroken_of_mem_piecesBetween (fromRecorded piece member)
  · push Not at someOther
    rw [normalizeRecorded?_of_dots someOther] at normalized
    split at normalized
    · cases normalized
      exact ⟨".", [], rfl, fun _ => rfl, by decide⟩
    · cases normalized

theorem normalizeRecorded?_again
    {recorded : String} {path : Path}
    (normalized : normalizeRecorded? recorded = some path) :
    normalizeRecorded? path.text = some path := by
  obtain ⟨first, others, text_eq, dotAlone, segments_eq⟩ :=
    exists_pieces_of_normalizeRecorded? normalized
  by_cases dot : first = "."
  · rw [dotAlone dot, dot, Text.joinWith_singleton] at text_eq
    have path_eq : path = ⟨"."⟩ := congrArg Path.mk text_eq
    rw [path_eq]
    decide
  · have someOther : ∃ piece ∈ segments path.text, piece ≠ "." := by
      rw [segments_eq]
      exact ⟨first, List.mem_cons_self, dot⟩
    rw [normalizeRecorded?_of_some someOther, segments_eq,
      List.dropWhile_cons_of_neg (by simpa using dot), ← text_eq]

/-! ## Spelling -/

/-- One spelling of a recorded path becomes another: a separator becomes one of the other kind, one
of two neighbouring separators goes, a separator or a dot and a separator go from the front, or a
separator goes from the end. -/
inductive Respells : List Char → List Char → Prop
  | kind {c d : Char} (before after : List Char) :
      isSeparator c = true → isSeparator d = true →
        Respells (before ++ c :: after) (before ++ d :: after)
  | repeated {c d : Char} (before after : List Char) :
      isSeparator c = true → isSeparator d = true →
        Respells (before ++ c :: d :: after) (before ++ c :: after)
  | leading {c : Char} (rest : List Char) :
      isSeparator c = true → Respells (c :: rest) rest
  | leadingDot {c : Char} (rest : List Char) :
      isSeparator c = true → Respells ('.' :: c :: rest) rest
  | trailing {c : Char} (before : List Char) :
      isSeparator c = true → Respells (before ++ [c]) before

theorem Respells.sameLeft
    {one other : List Char}
    (respells : Respells one other) :
    (piecesBetween isSeparator one).dropWhile (· = ".") =
      (piecesBetween isSeparator other).dropWhile (· = ".") := by
  cases respells with
  | kind before after isOne isOther =>
      rw [piecesBetween_append_cons isOne, piecesBetween_append_cons isOther]
  | repeated before after isOne isOther =>
      rw [piecesBetween_append_cons isOne, piecesBetween_append_cons isOne,
        piecesBetween_cons isOther]
  | leading _ isLeading => rw [piecesBetween_cons isLeading]
  | leadingDot _ isLeading =>
      rw [piecesBetween_dot_cons isLeading rfl, List.dropWhile_cons_of_pos (by simp)]
  | trailing _ isTrailing =>
      rw [piecesBetween_append_cons isTrailing, piecesBetween_nil, List.append_nil]

theorem sameLeft_of_respelled
    {one other : List Char}
    (respelled : Relation.EqvGen Respells one other) :
    (piecesBetween isSeparator one).dropWhile (· = ".") =
      (piecesBetween isSeparator other).dropWhile (· = ".") := by
  induction respelled with
  | rel _ _ respells => exact respells.sameLeft
  | refl _ => rfl
  | symm _ _ _ inductionHypothesis => exact inductionHypothesis.symm
  | trans _ _ _ _ _ first second => exact first.trans second

/-- Recorded paths that differ only in how they are spelt come to the same, if there is more to them
than dots. -/
theorem normalizeRecorded?_of_respelled
    {recorded other : String}
    (respelled : Relation.EqvGen Respells recorded.toList other.toList)
    (someOther : ∃ piece ∈ segments recorded, piece ≠ ".") :
    normalizeRecorded? other = normalizeRecorded? recorded := by
  have sameLeft :
      (segments recorded).dropWhile (· = ".") = (segments other).dropWhile (· = ".") :=
    sameLeft_of_respelled respelled
  have otherToo : ∃ piece ∈ segments other, piece ≠ "." := by
    have someLeft : (segments other).dropWhile (· = ".") ≠ [] := by
      rw [← sameLeft]
      simpa using someOther
    simpa using someLeft
  rw [normalizeRecorded?_of_some someOther, normalizeRecorded?_of_some otherToo, sameLeft]

/-- What a recorded path comes to depends on its segments. It is a relative path with no backslash,
no blank piece and no dot before a slash at its front, and it comes to itself. So a recorded path is
resolved alike however it is spelt. -/
theorem recorded_paths_are_their_segments (recorded : String) :
    ((∃ piece ∈ segments recorded, piece ≠ ".") →
      normalizeRecorded? recorded =
        some ⟨Text.joinWith '/' ((segments recorded).dropWhile (· = "."))⟩) ∧
    ((∀ piece ∈ segments recorded, piece = ".") →
      normalizeRecorded? recorded =
        if recorded.toList.getLast? = some '.' then some ⟨"."⟩ else none) ∧
    (∀ path, normalizeRecorded? recorded = some path →
      path.isAbsolute = false ∧ '\\' ∉ path.text.toList ∧ "" ∉ path.pieces ∧
        ¬ ['.', '/'] <+: path.text.toList ∧ normalizeRecorded? path.text = some path) ∧
    ∀ other : String, Relation.EqvGen Respells recorded.toList other.toList →
      (∃ piece ∈ segments recorded, piece ≠ ".") →
        ∀ (resolver : Resolver) (files : FileSystem),
          resolver.resolvePath? files other = resolver.resolvePath? files recorded := by
  refine ⟨normalizeRecorded?_of_some, normalizeRecorded?_of_dots, ?_, ?_⟩
  · intro path normalized
    obtain ⟨first, others, text_eq, dotAlone, segments_eq⟩ :=
      exists_pieces_of_normalizeRecorded? normalized
    have nonempty : ∀ piece ∈ first :: others, piece ≠ "" := by
      rw [← segments_eq]
      exact fun piece member => nonempty_of_mem_piecesBetween member
    have unbroken : ∀ piece ∈ first :: others, ∀ c ∈ piece.toList, isSeparator c = false := by
      rw [← segments_eq]
      exact fun piece member => unbroken_of_mem_piecesBetween member
    have pieces_eq : path.pieces = first :: others := by
      rw [Path.pieces, text_eq]
      apply Text.splitAt_joinWith (List.cons_ne_nil first others)
      intro piece member slash
      exact absurd (unbroken piece member '/' slash) (by decide)
    refine ⟨(isRecorded_of_normalizeRecorded? normalized).relative, ?_, ?_, ?_,
      normalizeRecorded?_again normalized⟩
    · intro backslash
      have notSlash : '\\' ≠ '/' := by decide
      obtain ⟨piece, inPieces, inPiece⟩ := Text.exists_mem_splitAt backslash notSlash
      have inLeft : piece ∈ first :: others := pieces_eq ▸ inPieces
      exact absurd (unbroken piece inLeft '\\' inPiece) (by decide)
    · rw [pieces_eq]
      exact fun blank => nonempty "" blank rfl
    · rintro ⟨rest, front⟩
      rw [List.cons_append, List.cons_append, List.nil_append] at front
      rw [segments, ← front, piecesBetween_dot_cons rfl rfl, List.cons.injEq] at segments_eq
      rw [dotAlone segments_eq.1.symm, ← segments_eq.1, Text.joinWith_singleton] at text_eq
      rw [text_eq] at front
      cases front
  · intro other respelled someOther resolver files
    rw [Resolver.resolvePath?, Resolver.resolvePath?,
      normalizeRecorded?_of_respelled respelled someOther]

theorem respelled_main :
    Relation.EqvGen Respells ".\\src//main.mpl".toList "src/main.mpl/".toList := by
  have dotGoes : Respells ".\\src//main.mpl".toList "src//main.mpl".toList :=
    .leadingDot "src//main.mpl".toList rfl
  have slashGoes : Respells "src//main.mpl".toList "src/main.mpl".toList :=
    .repeated "src".toList "main.mpl".toList rfl rfl
  have lastGoes : Respells "src/main.mpl/".toList "src/main.mpl".toList :=
    .trailing "src/main.mpl".toList rfl
  exact .trans _ _ _ (.rel _ _ dotGoes) (.trans _ _ _ (.rel _ _ slashGoes)
    (.symm _ _ (.rel _ _ lastGoes)))

/-- A file in a directory below the root. -/
def sourceTree : FileSystem where
  root := .directory [("src", .directory [("main.mpl", .file [] false)])]
  workingDirectory := []

theorem spellings_of_main :
    normalizeRecorded? ".\\src//main.mpl" = some ⟨"src/main.mpl"⟩ ∧
      normalizeRecorded? "src/main.mpl" = some ⟨"src/main.mpl"⟩ ∧
        normalizeRecorded? "/./." = some ⟨"."⟩ ∧
          (Resolver.new ⟨"/"⟩ "" []).resolvePath? sourceTree "src/main.mpl/" =
            some (⟨"/src/main.mpl"⟩, .projectRoot) := by
  have ⟨named, _, left, spelling⟩ := recorded_paths_are_their_segments ".\\src//main.mpl"
  have ⟨_, dots, _, _⟩ := recorded_paths_are_their_segments "/./."
  have someOther : ∃ piece ∈ segments ".\\src//main.mpl", piece ≠ "." := by
    decide
  have isMain : normalizeRecorded? ".\\src//main.mpl" = some ⟨"src/main.mpl"⟩ := by
    rw [named someOther]
    decide
  refine ⟨isMain, (left _ isMain).2.2.2.2, ?_, ?_⟩
  · rw [dots (by decide)]
    decide
  · rw [spelling _ respelled_main someOther]
    decide

end MplServer
