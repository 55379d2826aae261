import Mathlib.Data.List.TakeWhile
import MplServer.Project.Invocation
import MplServer.Proofs.Text.Pieces

/-!
# Command lines as they are shown

A shown command line is read word by word, in quotes up to the closing one and else up to the next
space. Words without a quote come back as they were, so what is shown tells the command line.
-/

namespace MplServer.Invocation

/-! ## Reading what is shown -/

/-- The word that a shown text begins with, and the text behind it. Behind an opening quote a word
goes on to the closing one, else it goes on to the next space. -/
def nextShown : List Char → List Char × List Char
  | '"' :: rest => (rest.takeWhile (· != '"'), (rest.dropWhile (· != '"')).drop 1)
  | text => (text.takeWhile (· != ' '), text.dropWhile (· != ' '))

theorem length_lt_of_nextShown
    {text word behind : List Char} {separator : Char}
    (next : nextShown text = (word, separator :: behind)) :
    behind.length < text.length := by
  have atMost : (nextShown text).2.length ≤ text.length := by
    unfold nextShown
    split
    · next rest =>
      have dropped := List.length_dropWhile_le (· != '"') rest
      rw [List.length_drop, List.length_cons]
      omega
    · exact List.length_dropWhile_le (· != ' ') text
  rw [next, List.length_cons] at atMost
  exact atMost

/-- The words of a shown text. What stands behind a word is a space, and then there is another. -/
def shownWords (text : List Char) : List (List Char) :=
  match _ : nextShown text with
  | (word, []) => [word]
  | (word, _ :: behind) => word :: shownWords behind
termination_by text.length
decreasing_by exact length_lt_of_nextShown ‹_›

/-- The command line that a text shows. -/
def ofDisplay (text : String) : Invocation :=
  ⟨if text = "" then [] else (shownWords text.toList).map String.ofList⟩

theorem shownWords_of_last
    {text word : List Char}
    (last : nextShown text = (word, [])) :
    shownWords text = [word] := by
  rw [shownWords]
  split
  · next other isLast =>
    rw [last, Prod.mk.injEq] at isLast
    rw [isLast.1]
  · next other separator behind notLast =>
    rw [last] at notLast
    cases notLast

theorem shownWords_of_next
    {text word behind : List Char} {separator : Char}
    (next : nextShown text = (word, separator :: behind)) :
    shownWords text = word :: shownWords behind := by
  rw [shownWords]
  split
  · next other isLast =>
    rw [next] at isLast
    cases isLast
  · next other otherSeparator otherBehind same =>
    rw [next] at same
    cases same
    rfl

/-! ## Words are read back -/

theorem bne_of_apart
    {separator : Char} {word : List Char} (apart : separator ∉ word) :
    ∀ c ∈ word, (c != separator) = true := by
  intro c member
  rw [bne_iff_ne]
  rintro rfl
  exact apart member

theorem nextShown_quoted
    {word : List Char} (unquoted : '"' ∉ word) (behind : List Char) :
    nextShown ('"' :: (word ++ '"' :: behind)) = (word, behind) := by
  have closes : ∀ c, ('"' :: behind).head? = some c → (c != '"') = false := by
    rintro c ⟨⟩
    exact bne_self_eq_false '"'
  rw [nextShown, Text.takeWhile_append_of_stop (bne_of_apart unquoted) closes,
    Text.dropWhile_append_of_stop (bne_of_apart unquoted) closes]
  rfl

theorem nextShown_plain
    {word behind : List Char}
    (unquoted : '"' ∉ word) (unspaced : ' ' ∉ word)
    (spaced : ∀ c, behind.head? = some c → c = ' ') :
    nextShown (word ++ behind) = (word, behind) := by
  have stops : ∀ c, behind.head? = some c → (c != ' ') = false := by
    intro c isFirst
    rw [spaced c isFirst]
    exact bne_self_eq_false ' '
  unfold nextShown
  split
  · next rest opened =>
    -- The word has no quote, and what is behind it begins with a space.
    exfalso
    cases word with
    | nil =>
        rw [List.nil_append] at opened
        have isSpace := spaced '"' (by rw [opened, List.head?_cons])
        exact absurd isSpace (by decide)
    | cons c others =>
        rw [List.cons_append, List.cons.injEq] at opened
        apply unquoted
        rw [opened.1]
        exact List.mem_cons_self
  · rw [Text.takeWhile_append_of_stop (bne_of_apart unspaced) stops,
      Text.dropWhile_append_of_stop (bne_of_apart unspaced) stops]

/-- A word without a quote is read back from the way it is shown. -/
theorem nextShown_shown
    {word : String} {behind : List Char}
    (unquoted : '"' ∉ word.toList)
    (spaced : ∀ c, behind.head? = some c → c = ' ') :
    nextShown ((shown word).toList ++ behind) = (word.toList, behind) := by
  unfold shown
  by_cases blank : word.toList.any Text.isBlank = true
  · have whole :
        ("\"" ++ word ++ "\"").toList ++ behind = '"' :: (word.toList ++ '"' :: behind) := by
      simp
    rw [if_pos blank, whole]
    exact nextShown_quoted unquoted behind
  · have unspaced : ' ' ∉ word.toList := by
      intro space
      apply blank
      rw [List.any_eq_true]
      exact ⟨' ', space, by decide⟩
    rw [if_neg blank]
    exact nextShown_plain unquoted unspaced spaced

theorem shownWords_joinWith
    {words : List String} (nonempty : words ≠ [])
    (unquoted : ∀ word ∈ words, '"' ∉ word.toList) :
    shownWords (Text.joinWith ' ' (words.map shown)).toList = words.map String.toList := by
  induction words with
  | nil => exact absurd rfl nonempty
  | cons first others inductionHypothesis =>
      rw [List.forall_mem_cons] at unquoted
      by_cases alone : others = []
      · subst alone
        have last : nextShown ((shown first).toList ++ []) = (first.toList, []) :=
          nextShown_shown unquoted.1 (by simp)
        rw [List.append_nil] at last
        rw [List.map_singleton, Text.joinWith_singleton, shownWords_of_last last,
          List.map_singleton]
      · have more : others.map shown ≠ [] := by
          rwa [Ne, List.map_eq_nil_iff]
        have next (behind : List Char) :
            nextShown ((shown first).toList ++ ' ' :: behind) = (first.toList, ' ' :: behind) :=
          nextShown_shown unquoted.1 (by simp)
        rw [List.map_cons, Text.toList_joinWith_cons ' ' (shown first) more,
          shownWords_of_next (next _), inductionHypothesis alone unquoted.2, List.map_cons]

/-- A command line is read back from what is shown, unless it is a lone empty word, which is shown
like no word at all. -/
theorem ofDisplay_display
    {invocation : Invocation}
    (unquoted : ∀ word ∈ invocation.words, '"' ∉ word.toList)
    (notLone : invocation.words ≠ [""]) :
    ofDisplay invocation.display = invocation := by
  obtain ⟨words⟩ := invocation
  by_cases none : words = []
  · subst none
    rfl
  · have read := shownWords_joinWith none unquoted
    have visible : Text.joinWith ' ' (words.map shown) ≠ "" := by
      intro empty
      have nothing : shownWords [] = [[]] := shownWords_of_last rfl
      rw [empty, String.toList_empty, nothing, eq_comm, List.map_eq_singleton_iff] at read
      obtain ⟨word, alone, blank⟩ := read
      apply notLone
      rw [alone, String.toList_eq_nil_iff.mp blank]
    rw [display, ofDisplay, if_neg visible, read, List.map_map]
    simp [Function.comp_def]

/-- A quote in a word is shown as it is, so it may be taken for one around a word. -/
example : display ⟨["a b"]⟩ = display ⟨["\"a", "b\""]⟩ := by decide

/-- Command lines of words that are not empty and have no quote are told apart by what is shown, and
what is shown can be read back. -/
theorem display_tells_words
    (first second : Invocation)
    (firstPlain : ∀ word ∈ first.words, word ≠ "" ∧ '"' ∉ word.toList)
    (secondPlain : ∀ word ∈ second.words, word ≠ "" ∧ '"' ∉ word.toList) :
    (first.display = second.display ↔ first = second) ∧
      ofDisplay first.display = first := by
  have readBack (invocation : Invocation)
      (plain : ∀ word ∈ invocation.words, word ≠ "" ∧ '"' ∉ word.toList) :
      ofDisplay invocation.display = invocation := by
    apply ofDisplay_display
    · exact fun word member => (plain word member).2
    · intro lone
      rw [lone] at plain
      exact (plain "" List.mem_cons_self).1 rfl
  refine ⟨⟨?_, congrArg display⟩, readBack first firstPlain⟩
  intro same
  rw [← readBack first firstPlain, same, readBack second secondPlain]

/-- A compiler in a directory whose name has a blank. -/
def inProgramFiles : Invocation :=
  ⟨["/Program Files/mplc", "-o", "my\u3000out\t", "main.mpl"]⟩

/-- The same words, with the compiler's path cut at its blank. -/
def cutAtBlank : Invocation :=
  ⟨["/Program", "Files/mplc", "-o", "my\u3000out\t", "main.mpl"]⟩

/-- A blank in a word does not look like the space between two. -/
theorem blank_in_path_is_told :
    (∀ word ∈ inProgramFiles.words, word ≠ "" ∧ '"' ∉ word.toList) ∧
      (∀ word ∈ cutAtBlank.words, word ≠ "" ∧ '"' ∉ word.toList) ∧
        inProgramFiles.display ≠ cutAtBlank.display ∧
          ofDisplay "\"/Program Files/mplc\" -o \"my\u3000out\t\" main.mpl" = inProgramFiles := by
  have wholePlain : ∀ word ∈ inProgramFiles.words, word ≠ "" ∧ '"' ∉ word.toList := by
    decide
  have cutPlain : ∀ word ∈ cutAtBlank.words, word ≠ "" ∧ '"' ∉ word.toList := by
    decide
  obtain ⟨same_iff, read⟩ := display_tells_words inProgramFiles cutAtBlank wholePlain cutPlain
  refine ⟨wholePlain, cutPlain, ?_, read⟩
  rw [Ne, same_iff]
  decide

end MplServer.Invocation
