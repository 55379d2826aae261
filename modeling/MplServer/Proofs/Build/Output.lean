import Mathlib.Data.List.Forall2
import MplServer.Build.Run
import MplServer.Proofs.Text.Encoding
import MplServer.Proofs.Text.Lines

/-!
# Output that is passed on

The lines of a stream are passed on one by one, each as it is, up to the first that is no text. So
all of them arrive just when each of them is a text.
-/

namespace MplServer

/-- The bytes of a line encode a text. -/
def IsText (line : Bytes) : Prop :=
  ∃ text, line = Text.encode text

/-- One text arrives for each line, in their order, and it is the line itself if that is a text. -/
def Arrives (lines : List Bytes) (texts : List String) : Prop :=
  List.Forall₂ (fun line text => ∀ written, line = Text.encode written → text = written)
    lines texts

namespace Run

variable {run : Run} {stream : Bytes}

/-- A run that writes a stream to one of its outputs and nothing to the other. -/
inductive WritesOnly (stream : Bytes) : Run → Prop where
  | output (code : Nat) : WritesOnly stream ⟨stream, [], code⟩
  | error (code : Nat) : WritesOnly stream ⟨[], stream, code⟩

theorem WritesOnly.lines_eq
    (writesOnly : WritesOnly stream run) : run.lines = deliveredLines stream := by
  have nothing : deliveredLines [] = [] := rfl
  cases writesOnly with
  | output code => rw [lines, nothing, List.append_nil]
  | error code => rw [lines, nothing, List.nil_append]

/-- Texts are passed on until there is a line that is none. -/
theorem exists_lines_eq_append (stream : Bytes) :
    ∃ behind,
      Text.lines 10 13 stream = (deliveredLines stream).map Text.encode ++ behind ∧
        ∀ line, behind.head? = some line → ¬ IsText line := by
  unfold deliveredLines
  generalize Text.lines 10 13 stream = lines
  induction lines with
  | nil => exact ⟨[], rfl, by simp⟩
  | cons line later inductionHypothesis =>
      cases read : FileSystem.textOf? line with
      | none =>
          refine ⟨line :: later, by simp [read], ?_⟩
          intro first isFirst
          obtain rfl := Option.some.inj isFirst
          rintro ⟨text, encoded⟩
          rw [(textOf?_eq_some_iff line text).mpr encoded] at read
          cases read
      | some text =>
          obtain ⟨behind, whole, stopped⟩ := inductionHypothesis
          have encoded := (textOf?_eq_some_iff line text).mp read
          refine ⟨behind, ?_, stopped⟩
          rw [List.map_cons, List.takeWhile_cons_of_pos (by simp [read]), read,
            List.filterMap_cons_some (f := id) rfl, List.map_cons, List.cons_append, ← whole,
            encoded]

/-- What arrives for lines when texts are passed on until one of the lines is none. -/
theorem arrives_iff_forall_isText
    {lines behind : List Bytes} {texts : List String}
    (whole : lines = texts.map Text.encode ++ behind)
    (stopped : ∀ line, behind.head? = some line → ¬ IsText line) :
    Arrives lines texts ↔ ∀ line ∈ lines, IsText line := by
  constructor
  · intro arrives
    have sameLength := arrives.length_eq
    rw [whole, List.length_append, List.length_map] at sameLength
    have nothingBehind : behind = [] := List.length_eq_zero_iff.mp (by omega)
    intro line member
    rw [whole, nothingBehind, List.append_nil] at member
    obtain ⟨text, _, encoded⟩ := List.mem_map.mp member
    exact ⟨text, encoded.symm⟩
  · intro allTexts
    have nothingBehind : behind = [] := by
      cases behind with
      | nil => rfl
      | cons first others =>
          have inLines : first ∈ lines := by
            rw [whole]
            simp
          exact absurd (allTexts first inLines) (stopped first rfl)
    rw [whole, nothingBehind, List.append_nil, Arrives, List.forall₂_map_left_iff,
      List.forall₂_same]
    exact fun text _ written same => Text.encode_injective same

/-- Of the lines of a stream, those before the first that is no text are passed on, each as it is.
So they all arrive, text for line, just when each of them is a text. -/
theorem lines_arrive_iff_all_texts (writesOnly : WritesOnly stream run) :
    (∃ ended rest, Text.Parted 10 stream ended rest) ∧
    ∀ ended rest, Text.Parted 10 stream ended rest →
      (∃ behind,
        Text.handedOut 13 ended rest = run.lines.map Text.encode ++ behind ∧
          ∀ line, behind.head? = some line → ¬ IsText line) ∧
      (Arrives (Text.handedOut 13 ended rest) run.lines ↔
        ∀ line ∈ Text.handedOut 13 ended rest, IsText line) := by
  refine ⟨Text.exists_parted 10 stream, ?_⟩
  intro ended rest parted
  obtain ⟨behind, whole, stopped⟩ := exists_lines_eq_append stream
  rw [parted.lines_eq, ← writesOnly.lines_eq] at whole
  exact ⟨⟨behind, whole, stopped⟩, arrives_iff_forall_isText whole stopped⟩

/-- A compiler that writes lines with either line end to its error output, the last one open. -/
def talkative : Run :=
  ⟨[], Text.encode "one\r\n\ntwo\r", 1⟩

theorem talkative_lines_arrive :
    WritesOnly (Text.encode "one\r\n\ntwo\r") talkative ∧
      Text.Parted 10 (Text.encode "one\r\n\ntwo\r") [Text.encode "one\r", []]
        (Text.encode "two\r") ∧
      Arrives [Text.encode "one", [], Text.encode "two\r"] talkative.lines := by
  have writesOnly : WritesOnly (Text.encode "one\r\n\ntwo\r") talkative := .error 1
  have parted :
      Text.Parted 10 (Text.encode "one\r\n\ntwo\r") [Text.encode "one\r", []]
        (Text.encode "two\r") :=
    ⟨by decide, by decide, by decide⟩
  refine ⟨writesOnly, parted, ?_⟩
  have arrives := ((lines_arrive_iff_all_texts writesOnly).2 _ _ parted).2.mpr ?_
  · exact arrives
  · intro line member
    have shape :
        Text.handedOut 13 [Text.encode "one\r", []] (Text.encode "two\r") =
          ["one", "", "two\r"].map Text.encode := by
      decide
    rw [shape] at member
    obtain ⟨text, _, encoded⟩ := List.mem_map.mp member
    exact ⟨text, encoded.symm⟩

/-- A compiler that writes a byte that encodes nothing, on a line between two others. -/
def garbled : Run :=
  ⟨Text.encode "one\n" ++ [0xFF, 10] ++ Text.encode "three\n", [], 0⟩

/-- The line behind the one that is no text does not arrive. -/
theorem garbled_lines_do_not_arrive :
    WritesOnly (Text.encode "one\n" ++ [0xFF, 10] ++ Text.encode "three\n") garbled ∧
      Text.Parted 10 (Text.encode "one\n" ++ [0xFF, 10] ++ Text.encode "three\n")
        [Text.encode "one", [0xFF], Text.encode "three"] [] ∧
      garbled.lines = ["one"] ∧
      ¬ Arrives (Text.handedOut 13 [Text.encode "one", [0xFF], Text.encode "three"] [])
          garbled.lines := by
  have delivered : garbled.lines = ["one"] := by
    decide +kernel
  refine ⟨.output 0, ⟨by decide, by decide, by decide⟩, delivered, ?_⟩
  intro arrives
  have sameLength := arrives.length_eq
  rw [delivered] at sameLength
  have three :
      (Text.handedOut 13 [Text.encode "one", [0xFF], Text.encode "three"] []).length = 3 := by
    decide
  rw [three] at sameLength
  cases sameLength

end Run

end MplServer
