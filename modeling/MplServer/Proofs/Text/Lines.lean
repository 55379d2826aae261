import Mathlib.Data.List.Basic
import MplServer.Text.Basic

/-!
# Lines of a sequence

A sequence is made of lines that end at a line feed, and of what is left behind the last of them.
Reading hands out each ended line once, in order, and the rest if there is any.
-/

namespace MplServer.Text

variable {α : Type} {lineFeed carriageReturn : α}

/-- A sequence taken apart: lines that end at a line feed, and the rest behind the last one. -/
structure Parted (lineFeed : α) (elements : List α) (ended : List (List α)) (rest : List α) :
    Prop where
  whole : elements = ended.flatMap (· ++ [lineFeed]) ++ rest
  endedUnbroken : ∀ line ∈ ended, lineFeed ∉ line
  restUnbroken : lineFeed ∉ rest

theorem Parted.cons
    {elements line : List α} {ended : List (List α)} {rest : List α}
    (unbroken : lineFeed ∉ line) (parted : Parted lineFeed elements ended rest) :
    Parted lineFeed (line ++ lineFeed :: elements) (line :: ended) rest where
  whole := by rw [parted.whole]; simp
  endedUnbroken := List.forall_mem_cons.mpr ⟨unbroken, parted.endedUnbroken⟩
  restUnbroken := parted.restUnbroken

/-- Every sequence can be taken apart at its line feeds. -/
theorem exists_parted [DecidableEq α] (lineFeed : α) (elements : List α) :
    ∃ ended rest, Parted lineFeed elements ended rest := by
  induction length : elements.length using Nat.strongRecOn generalizing elements with
  | ind size inductionHypothesis =>
      by_cases member : lineFeed ∈ elements
      · obtain ⟨line, later, shape, unbroken⟩ := List.eq_append_cons_of_mem member
        have shorter : later.length < size := by
          rw [← length, shape, List.length_append, List.length_cons]
          omega
        obtain ⟨ended, rest, parted⟩ := inductionHypothesis later.length shorter later rfl
        rw [shape]
        exact ⟨line :: ended, rest, parted.cons unbroken⟩
      · exact ⟨[], elements, rfl, by simp, member⟩

variable [DecidableEq α]

/-- A line without the carriage return it ends with, if it ends with one. -/
def withoutReturn (carriageReturn : α) (line : List α) : List α :=
  if line.getLast? = some carriageReturn then line.dropLast else line

/-- The lines that are to be handed out: the ended ones, each without its line end, and the rest as
it is unless it is empty. -/
def handedOut (carriageReturn : α) (ended : List (List α)) (rest : List α) : List (List α) :=
  ended.map (withoutReturn carriageReturn) ++ if rest = [] then [] else [rest]

theorem closeLine_eq_withoutReturn (carriageReturn : α) (pending : List α) :
    closeLine carriageReturn pending = withoutReturn carriageReturn pending.reverse := by
  cases pending with
  | nil => rfl
  | cons last earlier =>
      by_cases isReturn : last = carriageReturn
      · simp [closeLine, withoutReturn, isReturn]
      · simp [closeLine, withoutReturn, isReturn]

theorem linesFrom_of_unbroken
    {rest : List α} (unbroken : lineFeed ∉ rest) (pending : List α) :
    linesFrom lineFeed carriageReturn pending rest =
      if pending.reverse ++ rest = [] then [] else [pending.reverse ++ rest] := by
  induction rest generalizing pending with
  | nil => cases pending <;> simp [linesFrom]
  | cons element later inductionHypothesis =>
      rw [List.mem_cons, not_or] at unbroken
      rw [linesFrom, if_neg (Ne.symm unbroken.1), inductionHypothesis unbroken.2]
      simp

theorem linesFrom_of_ended
    {line : List α} (unbroken : lineFeed ∉ line) (pending later : List α) :
    linesFrom lineFeed carriageReturn pending (line ++ lineFeed :: later) =
      withoutReturn carriageReturn (pending.reverse ++ line) ::
        linesFrom lineFeed carriageReturn [] later := by
  induction line generalizing pending with
  | nil =>
      rw [List.nil_append, linesFrom, if_pos rfl, closeLine_eq_withoutReturn, List.append_nil]
  | cons element others inductionHypothesis =>
      rw [List.mem_cons, not_or] at unbroken
      rw [List.cons_append, linesFrom, if_neg (Ne.symm unbroken.1),
        inductionHypothesis unbroken.2]
      simp

/-- Reading a sequence hands out its lines. -/
theorem Parted.lines_eq
    {elements : List α} {ended : List (List α)} {rest : List α}
    (parted : Parted lineFeed elements ended rest) :
    lines lineFeed carriageReturn elements = handedOut carriageReturn ended rest := by
  obtain ⟨rfl, endedUnbroken, restUnbroken⟩ := parted
  unfold lines
  induction ended with
  | nil => exact linesFrom_of_unbroken restUnbroken []
  | cons line others inductionHypothesis =>
      rw [List.forall_mem_cons] at endedUnbroken
      have onward := inductionHypothesis endedUnbroken.2
      rw [List.flatMap_cons, List.append_assoc, List.append_assoc, List.singleton_append,
        linesFrom_of_ended endedUnbroken.1, onward]
      rfl

end MplServer.Text
