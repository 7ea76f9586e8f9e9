import Mathlib.Data.List.ReduceOption
import Recalc.Calculation.Worker
import Recalc.Proofs.Asking

/-!
# Looks at a queue

Commands wait in two places, and they are taken while the worker is idle and at the checkpoints of
its passes. Every look takes the first of all that are waiting, in the order in which they were sent:
checkpoints answer what such looks find (`answerAt_answers`), and leave what they leave behind
(`waiting_after`), up to a shutdown.
-/
namespace Recalc

/-! ### Readings -/

/-- What a reading means at a checkpoint. -/
def Command.answer : Option Command → Checkpoint
  | none => .go
  | some (start q) => .restart q
  | some stop => .stop
  | some shutdown => .stop

/-- What look number `i` finds, if each look takes the first command. -/
def readingAt (waiting : List Command) (arrivals : List (List Command)) : Nat → Option Command
  | 0 => (waiting ++ arrivals.headD []).head?
  | i + 1 => readingAt (waiting ++ arrivals.headD []).tail arrivals.tail i

/-- What some looks find in turn. -/
def readings (waiting : List Command) (arrivals : List (List Command)) (n : Nat) :
    List (Option Command) :=
  (List.range n).map (readingAt waiting arrivals)

/-- The commands that are left after some looks. -/
def leftover (waiting : List Command) (arrivals : List (List Command)) : Nat → List Command
  | 0 => waiting
  | n + 1 => leftover (waiting ++ arrivals.headD []).tail arrivals.tail n

theorem readings_succ (waiting : List Command) (arrivals : List (List Command)) (n : Nat) :
    readings waiting arrivals (n + 1) = (waiting ++ arrivals.headD []).head? ::
      readings (waiting ++ arrivals.headD []).tail arrivals.tail n := by
  simp [readings, List.range_succ_eq_map, readingAt]

theorem answerAt_readings {waiting : List Command} {arrivals : List (List Command)} {n i : Nat}
    (less : i < n) : answerAt ((readings waiting arrivals n).map Command.answer) i =
      Command.answer (readingAt waiting arrivals i) := by
  simp [answerAt, readings, less]

theorem mem_readings {waiting : List Command} {arrivals : List (List Command)} {n : Nat}
    {x : Option Command} :
    x ∈ readings waiting arrivals n ↔ ∃ j < n, readingAt waiting arrivals j = x := by
  simp [readings]

/-- One batch arrives, if any is left. -/
theorem append_flatten (waiting : List Command) (arrivals : List (List Command)) :
    waiting ++ arrivals.flatten = (waiting ++ arrivals.headD []) ++ arrivals.tail.flatten := by
  cases arrivals with
  | nil => simp
  | cons batch later => simp

/-- No look loses a command or changes their order. -/
theorem readings_append_leftover (waiting : List Command) (arrivals : List (List Command)) (n : Nat) :
    (readings waiting arrivals n).reduceOption ++
      (leftover waiting arrivals n ++ (arrivals.drop n).flatten) = waiting ++ arrivals.flatten := by
  induction n generalizing waiting arrivals with
  | zero => rfl
  | succ n ih =>
    -- the first look takes the first command, if there is one, and the others are left
    rw [readings_succ, leftover, append_flatten waiting arrivals]
    have rest := ih (waiting ++ arrivals.headD []).tail arrivals.tail
    rw [List.drop_tail] at rest
    generalize waiting ++ arrivals.headD [] = found at rest ⊢
    cases found with
    | nil => exact rest
    | cons command others => exact congrArg (command :: ·) rest

/-- Nothing is found once everything has been found. -/
theorem readingAt_of_looks_le {waiting : List Command} {arrivals : List (List Command)} {i : Nat}
    (late : waiting.length + arrivals.length + arrivals.flatten.length ≤ i) :
    readingAt waiting arrivals i = none := by
  induction i generalizing waiting arrivals with
  | zero =>
    cases waiting with
    | cons command rest => simp at late
    | nil =>
      cases arrivals with
      | cons batch later => simp at late
      | nil => rfl
  | succ i ih =>
    refine ih ?_
    cases arrivals with
    | nil =>
      simp at late ⊢
      omega
    | cons batch later =>
      simp at late ⊢
      omega

/-! ### Checkpoints -/

namespace CommandQueue

variable {queue : CommandQueue} {arrivals : List (List Command)}

/-- Before a shutdown, a checkpoint takes the first command. -/
theorem checkpoint_of_open (opened : queue.shutdown = false) :
    queue.checkpoint.1 = Command.answer queue.waiting.head? ∧
      queue.checkpoint.2.waiting = queue.waiting.tail ∧
      (queue.checkpoint.2.shutdown = true ↔ queue.waiting.head? = some .shutdown) := by
  have received : ∀ rest closed, (⟨[], rest, closed⟩ : CommandQueue).waiting = rest :=
    fun rest _ => List.append_nil rest
  unfold checkpoint
  rw [opened, if_neg Bool.false_ne_true]
  split
  next found =>
    rw [found]
    exact ⟨rfl, received [] _, by simp⟩
  next q rest found =>
    rw [found]
    exact ⟨rfl, received rest _, by simp⟩
  next rest found =>
    rw [found]
    exact ⟨rfl, received rest _, by simp⟩
  next rest found =>
    rw [found]
    exact ⟨rfl, received rest _, by simp⟩

theorem shutdown_send (commands : List Command) : (queue.send commands).shutdown = queue.shutdown :=
  rfl

theorem answerAt_answers (arrivals : List (List Command)) (opened : queue.shutdown = false) {n i : Nat}
    (less : i < n) (calm : ∀ j < i, readingAt queue.waiting arrivals j ≠ some .shutdown) :
    answerAt (queue.answers arrivals n) i = Command.answer (readingAt queue.waiting arrivals i) := by
  induction i generalizing queue arrivals n with
  | zero =>
    obtain ⟨n, rfl⟩ := Nat.exists_eq_succ_of_ne_zero (Nat.ne_of_gt less)
    have found := (checkpoint_of_open ((shutdown_send (arrivals.headD [])).trans opened)).1
    rw [waiting_send] at found
    exact found
  | succ i ih =>
    obtain ⟨n, rfl⟩ := Nat.exists_eq_succ_of_ne_zero (Nat.ne_of_gt (Nat.zero_lt_of_lt less))
    obtain ⟨-, rest, ends⟩ := checkpoint_of_open ((shutdown_send (arrivals.headD [])).trans opened)
    rw [waiting_send] at rest ends
    -- the first answer was no shutdown, so the queue is still open
    have still : (queue.send (arrivals.headD [])).checkpoint.2.shutdown = false :=
      Bool.eq_false_iff.mpr fun closed => calm 0 (Nat.succ_pos i) (ends.mp closed)
    have later := ih arrivals.tail still (Nat.lt_of_succ_lt_succ less) fun j before => by
      rw [rest]
      exact calm (j + 1) (Nat.succ_lt_succ before)
    rw [rest] at later
    exact later

theorem length_answers (queue : CommandQueue) (arrivals : List (List Command)) (n : Nat) :
    (queue.answers arrivals n).length = n := by
  induction n generalizing queue arrivals with
  | zero => rfl
  | succ n ih => exact congrArg Nat.succ (ih _ _)

/-- Beyond a certain number of looks nothing is found any more, and the answer is to go on. -/
theorem answerAt_answers_looks (arrivals : List (List Command)) (opened : queue.shutdown = false)
    {i : Nat} (calm : ∀ j < i, readingAt queue.waiting arrivals j ≠ some .shutdown) :
    answerAt (queue.answers arrivals (queue.looks arrivals)) i =
      Command.answer (readingAt queue.waiting arrivals i) := by
  rcases Nat.lt_or_ge i (queue.looks arrivals) with less | late
  · exact answerAt_answers arrivals opened less calm
  · have beyond : (queue.answers arrivals (queue.looks arrivals)).length ≤ i := by
      rw [length_answers]
      exact late
    rw [readingAt_of_looks_le late, answerAt, List.getD_eq_getElem?_getD,
      List.getElem?_eq_none beyond]
    rfl

/-- After some checkpoints, before all but the last of which no shutdown has been read. -/
theorem waiting_after (arrivals : List (List Command)) (opened : queue.shutdown = false) {n : Nat}
    (calm : ∀ j, j + 1 < n → readingAt queue.waiting arrivals j ≠ some .shutdown) :
    (queue.after arrivals n).waiting = leftover queue.waiting arrivals n ∧
      ((queue.after arrivals n).shutdown = true ↔
        ∃ j, j + 1 = n ∧ readingAt queue.waiting arrivals j = some .shutdown) := by
  induction n generalizing queue arrivals with
  | zero => exact ⟨rfl, by simp [after, opened]⟩
  | succ n ih =>
    obtain ⟨-, rest, ends⟩ := checkpoint_of_open ((shutdown_send (arrivals.headD [])).trans opened)
    rw [waiting_send] at rest ends
    cases n with
    -- the only checkpoint may read a shutdown, and none before another one
    | zero =>
      refine ⟨rest, ends.trans ⟨fun found => ⟨0, rfl, found⟩, ?_⟩⟩
      rintro ⟨j, same, found⟩
      obtain rfl : j = 0 := Nat.succ.inj same
      exact found
    | succ n =>
      have still : (queue.send (arrivals.headD [])).checkpoint.2.shutdown = false :=
        Bool.eq_false_iff.mpr fun closed => calm 0 (by omega) (ends.mp closed)
      obtain ⟨left, closed⟩ := ih arrivals.tail still fun j before => by
        rw [rest]
        exact calm (j + 1) (by omega)
      rw [rest] at left closed
      refine ⟨left, closed.trans ⟨?_, ?_⟩⟩
      · rintro ⟨j, same, found⟩
        exact ⟨j + 1, by omega, found⟩
      · rintro ⟨j, same, found⟩
        cases j with
        | zero => omega
        | succ j => exact ⟨j, by omega, found⟩

theorem waiting_of_take?_none (none : queue.take? = none) : queue.waiting = [] := by
  unfold take? at none
  split at none
  · cases none
  · cases none
  next backlog channel => simp [waiting, backlog, channel]

theorem shutdown_of_take? {rest : CommandQueue} {command : Command}
    (taken : queue.take? = some (command, rest)) : rest.shutdown = queue.shutdown := by
  unfold take? at taken
  split at taken
  · cases taken
    rfl
  · cases taken
    rfl
  · cases taken

end CommandQueue

end Recalc
