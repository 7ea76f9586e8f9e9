import Recalc.Calculation.Run

/-!
# Workers

A worker serves commands from a queue. While it is idle it takes the next command and waits if there
is none; at every checkpoint of a pass it receives what has been sent and answers with the next
command. What is sent in the meantime is a list of batches, one of which arrives before each look at
the queue.
-/

namespace Recalc

inductive Command where
  | start (q : Request)
  | stop
  | shutdown

/-- The commands that no one has taken: those that have been sent only, and before them those that
were received at checkpoints. A queue remembers that a shutdown was read at a checkpoint. -/
structure CommandQueue where
  channel : List Command
  backlog : List Command
  shutdown : Bool

namespace CommandQueue

def empty : CommandQueue :=
  ⟨[], [], false⟩

def send (queue : CommandQueue) (commands : List Command) : CommandQueue :=
  { queue with channel := queue.channel ++ commands }

/-- All commands that no one has taken, in the order in which they were sent. -/
def waiting (queue : CommandQueue) : List Command :=
  queue.backlog ++ queue.channel

/-- Takes the next command outside of passes. -/
def take? (queue : CommandQueue) : Option (Command × CommandQueue) :=
  match queue.backlog, queue.channel with
  | command :: rest, _ => some (command, { queue with backlog := rest })
  | [], command :: rest => some (command, { queue with channel := rest })
  | [], [] => none

/-- Receives what has been sent and answers with the first command. After a shutdown the answer is
to stop. -/
def checkpoint (queue : CommandQueue) : Checkpoint × CommandQueue :=
  if queue.shutdown then (.stop, queue)
  else
    match queue.waiting with
    | [] => (.go, { queue with channel := [], backlog := [] })
    | .start q :: rest => (.restart q, { queue with channel := [], backlog := rest })
    | .stop :: rest => (.stop, { queue with channel := [], backlog := rest })
    | .shutdown :: rest => (.stop, ⟨[], rest, true⟩)

/-- The answers at some checkpoints. -/
def answers (queue : CommandQueue) (arrivals : List (List Command)) : Nat → List Checkpoint
  | 0 => []
  | n + 1 =>
    let (answer, queue) := (queue.send (arrivals.headD [])).checkpoint
    answer :: queue.answers arrivals.tail n

/-- The queue after some checkpoints. -/
def after (queue : CommandQueue) (arrivals : List (List Command)) : Nat → CommandQueue
  | 0 => queue
  | n + 1 => (queue.send (arrivals.headD [])).checkpoint.2.after arrivals.tail n

/-- A number of looks after which nothing is left to be found. -/
def looks (queue : CommandQueue) (arrivals : List (List Command)) : Nat :=
  queue.waiting.length + arrivals.length + arrivals.flatten.length

theorem waiting_send (queue : CommandQueue) (commands : List Command) :
    (queue.send commands).waiting = queue.waiting ++ commands := by
  simp [send, waiting]

theorem waiting_of_take? {queue rest : CommandQueue} {command : Command}
    (taken : queue.take? = some (command, rest)) : queue.waiting = command :: rest.waiting := by
  unfold take? at taken
  split at taken
  next found =>
    cases taken
    simp [waiting, found]
  next empty found =>
    cases taken
    simp [waiting, empty, found]
  next => cases taken

theorem length_checkpoint (queue : CommandQueue) :
    queue.checkpoint.2.waiting.length ≤ queue.waiting.length := by
  unfold checkpoint
  split
  · exact Nat.le_refl _
  · split <;> simp_all [waiting]

/-- One batch arrives, if any is left. -/
theorem looks_send (queue : CommandQueue) (arrivals : List (List Command)) :
    (queue.send (arrivals.headD [])).looks arrivals.tail + min arrivals.length 1 =
      queue.looks arrivals := by
  cases arrivals with
  | nil => simp [looks, waiting_send]
  | cons batch later =>
    simp [looks, waiting_send]
    omega

theorem looks_of_take? {queue rest : CommandQueue} {command : Command}
    (taken : queue.take? = some (command, rest)) (arrivals : List (List Command)) :
    rest.looks arrivals < queue.looks arrivals := by
  simp only [looks, waiting_of_take? taken, List.length_cons]
  omega

theorem looks_after (queue : CommandQueue) (arrivals : List (List Command)) (n : Nat) :
    (queue.after arrivals n).looks (arrivals.drop n) ≤ queue.looks arrivals := by
  induction n generalizing queue arrivals with
  | zero => exact Nat.le_refl _
  | succ n ih =>
    have first := looks_send queue arrivals
    have later := ih (queue.send (arrivals.headD [])).checkpoint.2 arrivals.tail
    have fewer := length_checkpoint (queue.send (arrivals.headD []))
    rw [← List.drop_one, List.drop_drop, Nat.add_comm] at later
    simp only [looks, List.drop_one] at first later ⊢
    simp only [after]
    omega

end CommandQueue

/-- A worker: its engine, its runner, its queue, the events that have not been collected, and whether
it takes commands. -/
structure Worker where
  engine : Engine
  runner : Runner
  queue : CommandQueue
  pending : List Event
  alive : Bool

namespace Worker

/-- A worker that has done nothing yet. -/
def spawn (e : Engine) : Worker :=
  ⟨e, .start, .empty, [], true⟩

/-- Serves a request that has been taken from the queue. -/
def run (w : Worker) (book : Workbook) (q : Request) (arrivals : List (List Command)) :
    Worker × Nat :=
  match w.engine.execute book q (w.queue.answers arrivals (w.queue.looks arrivals)) w.runner with
  | .error _ => (w, 0)
  | .ok report =>
    ({ w with
        runner := report.runner
        queue := w.queue.after arrivals report.polls
        pending := w.pending ++ report.events }, report.polls)

theorem looks_run (w : Worker) (book : Workbook) (q : Request) (arrivals : List (List Command)) :
    (w.run book q arrivals).1.queue.looks (arrivals.drop (w.run book q arrivals).2) ≤
      w.queue.looks arrivals := by
  unfold run
  split
  · exact Nat.le_refl _
  · exact w.queue.looks_after arrivals _

/-- Works off commands until there are none left to wait for. A stop that is taken while the worker is
idle has no effect; a shutdown ends the worker, after the results of a pass in flight. -/
def work (w : Worker) (book : Workbook) (arrivals : List (List Command)) : Worker :=
  match _h : (w.queue.send (arrivals.headD [])).take? with
  | none =>
    if arrivals.isEmpty then w
    else work { w with queue := w.queue.send (arrivals.headD []) } book arrivals.tail
  | some (.stop, queue) => work { w with queue } book arrivals.tail
  | some (.shutdown, queue) => { w with queue, alive := false }
  | some (.start q, queue) =>
    let served := ({ w with queue } : Worker).run book q arrivals.tail
    if served.1.queue.shutdown then { served.1 with alive := false }
    else work served.1 book (arrivals.tail.drop served.2)
termination_by w.queue.looks arrivals
decreasing_by
  all_goals have arrived := w.queue.looks_send arrivals
  · cases arrivals with
    | nil => contradiction
    | cons batch later =>
      simp only [List.length_cons] at arrived
      omega
  · have taken := CommandQueue.looks_of_take? _h arrivals.tail
    exact Nat.lt_of_lt_of_le taken (by omega)
  · have taken := CommandQueue.looks_of_take? _h arrivals.tail
    have ran := ({ w with queue } : Worker).looks_run book q arrivals.tail
    exact Nat.lt_of_le_of_lt ran (Nat.lt_of_lt_of_le taken (by omega))

/-- Sends commands, all of which arrive before the worker looks for one. A worker that has ended
takes none. -/
def send (w : Worker) (book : Workbook) (commands : List Command) : Except RunError Worker :=
  if w.alive then .ok (({ w with queue := w.queue.send commands } : Worker).work book [])
  else if commands.isEmpty then .ok w
  else .error .workerDisconnected

/-- Splits events after the last note of the given number of runs. -/
def splitRuns : Nat → List Event → List Event × List Event
  | 0, events => ([], events)
  | _, [] => ([], [])
  | runs + 1, event :: rest =>
    let (taken, left) := splitRuns (if event.isTerminal then runs else runs + 1) rest
    (event :: taken, left)

/-- Takes the pending events of some runs. -/
def collect (w : Worker) (runs : Nat) : List Event × Worker :=
  let (taken, left) := splitRuns runs w.pending
  (taken, { w with pending := left })

end Worker

end Recalc
