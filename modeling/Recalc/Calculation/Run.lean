import Recalc.Calculation.Pass

/-!
# Runs

A run serves one request to its end. Notifications are numbered through all runs of a runner; a run
sends notes of its progress, then its results, then one note that it has ended. A request that
arrives during a run replaces the pass in flight, which leaves no results behind but passes its marks
on.
-/

namespace Recalc

/-- What a runner is doing, or how its last pass ended. -/
inductive RunState where
  | idle
  | running
  | stopped
  | completed
deriving DecidableEq, Repr

namespace RunState

def isTerminal : RunState → Bool
  | stopped | completed => true
  | idle | running => false

def label : RunState → String
  | idle => "Idle"
  | running => "Running"
  | stopped => "Stopped"
  | completed => "Completed"

/-- Whether one state may follow another. -/
def mayBecome : RunState → RunState → Bool
  | idle, running => true
  | running, running => true
  | running, stopped => true
  | running, completed => true
  | stopped, idle => true
  | completed, idle => true
  | _, _ => false

end RunState

inductive RunError where
  | illegalTransition (source target : RunState)
  | workerDisconnected
deriving DecidableEq, Repr

def RunError.message : RunError → String
  | illegalTransition source target =>
    "illegal run-state transition " ++ source.label ++ " -> " ++ target.label
  | workerDisconnected => "calculation worker has shut down"

/-- How far a run has come, under the number of its notification. -/
structure StageInfo where
  stage : Nat
  completed : Nat
  total : Nat
deriving DecidableEq, Repr

/-- The part that is completed; nothing at all counts as complete. -/
def StageInfo.ratio (s : StageInfo) : Float :=
  if s.total = 0 then 1.0 else Float.ofNat s.completed / Float.ofNat s.total

structure Notification where
  state : RunState
  info : StageInfo
deriving DecidableEq, Repr

inductive Event where
  | notification (n : Notification)
  | results (r : Results)

namespace Event

/-- Whether an event ends a run. -/
def isTerminal : Event → Bool
  | notification n => n.state.isTerminal
  | results _ => false

end Event

/-- A runner: its state, the number of notifications sent and the number of passes begun. -/
structure Runner where
  state : RunState
  stage : Nat
  passes : Nat
deriving DecidableEq, Repr

structure RunReport where
  finish : RunState
  runner : Runner
  events : List Event
  polls : Nat

namespace Runner

def start : Runner :=
  ⟨.idle, 0, 0⟩

/-- Moves to another state, if that may follow. -/
def transition (r : Runner) (target : RunState) : Except RunError Runner :=
  if r.state.mayBecome target then .ok { r with state := target }
  else .error (.illegalTransition r.state target)

def notify (r : Runner) (state : RunState) (completed total : Nat) : Runner × Event :=
  ({ r with stage := r.stage + 1 }, .notification ⟨state, ⟨r.stage + 1, completed, total⟩⟩)

def notifyProgress (r : Runner) (total : Nat) : List Nat → Runner × List Event
  | [] => (r, [])
  | completed :: rest =>
    let (r, event) := r.notify .running completed total
    let (r, events) := notifyProgress r total rest
    (r, event :: events)

end Runner

namespace Engine

theorem polls_pos_of_superseded {e : Engine} {book : Workbook} {q next : Request}
    {answers : List Checkpoint} (h : (e.runPass book q answers).finish = .superseded next) :
    0 < (e.runPass book q answers).polls ∧ 0 < answers.length := by
  simp only [runPass] at h ⊢
  split at h
  · next k finish found =>
    exact ⟨Nat.succ_pos k, Nat.zero_lt_of_lt (interruption?_lt_length found)⟩
  · cases h

/-- Serves a request: passes follow one another as long as a newer request replaces the one in
flight. -/
def serve (e : Engine) (book : Workbook) (q : Request) (answers : List Checkpoint)
    (runner : Runner) : Except RunError RunReport := do
  let outcome := e.runPass book q answers
  let runner := { runner with passes := runner.passes + 1 }
  let (runner, notes) := runner.notifyProgress outcome.total outcome.progress
  match _h : outcome.finish with
  | .superseded next =>
    let runner ← runner.transition .running
    let report ← serve e book (next.absorb q) (answers.drop outcome.polls) runner
    return { report with events := notes ++ report.events, polls := outcome.polls + report.polls }
  | .completed => deliver .completed outcome runner notes
  | .stopped => deliver .stopped outcome runner notes
termination_by answers.length
decreasing_by
  have := polls_pos_of_superseded _h
  simp only [List.length_drop]
  omega
where
  /-- The results and the last note of a run, after which the runner is idle again. -/
  deliver (finish : RunState) (outcome : PassOutcome) (runner : Runner) (notes : List Event) :
      Except RunError RunReport := do
    let runner ← runner.transition finish
    let (runner, last) := runner.notify finish outcome.completed outcome.total
    let runner ← runner.transition .idle
    return ⟨finish, runner, notes ++ [.results outcome.results, last], outcome.polls⟩

/-- Serves a request if the runner may start running. -/
def execute (e : Engine) (book : Workbook) (q : Request) (answers : List Checkpoint)
    (runner : Runner) : Except RunError RunReport := do
  let runner ← runner.transition .running
  e.serve book q answers runner

/-- Serves a request that nothing interrupts, and collects the events. -/
def calculate (e : Engine) (book : Workbook) (q : Request) (runner : Runner) :
    Except RunError (List Event × Runner) := do
  let report ← e.execute book q [] runner
  return (report.events, report.runner)

end Engine

end Recalc
