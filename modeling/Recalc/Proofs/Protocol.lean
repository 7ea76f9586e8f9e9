import Mathlib.Data.List.Range
import Recalc.Proofs.Supersession

/-!
# The protocol of runs

What the calls of a runner send, one after the other: notes of progress, results and one last note
for each run that is served, and nothing for a call that is refused (`history_conforms`). The
numbers of all notifications go on from one call to the next.
-/
namespace Recalc

/-! ### Numbers of notifications -/

namespace Event

/-- The number of a notification. -/
def stage? : Event → Option Nat
  | notification n => some n.info.stage
  | results _ => none

/-- An event but for its number. -/
def unnumbered : Event → Event
  | notification n => notification { n with info := { n.info with stage := 0 } }
  | results r => results r

end Event

/-- The notifications among some events have the numbers after one number, up to another. -/
def Numbered (first : Nat) (events : List Event) (last : Nat) : Prop :=
  ∃ n, events.filterMap Event.stage? = List.range' (first + 1) n ∧ last = first + n

theorem numbered_nil (first : Nat) : Numbered first [] first :=
  ⟨0, rfl, rfl⟩

theorem Numbered.append {first middle last : Nat} {events more : List Event}
    (early : Numbered first events middle) (late : Numbered middle more last) :
    Numbered first (events ++ more) last := by
  obtain ⟨m, stages, rfl⟩ := early
  obtain ⟨n, later, rfl⟩ := late
  refine ⟨m + n, ?_, Nat.add_assoc _ _ _⟩
  rw [List.filterMap_append, stages, later, Nat.add_right_comm, List.range'_append_1]

/-- Results have no number. -/
theorem Numbered.cons_results {first last : Nat} {events : List Event}
    (numbered : Numbered first events last) (r : Results) :
    Numbered first (.results r :: events) last :=
  numbered

namespace Runner

theorem numbered_notify (r : Runner) (state : RunState) (completed total : Nat) :
    Numbered r.stage [(r.notify state completed total).2] (r.notify state completed total).1.stage :=
  ⟨1, rfl, rfl⟩

theorem numbered_notifyProgress (r : Runner) (total : Nat) (progress : List Nat) :
    Numbered r.stage (r.notifyProgress total progress).2 (r.notifyProgress total progress).1.stage := by
  induction progress generalizing r with
  | nil => exact numbered_nil _
  | cons completed rest ih =>
    exact (r.numbered_notify .running completed total).append (ih _)

end Runner

/-! ### Progress -/

/-- The notes of a pass, but for their numbers. -/
def PassOutcome.notes (p : PassOutcome) : List Event :=
  p.progress.map fun completed => .notification ⟨.running, ⟨0, completed, p.total⟩⟩

/-- Progress is reported after at least `interval` further cells each time, or never. -/
structure PassOutcome.Paced (p : PassOutcome) (interval : Nat) : Prop where
  silent : interval = 0 → p.progress = []
  apart : (0 :: p.progress).Pairwise fun m n => m < n ∧ m + interval ≤ n
  bounded : ∀ n ∈ p.progress, n ≤ p.total

/-- What is reported during a pass never runs ahead of what is completed. -/
structure PassState.Paced (s : PassState) (interval : Nat) : Prop where
  silent : interval = 0 → s.progress = []
  apart : (0 :: s.progress).Pairwise fun m n => m < n ∧ m + interval ≤ n
  reported : ∀ n ∈ 0 :: s.progress, n ≤ s.reported
  completed : s.reported ≤ s.completed

namespace PassContext

variable {c : PassContext} {s : PassState}

theorem paced_start (interval : Nat) : PassState.start.Paced interval :=
  ⟨fun _ => rfl, List.pairwise_singleton _ 0, fun _ member => Nat.le_of_eq (List.mem_singleton.mp member),
    Nat.le_refl 0⟩

theorem paced_commitAll {interval : Nat} (paced : s.Paced interval)
    (outcomes : List (Address × Except Fault Value)) : (c.commitAll s outcomes).Paced interval := by
  induction outcomes generalizing s with
  | nil => exact paced
  | cons x rest ih =>
    exact ih ⟨paced.silent, paced.apart, paced.reported, Nat.le_succ_of_le paced.completed⟩

theorem paced_report (paced : s.Paced c.config.progressInterval) :
    (c.report s).Paced c.config.progressInterval := by
  unfold report
  simp only
  split
  next due =>
    refine ⟨fun off => absurd due.1 (by omega), ?_, ?_, Nat.le_refl _⟩ <;>
      rw [← List.cons_append]
    · refine List.pairwise_append.mpr ⟨paced.apart, List.pairwise_singleton _ _, ?_⟩
      intro m earlier n now
      obtain rfl := List.mem_singleton.mp now
      have before := paced.reported m earlier
      have order := paced.completed
      omega
    · intro n member
      rcases List.mem_append.mp member with earlier | now
      · exact Nat.le_trans (paced.reported n earlier) paced.completed
      · exact Nat.le_of_eq (List.mem_singleton.mp now)
  · exact paced

theorem paced_performAll (c : PassContext) (steps : List Step) :
    (c.performAll steps).Paced c.config.progressInterval :=
  List.foldlRecOn (motive := fun s => s.Paced c.config.progressInterval) steps c.perform
    (paced_start _) fun _ paced _ _ => paced_report (paced_commitAll paced _)

end PassContext

namespace Engine

variable {e : Engine} {book : Workbook} {q : Request} {answers : List Checkpoint} {runner : Runner}

/-- Every pass is that of a state after some of its steps. -/
theorem exists_performed (e : Engine) (book : Workbook) (q : Request) (answers : List Checkpoint) :
    ∃ k, let state := (e.context book q).performAll ((e.steps book q).take k)
      let outcome := e.runPass book q answers
      outcome.results = state.results ∧ outcome.completed = state.completed ∧
        outcome.progress = state.progress ∧ outcome.total = (e.plan book q).2.size := by
  cases found : interruption? answers (e.steps book q).length with
  | none =>
    refine ⟨(e.steps book q).length, ?_⟩
    simp [runPass_of_calm found]
  | some stop =>
    -- an interrupted pass has performed the steps before the checkpoint
    refine ⟨stop.1, ?_⟩
    simp [runPass_of_interruption found]

theorem completed_take_le (e : Engine) (book : Workbook) (q : Request) (k : Nat) :
    ((e.context book q).performAll ((e.steps book q).take k)).completed ≤ (e.plan book q).2.size := by
  rw [completed_take, Schedule.size, ← e.early_append_late book q k, List.length_append]
  exact Nat.le_add_right _ _

theorem paced_runPass (e : Engine) (book : Workbook) (q : Request) (answers : List Checkpoint) :
    (e.runPass book q answers).Paced e.config.progressInterval := by
  obtain ⟨k, -, -, progress, total⟩ := e.exists_performed book q answers
  have paced := (e.context book q).paced_performAll ((e.steps book q).take k)
  have bounded := e.completed_take_le book q k
  refine ⟨fun off => progress.trans (paced.silent off), progress ▸ paced.apart, fun n member => ?_⟩
  rw [progress] at member
  rw [total]
  exact Nat.le_trans (Nat.le_trans (paced.reported n (List.mem_cons_of_mem 0 member))
    paced.completed) bounded

/-- A pass counts the values and the faults of its results. -/
theorem completed_runPass (e : Engine) (book : Workbook) (q : Request) (answers : List Checkpoint) :
    (e.runPass book q answers).completed =
      (e.runPass book q answers).results.count + (e.runPass book q answers).results.faults.length := by
  obtain ⟨k, results, completed, -, -⟩ := e.exists_performed book q answers
  have carries := e.carries_take book q k
  have length := (carries.carried_perm (e.nodup_trace_take book q k)).length_eq
  rw [results, completed, carries.completed, ← List.length_map Prod.fst, ← length]
  simp [Results.carried, Results.cells, Results.count, UnitCells.count, Nat.add_assoc]

/-! ### Runs -/

/-- What a run sends: notes of its passes in turn, the results of the last one, and one more note
that it has ended. The runner is idle afterwards, and has begun that many passes. -/
structure Delivers (e : Engine) (book : Workbook) (before : Runner) (finish : RunState)
    (sent : List Event) (after : Runner) (superseded : List PassOutcome) (last : PassOutcome) :
    Prop where
  ran : ∀ p ∈ superseded ++ [last], ∃ q answers, p = e.runPass book q answers
  paced : ∀ p ∈ superseded ++ [last], p.Paced e.config.progressInterval
  terminal : finish.isTerminal = true
  events : sent.map Event.unnumbered = (superseded ++ [last]).flatMap PassOutcome.notes ++
    [.results last.results, .notification ⟨finish, ⟨0, last.completed, last.total⟩⟩]
  counted : last.completed = last.results.count + last.results.faults.length
  numbered : Numbered before.stage sent after.stage
  idle : after.state = .idle
  passes : after.passes = before.passes + 1 + superseded.length

theorem unnumbered_notifyProgress (r : Runner) (total : Nat) (progress : List Nat) :
    (r.notifyProgress total progress).2.map Event.unnumbered =
      progress.map fun completed => .notification ⟨.running, ⟨0, completed, total⟩⟩ := by
  induction progress generalizing r with
  | nil => rfl
  | cons completed rest ih => exact congrArg (List.cons _) (ih _)

theorem numbered_noted (e : Engine) (book : Workbook) (q : Request) (answers : List Checkpoint)
    (runner : Runner) :
    Numbered runner.stage (e.noted book q answers runner).2 (e.noted book q answers runner).1.stage :=
  Runner.numbered_notifyProgress { runner with passes := runner.passes + 1 } _ _

theorem delivers_ended {finish : RunState} (terminal : finish.isTerminal = true) :
    let report := e.ended book q answers runner finish
    e.Delivers book runner report.finish report.events report.runner [] (e.runPass book q answers) := by
  intro report
  have ran : ∀ p ∈ [] ++ [e.runPass book q answers], p = e.runPass book q answers :=
    fun p member => List.mem_singleton.mp member
  refine {
    ran := fun p member => ⟨q, answers, ran p member⟩
    paced := ?paced
    terminal
    events := ?events
    counted := e.completed_runPass book q answers
    numbered := ?numbered
    idle := rfl
    passes := e.passes_noted book q answers runner }
  case paced =>
    intro p member
    rw [ran p member]
    exact e.paced_runPass book q answers
  case events =>
    show ((e.noted book q answers runner).2 ++ _).map Event.unnumbered = _
    rw [List.map_append, noted, unnumbered_notifyProgress, List.nil_append, List.flatMap_singleton]
    rfl
  case numbered =>
    -- the note that the run has ended takes the next number; the results before it take none
    let outcome := e.runPass book q answers
    have note := (e.noted book q answers runner).1.numbered_notify finish outcome.completed outcome.total
    exact (e.numbered_noted book q answers runner).append (note.cons_results outcome.results)

theorem Delivers.goOn {report : RunReport} {superseded : List PassOutcome} {last : PassOutcome}
    (delivers : e.Delivers book (e.noted book q answers runner).1 report.finish report.events
      report.runner superseded last) :
    let report := e.goOn book q answers runner report
    e.Delivers book runner report.finish report.events report.runner
      (e.runPass book q answers :: superseded) last := by
  refine {
    ran := ?ran
    paced := ?paced
    terminal := delivers.terminal
    events := ?events
    counted := delivers.counted
    numbered := (e.numbered_noted book q answers runner).append delivers.numbered
    idle := delivers.idle
    passes := ?passes }
  case ran =>
    intro p member
    rcases List.mem_cons.mp member with rfl | later
    · exact ⟨q, answers, rfl⟩
    · exact delivers.ran p later
  case paced =>
    intro p member
    rcases List.mem_cons.mp member with rfl | later
    · exact e.paced_runPass book q answers
    · exact delivers.paced p later
  case events =>
    -- the pass that is superseded adds its notes, and nothing else
    show ((e.noted book q answers runner).2 ++ report.events).map Event.unnumbered = _
    rw [List.map_append, noted, unnumbered_notifyProgress, delivers.events, List.cons_append,
      List.flatMap_cons, List.append_assoc]
    rfl
  case passes =>
    have passes := delivers.passes
    rw [passes_noted] at passes
    rw [List.length_cons]
    exact passes.trans (by omega)

/-- Every run delivers, and one of its passes is superseded for each request that is handed over. -/
theorem exists_delivers {report : RunReport} (running : runner.state = .running)
    (result : e.serve book q answers runner = .ok report) : ∃ superseded last,
      e.Delivers book runner report.finish report.events report.runner superseded last ∧
      superseded.length = (restarts (answers.take report.polls)).length := by
  refine serve_induction (motive := fun q answers runner report => ∃ superseded last,
    e.Delivers book runner report.finish report.events report.runner superseded last ∧
      superseded.length = (restarts (answers.take report.polls)).length) ?_ ?_ running result
  · intro q answers runner finish _ terminal _ ends
    refine ⟨[], _, delivers_ended terminal, ?_⟩
    rw [show (e.ended book q answers runner finish).polls = (e.runPass book q answers).polls from rfl,
      restarts_runPass, ends]
    rfl
  · rintro q answers runner next report _ ends ⟨superseded, last, delivers, length⟩
    refine ⟨_, last, delivers.goOn, ?_⟩
    -- the answers of the first pass hand over one request, and the others those of the rest
    rw [show (e.goOn book q answers runner report).polls =
      (e.runPass book q answers).polls + report.polls from rfl, List.take_add, restarts_append,
      restarts_runPass, ends, List.length_append, List.length_cons, length, Nat.add_comm]
    rfl

end Engine

/-! ### Calls -/

/-- A call of a runner. -/
inductive Call where
  | transition (target : RunState)
  | execute (book : Workbook) (q : Request) (answers : List Checkpoint)
  | calculate (book : Workbook) (q : Request)

/-- A call that has been made: the runner before and after it, what it returned, the requests that
were handed over to it, and what it sent. -/
structure CallRecord where
  call : Call
  before : Runner
  reply : Except RunError (Option RunState)
  handed : List Request
  events : List Event
  after : Runner

namespace Engine

/-- Makes a call. A call that is refused leaves the runner as it was. -/
def record (e : Engine) (runner : Runner) (call : Call) : CallRecord :=
  match call with
  | .transition target =>
    match runner.transition target with
    | .ok after => ⟨call, runner, .ok none, [], [], after⟩
    | .error refusal => ⟨call, runner, .error refusal, [], [], runner⟩
  | .execute book q answers =>
    match e.execute book q answers runner with
    | .ok report => ⟨call, runner, .ok (some report.finish), restarts (answers.take report.polls),
        report.events, report.runner⟩
    | .error refusal => ⟨call, runner, .error refusal, [], [], runner⟩
  | .calculate book q =>
    match e.calculate book q runner with
    | .ok (events, after) => ⟨call, runner, .ok none, [], events, after⟩
    | .error refusal => ⟨call, runner, .error refusal, [], [], runner⟩

/-- Makes calls one after the other. -/
def history (e : Engine) (runner : Runner) : List Call → List CallRecord
  | [] => []
  | call :: rest => e.record runner call :: e.history (e.record runner call).after rest

end Engine

namespace CallRecord

/-- The call delivers what a run delivers, and ends in a state. -/
def Served (r : CallRecord) (e : Engine) (book : Workbook) (finish : RunState) : Prop :=
  ∃ superseded last, e.Delivers book r.before finish r.events r.after superseded last ∧
    superseded.length = r.handed.length

/-- The call is refused, and nothing has happened. -/
def Refused (r : CallRecord) : Prop :=
  r.reply = .error (.illegalTransition r.before.state .running) ∧ r.events = [] ∧ r.after = r.before

/-- What the protocol demands of a call. -/
def Conforms (r : CallRecord) (e : Engine) : Prop :=
  match r.call with
  | .transition _ =>
    r.events = [] ∧ r.after.stage = r.before.stage ∧ r.after.passes = r.before.passes
  | .execute book _ _ =>
    if r.before.state = .stopped ∨ r.before.state = .completed then r.Refused
    else ∃ finish, r.reply = .ok (some finish) ∧ r.Served e book finish
  | .calculate book _ =>
    if r.before.state = .stopped ∨ r.before.state = .completed then r.Refused
    else r.reply = .ok none ∧ r.handed = [] ∧ r.Served e book .completed

end CallRecord

namespace Engine

variable {e : Engine} {book : Workbook} {q : Request} {answers : List Checkpoint} {runner : Runner}

theorem mayBecome_running (state : RunState) :
    state.mayBecome .running = true ↔ ¬(state = .stopped ∨ state = .completed) := by
  cases state <;> decide

theorem execute_of_terminal (e : Engine) (book : Workbook) (q : Request) (answers : List Checkpoint)
    (terminal : runner.state = .stopped ∨ runner.state = .completed) :
    e.execute book q answers runner = .error (.illegalTransition runner.state .running) := by
  have refused : ¬runner.state.mayBecome .running = true := fun may =>
    (mayBecome_running _).mp may terminal
  rw [execute, Runner.transition, if_neg refused]
  rfl

theorem execute_of_ready (e : Engine) (book : Workbook) (q : Request) (answers : List Checkpoint)
    (ready : ¬(runner.state = .stopped ∨ runner.state = .completed)) :
    ∃ report, e.execute book q answers runner = .ok report ∧ ∃ superseded last,
      e.Delivers book runner report.finish report.events report.runner superseded last ∧
      superseded.length = (restarts (answers.take report.polls)).length := by
  let started : Runner := { runner with state := .running }
  obtain ⟨report, result⟩ :=
    e.exists_serve book q answers (show started.state = .running from rfl)
  obtain ⟨superseded, last, delivers, length⟩ :=
    exists_delivers (show started.state = .running from rfl) result
  refine ⟨report, ?_, superseded, last, ?_, length⟩
  · rw [e.execute_of_may book q answers ((mayBecome_running _).mpr ready)]
    exact result
  -- a run takes the numbers from its runner, and not its state
  · exact ⟨delivers.ran, delivers.paced, delivers.terminal, delivers.events, delivers.counted,
      delivers.numbered, delivers.idle, delivers.passes⟩

/-- A run that nothing interrupts completes. -/
theorem finish_of_calm {report : RunReport} (result : e.execute book q [] runner = .ok report) :
    report.finish = .completed := by
  cases may : runner.state.mayBecome .running with
  | false =>
    rw [execute, Runner.transition, may] at result
    cases result
  | true =>
    have ends : (e.runPass book q []).finish = .completed := by
      rw [runPass_of_calm (e.uninterrupted_nil book q).calm]
    obtain ⟨finish, terminal, stopped, served⟩ :=
      serve_of_last (show ({ runner with state := .running } : Runner).state = _ from rfl)
        (show (e.runPass book q []).finish.next? = none by rw [ends]; rfl)
    rw [e.execute_of_may book q [] may] at result
    obtain rfl := Except.ok.inj (served.symm.trans result)
    show finish = .completed
    cases finish with
    | idle => cases terminal
    | running => cases terminal
    | stopped =>
      have also := stopped.mp rfl
      rw [ends] at also
      cases also
    | completed => rfl

theorem conforms_record (e : Engine) (runner : Runner) (call : Call) :
    (e.record runner call).Conforms e := by
  cases call with
  | transition target =>
    cases may : runner.state.mayBecome target with
    | true => simp [record, CallRecord.Conforms, Runner.transition, may]
    | false => simp [record, CallRecord.Conforms, Runner.transition, may]
  | execute book q answers =>
    by_cases terminal : runner.state = .stopped ∨ runner.state = .completed
    · have refused := e.execute_of_terminal book q answers terminal
      simp only [record, refused, CallRecord.Conforms, CallRecord.Refused, if_pos terminal, and_self]
    · obtain ⟨report, result, served⟩ := e.execute_of_ready book q answers terminal
      simp only [record, result, CallRecord.Conforms, if_neg terminal]
      exact ⟨_, rfl, served⟩
  | calculate book q =>
    by_cases terminal : runner.state = .stopped ∨ runner.state = .completed
    · have refused : e.calculate book q runner = .error (.illegalTransition runner.state .running) := by
        rw [calculate, e.execute_of_terminal book q [] terminal]
        rfl
      simp only [record, refused, CallRecord.Conforms, CallRecord.Refused, if_pos terminal, and_self]
    · obtain ⟨report, result, superseded, last, delivers, length⟩ :=
        e.execute_of_ready book q [] terminal
      have served : e.calculate book q runner = .ok (report.events, report.runner) := by
        rw [calculate, result]
        rfl
      rw [finish_of_calm result] at delivers
      rw [List.take_nil] at length
      simp only [record, served, CallRecord.Conforms, if_neg terminal, true_and]
      exact ⟨superseded, last, delivers, length⟩

theorem before_record (e : Engine) (runner : Runner) (call : Call) :
    (e.record runner call).before = runner := by
  unfold record
  split <;> split <;> rfl

theorem numbered_record (e : Engine) (runner : Runner) (call : Call) :
    Numbered runner.stage (e.record runner call).events (e.record runner call).after.stage := by
  have conforms := e.conforms_record runner call
  have before := e.before_record runner call
  have refused : (e.record runner call).Refused →
      Numbered runner.stage (e.record runner call).events (e.record runner call).after.stage := by
    rintro ⟨-, silent, same⟩
    rw [silent, same, before]
    exact numbered_nil _
  have served : ∀ {book finish}, (e.record runner call).Served e book finish →
      Numbered runner.stage (e.record runner call).events (e.record runner call).after.stage := by
    rintro book finish ⟨superseded, last, delivers, -⟩
    have numbered := delivers.numbered
    rwa [before] at numbered
  unfold CallRecord.Conforms at conforms
  split at conforms
  · rw [conforms.1, conforms.2.1, before]
    exact numbered_nil _
  · split at conforms
    · exact refused conforms
    · obtain ⟨finish, -, delivers⟩ := conforms
      exact served delivers
  · split at conforms
    · exact refused conforms
    · exact served conforms.2.2

theorem numbered_history (e : Engine) (runner : Runner) (calls : List Call) :
    ∃ last, Numbered runner.stage ((e.history runner calls).flatMap CallRecord.events) last := by
  induction calls generalizing runner with
  | nil => exact ⟨_, numbered_nil _⟩
  | cons call rest ih =>
    obtain ⟨last, later⟩ := ih (e.record runner call).after
    exact ⟨last, (e.numbered_record runner call).append later⟩

theorem conforms_history (e : Engine) (runner : Runner) (calls : List Call) :
    ∀ r ∈ e.history runner calls, r.Conforms e := by
  induction calls generalizing runner with
  | nil => exact fun r member => absurd member List.not_mem_nil
  | cons call rest ih =>
    intro r member
    rcases List.mem_cons.mp member with rfl | later
    · exact e.conforms_record runner call
    · exact ih _ r later

/-- Whatever calls a runner gets, the numbers of all notifications are 1, 2, 3 and so on, and each
call conforms to the protocol. -/
theorem history_conforms (e : Engine) (calls : List Call) :
    let records := e.history .start calls
    let stages := (records.flatMap CallRecord.events).filterMap Event.stage?
    stages = List.range' 1 stages.length ∧ ∀ r ∈ records, r.Conforms e := by
  intro records stages
  obtain ⟨_, n, numbers, -⟩ := e.numbered_history .start calls
  have same : stages = List.range' 1 n := numbers
  refine ⟨?_, e.conforms_history .start calls⟩
  rw [same, List.length_range']

end Engine

end Recalc
