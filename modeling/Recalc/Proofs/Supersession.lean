import Recalc.Calculation.Run
import Recalc.Proofs.Interruption
import Recalc.Proofs.Merging

/-!
# Superseded passes

A pass that a newer request supersedes delivers nothing. The run goes on with a pass of the merged
request over the remaining answers, and what the run delivers are the results of its last pass
(`serve_last`).
-/
namespace Recalc

/-! ### Handing over -/

/-- The request that an answer hands over. -/
def Checkpoint.restart? : Checkpoint → Option Request
  | .restart q => some q
  | _ => none

/-- The requests that answers hand over, in turn. -/
def restarts (answers : List Checkpoint) : List Request :=
  answers.filterMap Checkpoint.restart?

/-- The request that supersedes a pass. -/
def PassEnd.next? : PassEnd → Option Request
  | .superseded next => some next
  | _ => none

theorem PassEnd.eq_superseded {finish : PassEnd} {next : Request}
    (found : finish.next? = some next) : finish = .superseded next := by
  cases finish with
  | superseded other => exact congrArg PassEnd.superseded (Option.some.inj found)
  | completed => cases found
  | stopped => cases found

def Event.results? : Event → Option Results
  | .results r => some r
  | .notification _ => none

theorem restarts_append (answers more : List Checkpoint) :
    restarts (answers ++ more) = restarts answers ++ restarts more :=
  List.filterMap_append

theorem restarts_of_go {answers : List Checkpoint} (go : ∀ x ∈ answers, x = .go) :
    restarts answers = [] :=
  List.filterMap_eq_nil_iff.mpr fun x listed => by
    rw [go x listed]
    rfl

theorem restarts_of_interruption {answers : List Checkpoint} {polls k : Nat} {finish : PassEnd}
    (found : interruption? answers polls = some (k, finish)) :
    restarts (answers.take (k + 1)) = finish.next?.toList := by
  obtain ⟨-, x, split, ends⟩ := interruption?_some found
  rw [split, restarts_append, restarts_of_go fun y => List.eq_of_mem_replicate, List.nil_append]
  cases x with
  | go => cases ends
  | stop =>
    cases ends
    rfl
  | restart next =>
    cases ends
    rfl

theorem interruption?_superseded {answers : List Checkpoint} {polls k : Nat} {next : Request}
    (found : interruption? answers polls = some (k, .superseded next)) :
    ∃ early, answers.take (k + 1) = early ++ [.restart next] := by
  obtain ⟨-, x, split, ends⟩ := interruption?_some found
  cases x with
  | go => cases ends
  | stop => cases ends
  | restart other =>
    cases ends
    exact ⟨_, split⟩

theorem Runner.transition_running {r : Runner} (running : r.state = .running) :
    r.transition .running = .ok r := by
  obtain ⟨state, stage, passes⟩ := r
  cases running
  rfl

namespace Engine

variable {e : Engine} {book : Workbook} {q next : Request} {answers : List Checkpoint}
  {runner : Runner}

/-- A pass meets at most one request, which then supersedes it. -/
theorem restarts_runPass (e : Engine) (book : Workbook) (q : Request) (answers : List Checkpoint) :
    restarts (answers.take (e.runPass book q answers).polls) =
      (e.runPass book q answers).finish.next?.toList := by
  cases found : interruption? answers (e.steps book q).length with
  | none =>
    rw [runPass_of_calm found]
    exact restarts_of_go (interruption?_none found)
  | some stop =>
    rw [runPass_of_interruption found]
    exact restarts_of_interruption found

theorem exists_early_of_superseded
    (superseded : (e.runPass book q answers).finish = .superseded next) :
    (e.runPass book q answers).polls ≤ answers.length ∧
      ∃ early, answers.take (e.runPass book q answers).polls = early ++ [.restart next] := by
  cases found : interruption? answers (e.steps book q).length with
  | none =>
    rw [runPass_of_calm found] at superseded
    cases superseded
  | some stop =>
    obtain ⟨k, finish⟩ := stop
    rw [runPass_of_interruption found] at superseded ⊢
    cases superseded
    exact ⟨interruption?_lt_length found, interruption?_superseded found⟩

/-! ### One pass of a run -/

/-- The runner and the notes after one pass. -/
def noted (e : Engine) (book : Workbook) (q : Request) (answers : List Checkpoint) (runner : Runner) :
    Runner × List Event :=
  ({ runner with passes := runner.passes + 1 } : Runner).notifyProgress
    (e.runPass book q answers).total (e.runPass book q answers).progress

theorem passes_notifyProgress (r : Runner) (total : Nat) (progress : List Nat) :
    (r.notifyProgress total progress).1.passes = r.passes := by
  induction progress generalizing r with
  | nil => rfl
  | cons completed rest ih => exact ih (r.notify .running completed total).1

theorem state_notifyProgress (r : Runner) (total : Nat) (progress : List Nat) :
    (r.notifyProgress total progress).1.state = r.state := by
  induction progress generalizing r with
  | nil => rfl
  | cons completed rest ih => exact ih (r.notify .running completed total).1

theorem results_notifyProgress (r : Runner) (total : Nat) (progress : List Nat) :
    (r.notifyProgress total progress).2.filterMap Event.results? = [] := by
  induction progress generalizing r with
  | nil => rfl
  | cons completed rest ih => exact ih (r.notify .running completed total).1

theorem passes_noted (e : Engine) (book : Workbook) (q : Request) (answers : List Checkpoint)
    (runner : Runner) : (e.noted book q answers runner).1.passes = runner.passes + 1 :=
  passes_notifyProgress _ _ _

theorem state_noted (e : Engine) (book : Workbook) (q : Request) (answers : List Checkpoint)
    (runner : Runner) : (e.noted book q answers runner).1.state = runner.state :=
  state_notifyProgress _ _ _

/-- The report of a run that goes on after a pass. -/
def goOn (e : Engine) (book : Workbook) (q : Request) (answers : List Checkpoint) (runner : Runner)
    (report : RunReport) : RunReport :=
  { report with
    events := (e.noted book q answers runner).2 ++ report.events
    polls := (e.runPass book q answers).polls + report.polls }

/-- The report of a run that ends with a pass. -/
def ended (e : Engine) (book : Workbook) (q : Request) (answers : List Checkpoint) (runner : Runner)
    (finish : RunState) : RunReport :=
  let outcome := e.runPass book q answers
  let (noted, notes) := e.noted book q answers runner
  let (noted, last) := noted.notify finish outcome.completed outcome.total
  ⟨finish, { noted with state := .idle }, notes ++ [.results outcome.results, last], outcome.polls⟩

section Running

variable (running : runner.state = .running)
include running

/-- A runner that is running may go on running. -/
theorem serve_of_superseded (superseded : (e.runPass book q answers).finish = .superseded next) :
    e.serve book q answers runner =
      (e.serve book (next.absorb q) (answers.drop (e.runPass book q answers).polls)
        (e.noted book q answers runner).1).map (e.goOn book q answers runner) := by
  have kept := Runner.transition_running ((e.state_noted book q answers runner).trans running)
  rw [serve]
  simp only
  split
  next other found =>
    rw [superseded] at found
    cases found
    show ((e.noted book q answers runner).1.transition .running >>= _) = _
    rw [kept]
    rfl
  next found =>
    rw [superseded] at found
    cases found
  next found =>
    rw [superseded] at found
    cases found

/-- A runner that is running may end in a terminal state, and then become idle. -/
theorem serve_of_last (last : (e.runPass book q answers).finish.next? = none) :
    ∃ finish, finish.isTerminal = true ∧
      (finish = .stopped ↔ (e.runPass book q answers).finish = .stopped) ∧
      e.serve book q answers runner = .ok (e.ended book q answers runner finish) := by
  have same := (e.state_noted book q answers runner).trans running
  have delivered : ∀ finish : RunState, finish.isTerminal = true →
      serve.deliver finish (e.runPass book q answers) (e.noted book q answers runner).1
        (e.noted book q answers runner).2 = .ok (e.ended book q answers runner finish) := by
    intro finish terminal
    rw [serve.deliver, Runner.transition, same]
    cases finish with
    | idle => cases terminal
    | running => cases terminal
    | stopped => rfl
    | completed => rfl
  rw [serve]
  simp only
  split
  next other found =>
    rw [found] at last
    cases last
  next found => exact ⟨.completed, rfl, by simp [found], delivered .completed rfl⟩
  next found => exact ⟨.stopped, rfl, by simp [found], delivered .stopped rfl⟩

end Running

/-- A runner that is running serves every request. -/
theorem exists_serve (e : Engine) (book : Workbook) (q : Request) (answers : List Checkpoint)
    (running : runner.state = .running) : ∃ report, e.serve book q answers runner = .ok report := by
  -- each superseded pass uses up an answer
  induction size : answers.length using Nat.strongRecOn generalizing q answers runner with
  | ind n ih =>
    cases found : (e.runPass book q answers).finish.next? with
    | some next =>
      have ends := PassEnd.eq_superseded found
      have pos := polls_pos_of_superseded ends
      obtain ⟨report, result⟩ := ih _ (by rw [← size, List.length_drop]; omega) (next.absorb q)
        (answers.drop (e.runPass book q answers).polls)
        ((e.state_noted book q answers runner).trans running) rfl
      rw [serve_of_superseded running ends, result]
      exact ⟨_, rfl⟩
    | none =>
      obtain ⟨finish, -, -, result⟩ := serve_of_last running found
      exact ⟨_, result⟩

/-- What holds of a run that ends with its first pass, and of a run that goes on if it holds of the
rest, holds of every run. -/
theorem serve_induction {motive : Request → List Checkpoint → Runner → RunReport → Prop}
    (last : ∀ {q answers runner finish}, runner.state = .running → finish.isTerminal = true →
      (finish = .stopped ↔ (e.runPass book q answers).finish = .stopped) →
      (e.runPass book q answers).finish.next? = none →
      motive q answers runner (e.ended book q answers runner finish))
    (superseded : ∀ {q answers runner next report}, runner.state = .running →
      (e.runPass book q answers).finish = .superseded next →
      motive (next.absorb q) (answers.drop (e.runPass book q answers).polls)
        (e.noted book q answers runner).1 report →
      motive q answers runner (e.goOn book q answers runner report))
    {report : RunReport} (running : runner.state = .running)
    (result : e.serve book q answers runner = .ok report) : motive q answers runner report := by
  induction size : answers.length using Nat.strongRecOn generalizing q answers runner report with
  | ind n ih =>
    cases found : (e.runPass book q answers).finish.next? with
    | some next =>
      have ends := PassEnd.eq_superseded found
      have pos := polls_pos_of_superseded ends
      have running' := (e.state_noted book q answers runner).trans running
      obtain ⟨rest, served⟩ := e.exists_serve book (next.absorb q)
        (answers.drop (e.runPass book q answers).polls) running'
      rw [serve_of_superseded running ends, served] at result
      obtain rfl := Except.ok.inj result
      exact superseded running ends
        (ih _ (by rw [← size, List.length_drop]; omega) running' served rfl)
    | none =>
      obtain ⟨finish, terminal, stopped, served⟩ := serve_of_last running found
      obtain rfl := Except.ok.inj (served.symm.trans result)
      exact last running terminal stopped found

/-! ### Whole runs -/

/-- How a run goes: the answers up to the last request that is handed over belong to passes that are
superseded, and one more pass of what the requests amount to ends the run. -/
structure ServedBy (e : Engine) (book : Workbook) (q : Request) (answers : List Checkpoint)
    (runner : Runner) (report : RunReport) (before rest : List Checkpoint) : Prop where
  split : answers = before ++ rest
  boundary : before = [] ∨ ∃ early next, before = early ++ [.restart next]
  last : (e.runPass book (q.mergeAll (restarts before)) rest).finish.next? = none
  polls : report.polls =
    before.length + (e.runPass book (q.mergeAll (restarts before)) rest).polls
  results : report.events.filterMap Event.results? =
    [(e.runPass book (q.mergeAll (restarts before)) rest).results]
  passes : report.runner.passes = runner.passes + (restarts before).length + 1

theorem servedBy_of_last (last : (e.runPass book q answers).finish.next? = none) (finish : RunState) :
    e.ServedBy book q answers runner (e.ended book q answers runner finish) [] answers := by
  refine ⟨rfl, .inl rfl, last, (Nat.zero_add _).symm, ?_, ?_⟩
  · simp only [ended, List.filterMap_append, noted, results_notifyProgress]
    rfl
  · exact e.passes_noted book q answers runner

theorem servedBy_of_superseded (superseded : (e.runPass book q answers).finish = .superseded next)
    {report : RunReport} {before rest : List Checkpoint}
    (served : e.ServedBy book (next.absorb q) (answers.drop (e.runPass book q answers).polls)
      (e.noted book q answers runner).1 report before rest) :
    e.ServedBy book q answers runner (e.goOn book q answers runner report)
      (answers.take (e.runPass book q answers).polls ++ before) rest := by
  obtain ⟨bounded, early, asked⟩ := exists_early_of_superseded superseded
  -- the answers up to the first handover, then those of the run that goes on from there
  have first := e.restarts_runPass book q answers
  rw [superseded] at first
  have handed : restarts (answers.take (e.runPass book q answers).polls ++ before) =
      next :: restarts before := by
    rw [restarts_append, first]
    rfl
  have merged : q.mergeAll (next :: restarts before) = (next.absorb q).mergeAll (restarts before) :=
    rfl
  refine ⟨?_, .inr ?_, ?_, ?_, ?_, ?_⟩
  · rw [List.append_assoc, ← served.split, List.take_append_drop]
  · rcases served.boundary with rfl | ⟨more, final, rfl⟩
    · exact ⟨early, next, by rw [List.append_nil, asked]⟩
    · exact ⟨_, final, (List.append_assoc _ _ _).symm⟩
  · rw [handed, merged]
    exact served.last
  · rw [handed, merged, List.length_append, List.length_take_of_le bounded]
    simp only [goOn, served.polls, Nat.add_assoc]
  · rw [handed, merged]
    simp only [goOn, List.filterMap_append, noted, results_notifyProgress, List.nil_append]
    exact served.results
  · have passes := served.passes
    rw [passes_noted] at passes
    rw [handed, List.length_cons]
    exact passes.trans (by omega)

/-- Every run goes that way. -/
theorem exists_servedBy {report : RunReport} (running : runner.state = .running)
    (result : e.serve book q answers runner = .ok report) :
    ∃ before rest, e.ServedBy book q answers runner report before rest := by
  refine serve_induction (motive := fun q answers runner report =>
    ∃ before rest, e.ServedBy book q answers runner report before rest) ?_ ?_ running result
  · intro q answers runner finish _ _ _ last
    exact ⟨[], answers, servedBy_of_last last finish⟩
  · rintro q answers runner next report _ superseded ⟨before, rest, served⟩
    exact ⟨_, rest, servedBy_of_superseded superseded served⟩

/-- A runner that may run serves a request as a running one. -/
theorem execute_of_may (e : Engine) (book : Workbook) (q : Request) (answers : List Checkpoint)
    (may : runner.state.mayBecome .running = true) :
    e.execute book q answers runner = e.serve book q answers { runner with state := .running } := by
  rw [execute, Runner.transition, if_pos may]
  rfl

theorem ServedBy.handed {report : RunReport} {before rest : List Checkpoint}
    (served : e.ServedBy book q answers runner report before rest) :
    restarts (answers.take report.polls) = restarts before := by
  rw [served.polls, served.split, List.take_length_add_append, restarts_append, restarts_runPass,
    served.last]
  exact List.append_nil _

/-- A run that requests keep superseding ends with a pass from scratch of what they amount to, under
the answers that are left; it delivers the results of that pass and no others. No mark is lost on
the way. -/
theorem execute_superseded (e : Engine) (book : Workbook) (q : Request) (answers : List Checkpoint)
    (may : runner.state.mayBecome .running = true) :
    ∃ report, e.execute book q answers runner = .ok report ∧
      let handed := restarts (answers.take report.polls)
      let merged := q.mergeAll handed
      (∃ before rest, answers = before ++ rest ∧ restarts before = handed ∧
        (before = [] ∨ ∃ early next, before = early ++ [.restart next]) ∧
        (∀ next, (e.runPass book merged rest).finish ≠ .superseded next) ∧
        report.polls = before.length + (e.runPass book merged rest).polls ∧
        report.events.filterMap Event.results? = [(e.runPass book merged rest).results] ∧
        report.runner.passes = runner.passes + handed.length + 1) ∧
      (merged.forced = true ↔ ∃ s ∈ q :: handed, s.forced = true) ∧
      merged.options = ((q :: handed).getLast (List.cons_ne_nil q handed)).options ∧
      (∀ u, u ∈ merged.homeUnits ↔ ∃ s ∈ q :: handed, u ∈ s.homeUnits) ∧
      (∀ sheet, merged.newName? sheet = (q :: handed).reverse.findSome? fun s => s.newName? sheet) ∧
      (Request.Consistent (q :: handed) → ∀ (g : DependencyGraph) volatiles v,
        v ∈ (merged.marks volatiles).seeds g ↔
          ∃ s ∈ q :: handed, v ∈ (s.marks volatiles).seeds g) := by
  -- `execute` only adds that the runner may start
  let started : Runner := { runner with state := .running }
  obtain ⟨report, result⟩ :=
    e.exists_serve book q answers (show started.state = .running from rfl)
  obtain ⟨before, rest, served⟩ := exists_servedBy (show started.state = .running from rfl) result
  refine ⟨report, ?_, ?_⟩
  · rw [e.execute_of_may book q answers may]
    exact result
  intro handed merged
  have same : handed = restarts before := served.handed
  refine ⟨⟨before, rest, served.split, same.symm, served.boundary, ?_, ?_, ?_, ?_⟩,
    Request.forced_mergeAll, q.options_mergeAll handed, fun u => Request.mem_homeUnits_mergeAll,
    q.newName?_mergeAll handed, fun consistent => Request.mem_seeds_mergeAll consistent⟩
  · intro next superseded
    have last := served.last
    rw [← same, superseded] at last
    cases last
  -- what was handed over is read off the answers that the run has asked for
  · rw [served.polls, ← same]
  · rw [served.results, ← same]
  · rw [served.passes, ← same]

/-- A request for everything that another one supersedes is still served. -/
theorem superseded_stays_forced :
    ∃ report, execute ⟨⟨true, 4, 256, 100, true, 0, 0⟩, .standard⟩
        (Workbook.empty.setFormula ⟨"u", "s", 0, 0⟩ ⟨.literal (.boolean true), []⟩) .full
        [.restart .empty] .start = .ok report ∧
      (Request.full.mergeAll (restarts ([.restart .empty].take report.polls))).forced = true := by
  have may : Runner.start.state.mayBecome .running = true := rfl
  obtain ⟨report, served, -, forced, -⟩ := execute_superseded _ _ .full [.restart .empty] may
  exact ⟨report, served, forced.mpr ⟨.full, List.mem_cons_self, rfl⟩⟩

end Engine

end Recalc
