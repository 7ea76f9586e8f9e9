import Recalc.Proofs.Protocol
import Recalc.Proofs.Queue

/-!
# Commands of a worker

What a worker does is a chronicle of episodes, each of which accounts for the commands that it has
taken: a stop that is ignored, a run with all that was read at its checkpoints, or the end. However
the commands arrive, the chronicle has them in the order in which they were sent (`work_chronicle`).
-/
namespace Recalc

/-! ### Runs of a worker -/

namespace Engine

variable {e : Engine} {book : Workbook} {before : Runner} {q : Request}
  {read : List (Option Command)} {report : RunReport}

/-- A run of an idle runner that has asked for the commands that were read and for no others. -/
structure Runs (e : Engine) (book : Workbook) (before : Runner) (q : Request)
    (read : List (Option Command)) (report : RunReport) : Prop where
  idle : before.state = .idle
  result : e.execute book q (read.map Command.answer) before = .ok report
  polls : report.polls = read.length

theorem Runs.served (runs : e.Runs book before q read report) :
    e.serve book q (read.map Command.answer) { before with state := .running } = .ok report := by
  have may : before.state.mayBecome .running = true := by
    rw [runs.idle]
    rfl
  rw [← e.execute_of_may book q _ may]
  exact runs.result

theorem Runs.delivers (runs : e.Runs book before q read report) : ∃ superseded last,
    e.Delivers book before report.finish report.events report.runner superseded last ∧
      superseded.length = (restarts (read.map Command.answer)).length := by
  obtain ⟨superseded, last, delivers, length⟩ := exists_delivers rfl runs.served
  rw [runs.polls, ← List.length_map Command.answer, List.take_length] at length
  exact ⟨superseded, last, ⟨delivers.ran, delivers.paced, delivers.terminal, delivers.events,
    delivers.counted, delivers.numbered, delivers.idle, delivers.passes⟩, length⟩

/-- What a run delivers are the results of a pass of the request that it was begun with, merged with
all that were read at its checkpoints. -/
theorem Runs.results (runs : e.Runs book before q read report) : ∃ early rest,
    read = early ++ rest ∧ restarts (rest.map Command.answer) = [] ∧
      report.events.filterMap Event.results? =
        [(e.runPass book (q.mergeAll (restarts (read.map Command.answer)))
          (rest.map Command.answer)).results] := by
  obtain ⟨handled, left, served⟩ := exists_servedBy rfl runs.served
  -- the run has asked for all that was read, so what was handed over to it are all requests read
  have handed := served.handed
  rw [runs.polls, ← List.length_map Command.answer, List.take_length] at handed
  obtain ⟨early, rest, rfl, rfl, rfl⟩ := List.map_eq_append_iff.mp served.split
  refine ⟨early, rest, rfl, ?_, ?_⟩
  · rw [List.map_append, restarts_append] at handed
    exact List.append_cancel_left (handed.trans (List.append_nil _).symm)
  · rw [handed]
    exact served.results

theorem Runs.stops (runs : e.Runs book before q read report) :
    (∀ early last, read = early ++ [last] → ∀ x ∈ early, Command.answer x ≠ .stop) ∧
      (report.finish = .stopped ↔ ∃ x ∈ read, Command.answer x = .stop) := by
  obtain ⟨before, ends⟩ := stops_serve rfl runs.served
  have at_ : ∀ i (less : i < read.length), answerAt (read.map Command.answer) i =
      Command.answer read[i] := fun i less => by simp [answerAt, less]
  rw [runs.polls] at before ends
  refine ⟨?_, ends.trans ⟨?_, ?_⟩⟩
  · rintro early last rfl x member stop
    obtain ⟨i, less, rfl⟩ := List.getElem_of_mem member
    have inside : i + 1 < (early ++ [last]).length := by
      rw [List.length_append, List.length_singleton]
      exact Nat.succ_lt_succ less
    refine before i inside ?_
    rw [at_ i (Nat.lt_of_succ_lt inside), List.getElem_append_left less]
    exact stop
  · rintro ⟨i, less, stop⟩
    exact ⟨read[i], List.getElem_mem less, (at_ i less).symm.trans stop⟩
  · rintro ⟨x, member, stop⟩
    obtain ⟨i, less, rfl⟩ := List.getElem_of_mem member
    exact ⟨i, less, (at_ i less).trans stop⟩

/-- A run that has read some commands, as it looks from outside: notes of its passes, results, and the
note that it has ended. The requests read supersede passes and are merged; a stop or a shutdown ends
the run as stopped, and nothing is read after it. -/
structure Complete (e : Engine) (book : Workbook) (q : Request) (read : List (Option Command))
    (report : RunReport) : Prop where
  terminal : report.finish.isTerminal = true
  events : ∃ superseded last, report.events.map Event.unnumbered =
      (superseded ++ [last]).flatMap PassOutcome.notes ++
        [.results last.results, .notification ⟨report.finish, ⟨0, last.completed, last.total⟩⟩] ∧
    superseded.length = (restarts (read.map Command.answer)).length
  results : ∃ early rest, read = early ++ rest ∧ restarts (rest.map Command.answer) = [] ∧
    report.events.filterMap Event.results? =
      [(e.runPass book (q.mergeAll (restarts (read.map Command.answer)))
        (rest.map Command.answer)).results]
  stopped : report.finish = .stopped ↔ some .stop ∈ read ∨ some .shutdown ∈ read
  nothing_after : ∀ early last, read = early ++ [last] →
    some .stop ∉ early ∧ some .shutdown ∉ early

theorem answer_eq_stop {x : Option Command} :
    Command.answer x = .stop ↔ x = some .stop ∨ x = some .shutdown := by
  match x with
  | none => simp [Command.answer]
  | some (.start q) => simp [Command.answer]
  | some .stop => simp [Command.answer]
  | some .shutdown => simp [Command.answer]

theorem Runs.complete (runs : e.Runs book before q read report) : e.Complete book q read report := by
  obtain ⟨superseded, last, delivers, length⟩ := runs.delivers
  obtain ⟨early, stops⟩ := runs.stops
  refine {
    terminal := delivers.terminal
    events := ⟨superseded, last, delivers.events, length⟩
    results := runs.results
    stopped := stops.trans ⟨?stopped, ?stops⟩
    nothing_after := ?nothing_after }
  -- at a checkpoint a shutdown means what a stop means
  case stopped =>
    rintro ⟨x, member, stop⟩
    rcases answer_eq_stop.mp stop with rfl | rfl
    · exact .inl member
    · exact .inr member
  case stops =>
    rintro (stop | shut)
    · exact ⟨_, stop, rfl⟩
    · exact ⟨_, shut, rfl⟩
  case nothing_after =>
    intro first x split
    exact ⟨fun stop => early first x split _ stop rfl, fun shut => early first x split _ shut rfl⟩

/-- A shutdown is the last command that a run reads. -/
theorem Complete.exists_of_shutdown (complete : e.Complete book q read report)
    (shut : some .shutdown ∈ read) :
    ∃ early, read = early ++ [some .shutdown] ∧ some .shutdown ∉ early := by
  obtain ⟨early, last, rfl⟩ := (List.eq_nil_or_concat' read).resolve_left (List.ne_nil_of_mem shut)
  have before := (complete.nothing_after early last rfl).2
  obtain rfl := List.mem_singleton.mp ((List.mem_append.mp shut).resolve_left before)
  exact ⟨early, rfl, before⟩

theorem isTerminal_unnumbered (event : Event) : event.unnumbered.isTerminal = event.isTerminal := by
  cases event <;> rfl

theorem Complete.countP_isTerminal (complete : e.Complete book q read report) :
    report.events.countP Event.isTerminal = 1 := by
  obtain ⟨superseded, last, events, -⟩ := complete.events
  have notes : ((superseded ++ [last]).flatMap PassOutcome.notes).countP Event.isTerminal = 0 := by
    refine List.countP_eq_zero.mpr fun event member => ?_
    obtain ⟨p, -, note⟩ := List.mem_flatMap.mp member
    obtain ⟨completed, -, rfl⟩ := List.mem_map.mp note
    exact Bool.false_ne_true
  have ends := congrArg (List.countP Event.isTerminal) events
  rw [List.countP_map, List.countP_append, notes, Nat.zero_add] at ends
  rw [← funext isTerminal_unnumbered]
  refine ends.trans ?_
  simp [Event.isTerminal, complete.terminal]

end Engine

/-! ### Episodes -/

/-- What a worker does from one moment at which it is idle to the next: it ignores a stop, it serves
a request and reads commands at checkpoints, or it ends. -/
inductive Episode where
  | ignored
  | run (q : Request) (read : List (Option Command)) (report : RunReport)
  | ended

namespace Episode

/-- The commands that an episode takes, in turn. -/
def commands : Episode → List Command
  | ignored => [.stop]
  | run q read _ => .start q :: read.reduceOption
  | ended => [.shutdown]

def events : Episode → List Event
  | run _ _ report => report.events
  | ignored | ended => []

def isRun : Episode → Bool
  | run _ _ _ => true
  | ignored | ended => false

end Episode

/-- The episodes that follow one another, from one runner to the next, while commands arrive: one batch
before each look. Every look takes the first of all commands that wait. Idle looks begin the episodes,
and a run has read what the looks of its checkpoints find. A shutdown ends the last episode. -/
inductive Engine.Chronicle (e : Engine) (book : Workbook) :
    Runner → List Command → List (List Command) → List Episode → Runner → Bool → Prop where
  | nil (before : Runner) : Chronicle e book before [] [] [] before true
  | idle {before after : Runner} {arrivals : List (List Command)} {rest : List Episode} {alive : Bool} :
    Chronicle e book before [] arrivals rest after alive →
    Chronicle e book before [] ([] :: arrivals) rest after alive
  | ignored {before after : Runner} {waiting left : List Command} {arrivals : List (List Command)}
      {rest : List Episode} {alive : Bool} :
    waiting ++ arrivals.headD [] = .stop :: left →
    Chronicle e book before left arrivals.tail rest after alive →
    Chronicle e book before waiting arrivals (.ignored :: rest) after alive
  | ended {before : Runner} {waiting left : List Command} {arrivals : List (List Command)} :
    waiting ++ arrivals.headD [] = .shutdown :: left →
    Chronicle e book before waiting arrivals [.ended] before false
  | run {before after : Runner} {waiting left : List Command} {arrivals : List (List Command)}
      {q : Request} {report : RunReport} {rest : List Episode} {alive : Bool} :
    waiting ++ arrivals.headD [] = .start q :: left →
    e.Runs book before q (readings left arrivals.tail report.polls) report →
    some .shutdown ∉ readings left arrivals.tail report.polls →
    Chronicle e book report.runner (leftover left arrivals.tail report.polls)
      (arrivals.tail.drop report.polls) rest after alive →
    Chronicle e book before waiting arrivals
      (.run q (readings left arrivals.tail report.polls) report :: rest) after alive
  | cut {before : Runner} {waiting left : List Command} {arrivals : List (List Command)} {q : Request}
      {report : RunReport} :
    waiting ++ arrivals.headD [] = .start q :: left →
    e.Runs book before q (readings left arrivals.tail report.polls) report →
    some .shutdown ∈ readings left arrivals.tail report.polls →
    Chronicle e book before waiting arrivals
      [.run q (readings left arrivals.tail report.polls) report] report.runner false

namespace Engine.Chronicle

variable {e : Engine} {book : Workbook} {before after : Runner} {waiting : List Command}
  {arrivals : List (List Command)} {episodes : List Episode} {alive : Bool}

/-- Every command that arrives is taken in its turn, but for those after a shutdown. -/
theorem commands (chronicle : e.Chronicle book before waiting arrivals episodes after alive) :
    ∃ later, waiting ++ arrivals.flatten = episodes.flatMap Episode.commands ++ later ∧
      (alive = true → later = []) := by
  induction chronicle with
  | nil => exact ⟨[], rfl, fun _ => rfl⟩
  | idle _ ih => exact ih
  | ignored found _ ih =>
    obtain ⟨later, taken, all⟩ := ih
    refine ⟨later, ?_, all⟩
    rw [append_flatten, found]
    exact congrArg (Command.stop :: ·) taken
  | @ended _ _ left arrivals found =>
    refine ⟨left ++ arrivals.tail.flatten, ?_, nofun⟩
    rw [append_flatten, found]
    rfl
  | @run _ _ _ left arrivals q report _ _ found _ _ _ ih =>
    obtain ⟨later, taken, all⟩ := ih
    refine ⟨later, ?_, all⟩
    rw [append_flatten, found, List.cons_append,
      ← readings_append_leftover left arrivals.tail report.polls, taken, List.flatMap_cons,
      List.append_assoc]
    rfl
  | @cut _ _ left arrivals q report found _ _ =>
    refine ⟨leftover left arrivals.tail report.polls ++ (arrivals.tail.drop report.polls).flatten, ?_,
      nofun⟩
    rw [append_flatten, found, List.cons_append,
      ← readings_append_leftover left arrivals.tail report.polls, List.flatMap_singleton]
    rfl

/-- A chronicle takes one shutdown at most, and it ends with it. -/
theorem shutdown (chronicle : e.Chronicle book before waiting arrivals episodes after alive) :
    (alive = true → .shutdown ∉ episodes.flatMap Episode.commands) ∧
      (alive = false → ∃ early, episodes.flatMap Episode.commands = early ++ [.shutdown] ∧
        .shutdown ∉ early) := by
  induction chronicle with
  | nil => exact ⟨fun _ => List.not_mem_nil, nofun⟩
  | idle _ ih => exact ih
  | ignored _ _ ih =>
    refine ⟨fun alive member => ?_, fun dead => ?_⟩
    · rcases List.mem_cons.mp member with same | later
      · cases same
      · exact ih.1 alive later
    · obtain ⟨early, split, none⟩ := ih.2 dead
      exact ⟨.stop :: early, congrArg (Command.stop :: ·) split, by simp [none]⟩
  | ended => exact ⟨nofun, fun _ => ⟨[], rfl, List.not_mem_nil⟩⟩
  | @run _ _ _ left arrivals q report rest _ _ runs still _ ih =>
    have taken : Command.shutdown ∉
        Command.start q :: (readings left arrivals.tail report.polls).reduceOption := by
      simp [List.reduceOption_mem_iff, still]
    rw [List.flatMap_cons]
    refine ⟨fun alive member => ?_, fun dead => ?_⟩
    · exact (List.mem_append.mp member).elim taken (ih.1 alive)
    · obtain ⟨early, split, none⟩ := ih.2 dead
      refine ⟨.start q :: (readings left arrivals.tail report.polls).reduceOption ++ early, ?_, ?_⟩
      · rw [split, List.append_assoc]
        rfl
      · exact fun member => (List.mem_append.mp member).elim taken none
  | @cut _ _ _ _ q _ _ runs shut =>
    obtain ⟨read, same, still⟩ := runs.complete.exists_of_shutdown shut
    refine ⟨nofun, fun _ => ⟨.start q :: read.reduceOption, ?_, ?_⟩⟩
    · simp [Episode.commands, same, List.reduceOption_append]
    · simp [List.reduceOption_mem_iff, still]

theorem complete (chronicle : e.Chronicle book before waiting arrivals episodes after alive) {q : Request}
    {read : List (Option Command)} {report : RunReport}
    (member : .run q read report ∈ episodes) : e.Complete book q read report := by
  induction chronicle with
  | nil => cases member
  | idle _ ih => exact ih member
  | ignored _ _ ih =>
    rcases List.mem_cons.mp member with same | later
    · cases same
    · exact ih later
  | ended => cases List.mem_singleton.mp member
  | run _ runs _ _ ih =>
    rcases List.mem_cons.mp member with same | later
    · cases same
      exact runs.complete
    · exact ih later
  | cut _ runs =>
    cases List.mem_singleton.mp member
    exact runs.complete

theorem numbered (chronicle : e.Chronicle book before waiting arrivals episodes after alive) :
    Numbered before.stage (episodes.flatMap Episode.events) after.stage := by
  induction chronicle with
  | nil => exact numbered_nil _
  | idle _ ih => exact ih
  | ignored _ _ ih => exact ih
  | ended => exact numbered_nil _
  | run _ runs _ _ ih =>
    obtain ⟨_, _, delivers, -⟩ := runs.delivers
    exact delivers.numbered.append ih
  | cut _ runs =>
    obtain ⟨_, _, delivers, -⟩ := runs.delivers
    rw [List.flatMap_singleton]
    exact delivers.numbered

/-- Every run delivers results once and says once that it has ended. -/
theorem counts (chronicle : e.Chronicle book before waiting arrivals episodes after alive) :
    ((episodes.flatMap Episode.events).filterMap Event.results?).length =
        episodes.countP Episode.isRun ∧
      (episodes.flatMap Episode.events).countP Event.isTerminal = episodes.countP Episode.isRun := by
  -- each episode by itself first, since the chronicle of the others begins with another runner
  have each : ∀ episode ∈ episodes,
      (episode.events.filterMap Event.results?).length = [episode].countP Episode.isRun ∧
        episode.events.countP Event.isTerminal = [episode].countP Episode.isRun := by
    intro episode member
    cases episode with
    | ignored => exact ⟨rfl, rfl⟩
    | ended => exact ⟨rfl, rfl⟩
    | run q read report =>
      have complete := chronicle.complete member
      obtain ⟨_, _, -, -, results⟩ := complete.results
      exact ⟨congrArg List.length results, complete.countP_isTerminal⟩
  clear chronicle
  induction episodes with
  | nil => exact ⟨rfl, rfl⟩
  | cons episode rest ih =>
    obtain ⟨results, terminal⟩ := each episode List.mem_cons_self
    obtain ⟨more, others⟩ := ih fun other member => each other (List.mem_cons_of_mem _ member)
    rw [← List.singleton_append, List.countP_append, List.flatMap_append, List.filterMap_append,
      List.length_append, List.countP_append, List.flatMap_singleton, results, terminal, more, others]
    exact ⟨rfl, rfl⟩

end Engine.Chronicle

namespace Worker

variable {w : Worker} {book : Workbook}

/-- A run of a worker asks its queue for nothing after a shutdown. -/
theorem exists_report (w : Worker) (book : Workbook) (q : Request) (arrivals : List (List Command))
    (opened : w.queue.shutdown = false) (idle : w.runner.state = .idle) :
    ∃ report, w.run book q arrivals =
        ({ w with
            runner := report.runner
            queue := w.queue.after arrivals report.polls
            pending := w.pending ++ report.events }, report.polls) ∧
      w.engine.Runs book w.runner q (readings w.queue.waiting arrivals report.polls) report ∧
      ∀ j, j + 1 < report.polls → readingAt w.queue.waiting arrivals j ≠ some .shutdown := by
  have may : w.runner.state.mayBecome .running = true := by
    rw [idle]
    rfl
  let started : Runner := { w.runner with state := .running }
  have running : started.state = .running := rfl
  let answers := w.queue.answers arrivals (w.queue.looks arrivals)
  obtain ⟨report, result⟩ := w.engine.exists_serve book q answers running
  have stops := (Engine.stops_serve running result).1
  -- a shutdown is an answer to stop, after which the run asks for nothing
  have calm : ∀ j, j + 1 < report.polls → readingAt w.queue.waiting arrivals j ≠ some .shutdown := by
    intro j
    induction j using Nat.strongRecOn with
    | ind j ih =>
      intro less found
      have early : ∀ i < j, readingAt w.queue.waiting arrivals i ≠ some .shutdown := fun i before =>
        ih i before (by omega)
      refine stops j less ?_
      rw [CommandQueue.answerAt_answers_looks arrivals opened early, found]
      rfl
  -- so the run would go the same way if it were given what it reads instead of all answers
  have agree : ∀ i < report.polls, answerAt answers i =
      answerAt ((readings w.queue.waiting arrivals report.polls).map Command.answer) i := by
    intro i less
    rw [answerAt_readings less]
    exact CommandQueue.answerAt_answers_looks arrivals opened fun j before => calm j (by omega)
  refine ⟨report, ?_, ⟨idle, ?_, by simp [readings]⟩, calm⟩
  · rw [run, w.engine.execute_of_may book q _ may, result]
  · rw [w.engine.execute_of_may book q _ may]
    exact Engine.serve_congr running result agree

/-- What serving a request does to a worker: its looks find the first of the commands that wait, and
leave the others. The queue remembers a shutdown that has been read. -/
structure Reads (w : Worker) (book : Workbook) (q : Request) (arrivals : List (List Command))
    (served : Worker × Nat) (report : RunReport) : Prop where
  runs : w.engine.Runs book w.runner q (readings w.queue.waiting arrivals report.polls) report
  engine : served.1.engine = w.engine
  runner : served.1.runner = report.runner
  pending : served.1.pending = w.pending ++ report.events
  alive : served.1.alive = w.alive
  looks : served.2 = report.polls
  left : served.1.queue.waiting = leftover w.queue.waiting arrivals report.polls
  shutdown : served.1.queue.shutdown = true ↔
    some .shutdown ∈ readings w.queue.waiting arrivals report.polls

theorem exists_reads (w : Worker) (book : Workbook) (q : Request) (arrivals : List (List Command))
    (opened : w.queue.shutdown = false) (idle : w.runner.state = .idle) :
    ∃ report, w.Reads book q arrivals (w.run book q arrivals) report := by
  obtain ⟨report, ran, runs, calm⟩ := w.exists_report book q arrivals opened idle
  obtain ⟨left, closed⟩ := CommandQueue.waiting_after arrivals opened calm
  rw [ran]
  refine ⟨report, runs, rfl, rfl, rfl, rfl, rfl, left, closed.trans ⟨?_, fun found => ?_⟩⟩
  · rintro ⟨j, last, found⟩
    exact mem_readings.mpr ⟨j, by omega, found⟩
  -- a shutdown is the last reading, and then the queue remembers it
  · obtain ⟨j, less, found⟩ := mem_readings.mp found
    rcases Nat.lt_or_ge (j + 1) report.polls with before | late
    · exact absurd found (calm j before)
    · exact ⟨j, by omega, found⟩

/-! ### Chronicles -/

/-- What a worker does is a chronicle of the commands that wait and that arrive. -/
theorem exists_chronicle (w : Worker) (book : Workbook) (arrivals : List (List Command))
    (alive : w.alive = true) (opened : w.queue.shutdown = false) (idle : w.runner.state = .idle) :
    ∃ episodes, w.engine.Chronicle book w.runner w.queue.waiting arrivals episodes
        (w.work book arrivals).runner (w.work book arrivals).alive ∧
      (w.work book arrivals).pending = w.pending ++ episodes.flatMap Episode.events := by
  fun_induction work w book arrivals with
  -- nothing waits and nothing more arrives
  | case1 w arrivals none empty =>
    have drained := CommandQueue.waiting_of_take?_none none
    obtain rfl := List.isEmpty_iff.mp empty
    rw [CommandQueue.waiting_send] at drained
    rw [List.append_eq_nil_iff.mp drained |>.1, alive]
    exact ⟨[], .nil _, (List.append_nil _).symm⟩
  -- a batch arrives and has no command in it
  | case2 w arrivals none some ih =>
    have drained := CommandQueue.waiting_of_take?_none none
    obtain ⟨episodes, chronicle, pending⟩ := ih alive opened idle
    obtain ⟨batch, later, rfl⟩ := List.exists_cons_of_ne_nil (mt List.isEmpty_iff.mpr some)
    rw [drained] at chronicle
    rw [CommandQueue.waiting_send] at drained
    obtain ⟨waiting, rfl⟩ := List.append_eq_nil_iff.mp drained
    rw [waiting]
    exact ⟨episodes, .idle chronicle, pending⟩
  -- a stop while the worker is idle
  | case3 w arrivals queue taken ih =>
    have found := CommandQueue.waiting_of_take? taken
    rw [CommandQueue.waiting_send] at found
    obtain ⟨episodes, chronicle, pending⟩ :=
      ih alive ((CommandQueue.shutdown_of_take? taken).trans opened) idle
    exact ⟨.ignored :: episodes, .ignored found chronicle, pending⟩
  -- a shutdown while the worker is idle
  | case4 w arrivals queue taken =>
    have found := CommandQueue.waiting_of_take? taken
    rw [CommandQueue.waiting_send] at found
    exact ⟨[.ended], .ended found, (List.append_nil _).symm⟩
  -- a run that has read a shutdown, with which the chronicle ends
  | case5 w arrivals q queue taken served shut =>
    have found := CommandQueue.waiting_of_take? taken
    rw [CommandQueue.waiting_send] at found
    obtain ⟨report, reads⟩ := ({ w with queue } : Worker).exists_reads book q arrivals.tail
      ((CommandQueue.shutdown_of_take? taken).trans opened) idle
    have cut := Engine.Chronicle.cut found reads.runs (reads.shutdown.mp shut)
    rw [← reads.runner] at cut
    refine ⟨_, cut, ?_⟩
    rw [List.flatMap_singleton]
    exact reads.pending
  -- a run after which the worker goes on with what is left of the commands
  | case6 w arrivals q queue taken served still ih =>
    have found := CommandQueue.waiting_of_take? taken
    rw [CommandQueue.waiting_send] at found
    obtain ⟨report, reads⟩ := ({ w with queue } : Worker).exists_reads book q arrivals.tail
      ((CommandQueue.shutdown_of_take? taken).trans opened) idle
    obtain ⟨_, _, delivers, -⟩ := reads.runs.delivers
    obtain ⟨episodes, chronicle, pending⟩ := ih (reads.alive.trans alive)
      (Bool.eq_false_iff.mpr still) ((congrArg Runner.state reads.runner).trans delivers.idle)
    have looks : served.2 = report.polls := reads.looks
    rw [reads.engine, reads.runner, reads.left] at chronicle
    rw [looks] at chronicle pending ⊢
    refine ⟨_, .run found reads.runs (mt reads.shutdown.mpr still) chronicle, ?_⟩
    rw [pending, reads.pending, List.flatMap_cons, List.append_assoc]
    rfl

/-- However the commands sent to a worker arrive, it takes them in their order, each once, up to the
first shutdown, and what it does is a chronicle of them. It ignores a stop that it takes while it is
idle, and it serves every request that it takes then with a run that is complete and that reads, look by
look, what has arrived by then. All events are those of its runs, and the numbers of their notifications
are 1, 2, 3 and so on. -/
theorem work_chronicle (e : Engine) (book : Workbook) (arrivals : List (List Command)) :
    let w := (spawn e).work book arrivals
    let stages := w.pending.filterMap Event.stage?
    ∃ episodes later,
      (e.Chronicle book .start [] arrivals episodes w.runner w.alive ∧
        ∀ q read report, .run q read report ∈ episodes → e.Complete book q read report) ∧
      (arrivals.flatten = episodes.flatMap Episode.commands ++ later ∧
        (w.alive = true → later = [] ∧ .shutdown ∉ arrivals.flatten) ∧
        (w.alive = false → ∃ early, episodes.flatMap Episode.commands = early ++ [.shutdown] ∧
          .shutdown ∉ early)) ∧
      w.pending = episodes.flatMap Episode.events ∧
      stages = List.range' 1 stages.length ∧
      (w.pending.filterMap Event.results?).length = episodes.countP Episode.isRun ∧
      w.pending.countP Event.isTerminal = episodes.countP Episode.isRun := by
  intro w stages
  obtain ⟨episodes, chronicle, pending⟩ := (spawn e).exists_chronicle book arrivals rfl rfl rfl
  have events : w.pending = episodes.flatMap Episode.events := pending
  obtain ⟨later, taken, all⟩ := chronicle.commands
  have sent : arrivals.flatten = episodes.flatMap Episode.commands ++ later := taken
  obtain ⟨open_, closed⟩ := chronicle.shutdown
  obtain ⟨n, numbers, -⟩ := chronicle.numbered
  have same : stages = List.range' 1 n := by
    rw [← events] at numbers
    exact numbers
  refine ⟨episodes, later, ⟨chronicle, fun q read report => chronicle.complete⟩,
    ⟨sent, fun alive => ⟨all alive, fun shut => ?_⟩, closed⟩, events, ?_, ?_⟩
  · rw [sent, all alive, List.append_nil] at shut
    exact open_ alive shut
  · rw [same, List.length_range']
  · rw [events]
    exact chronicle.counts

end Worker

end Recalc
