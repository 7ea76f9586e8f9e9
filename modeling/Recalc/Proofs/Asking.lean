import Recalc.Proofs.Supersession

/-!
# What a run asks for

A run depends on the answers at the checkpoints that it meets, and on no other answers
(`serve_congr`). It meets none after an answer to stop, and such an answer is the only way in which
it ends as stopped (`stops_serve`).
-/
namespace Recalc

/-! ### Answers -/

/-- Where no answer is listed, the answer is to go on. -/
def answerAt (answers : List Checkpoint) (i : Nat) : Checkpoint :=
  answers.getD i .go

theorem answerAt_drop (answers : List Checkpoint) (n i : Nat) :
    answerAt (answers.drop n) i = answerAt answers (n + i) := by
  simp [answerAt, List.getD_eq_getElem?_getD]

/-- How many answers a pass asks for that meets `polls` checkpoints if it goes on. -/
def asked (answers : List Checkpoint) (polls : Nat) : Nat :=
  match interruption? answers polls with
  | some (k, _) => k + 1
  | none => polls

theorem interruption?_succ (answers : List Checkpoint) (polls : Nat) :
    interruption? answers (polls + 1) =
      match answerAt answers 0 with
      | .go => (interruption? (answers.drop 1) polls).map fun (k, finish) => (k + 1, finish)
      | .stop => some (0, .stopped)
      | .restart q => some (0, .superseded q) := by
  cases answers with
  | nil =>
    have calm : ∀ n, interruption? [] n = none := fun n => by cases n <;> rfl
    simp [answerAt, calm]
  | cons x rest => cases x <;> rfl

theorem asked_succ (answers : List Checkpoint) (polls : Nat) :
    asked answers (polls + 1) =
      match answerAt answers 0 with
      | .go => asked (answers.drop 1) polls + 1
      | _ => 1 := by
  unfold asked
  rw [interruption?_succ]
  cases answerAt answers 0 with
  | stop => rfl
  | restart q => rfl
  | go => cases interruption? (answers.drop 1) polls <;> rfl

theorem interruption?_congr {answers others : List Checkpoint} {polls : Nat}
    (agree : ∀ i < asked answers polls, answerAt answers i = answerAt others i) :
    interruption? others polls = interruption? answers polls := by
  induction polls generalizing answers others with
  | zero =>
    have calm : ∀ answers, interruption? answers 0 = none := fun answers => by cases answers <;> rfl
    rw [calm, calm]
  | succ polls ih =>
    rw [asked_succ] at agree
    rw [interruption?_succ, interruption?_succ]
    have first : answerAt answers 0 = answerAt others 0 := by
      refine agree 0 ?_
      split
      · exact Nat.succ_pos _
      · exact Nat.one_pos
    rw [← first]
    cases found : answerAt answers 0 with
    | stop => rfl
    | restart q => rfl
    | go =>
      rw [found] at agree
      have rest : interruption? (others.drop 1) polls = interruption? (answers.drop 1) polls :=
        ih fun i less => by
          rw [answerAt_drop, answerAt_drop, Nat.add_comm]
          exact agree (i + 1) (Nat.succ_lt_succ less)
      simp only [rest]

/-- A pass that is interrupted has been told to go on before, and one that is not interrupted has
always been told so. -/
theorem answerAt_of_interruption? (answers : List Checkpoint) (polls : Nat) :
    match interruption? answers polls with
    | some (k, finish) =>
      (∀ i < k, answerAt answers i = .go) ∧ (answerAt answers k).finish? = some finish
    | none => ∀ i < polls, answerAt answers i = .go := by
  induction polls generalizing answers with
  | zero => cases answers <;> exact fun i less => absurd less (Nat.not_lt_zero i)
  | succ polls ih =>
    rw [interruption?_succ]
    cases found : answerAt answers 0 with
    | stop => exact ⟨fun i less => absurd less (Nat.not_lt_zero i), congrArg Checkpoint.finish? found⟩
    | restart q => exact ⟨fun i less => absurd less (Nat.not_lt_zero i), congrArg Checkpoint.finish? found⟩
    | go =>
      have rest := ih (answers.drop 1)
      cases later : interruption? (answers.drop 1) polls with
      | none =>
        rw [later] at rest
        intro i less
        cases i with
        | zero => exact found
        | succ i =>
          have go := rest i (Nat.lt_of_succ_lt_succ less)
          rwa [answerAt_drop, Nat.add_comm] at go
      | some stop =>
        obtain ⟨k, finish⟩ := stop
        rw [later] at rest
        refine ⟨fun i less => ?_, ?_⟩
        · cases i with
          | zero => exact found
          | succ i =>
            have go := rest.1 i (Nat.lt_of_succ_lt_succ less)
            rwa [answerAt_drop, Nat.add_comm] at go
        · have ends := rest.2
          rwa [answerAt_drop, Nat.add_comm] at ends

namespace Engine

variable {e : Engine} {book : Workbook} {q : Request} {answers others : List Checkpoint}
  {runner : Runner}

/-! ### Passes -/

theorem polls_runPass (e : Engine) (book : Workbook) (q : Request) (answers : List Checkpoint) :
    (e.runPass book q answers).polls = asked answers (e.steps book q).length := by
  cases found : interruption? answers (e.steps book q).length with
  | none => simp only [runPass_of_calm found, asked, found]
  | some stop => simp only [runPass_of_interruption found, asked, found]

theorem runPass_congr
    (agree : ∀ i < (e.runPass book q answers).polls, answerAt answers i = answerAt others i) :
    e.runPass book q others = e.runPass book q answers := by
  rw [polls_runPass] at agree
  have same := interruption?_congr agree
  cases found : interruption? answers (e.steps book q).length with
  | none => rw [runPass_of_calm found, runPass_of_calm (same.trans found)]
  | some stop => rw [runPass_of_interruption found, runPass_of_interruption (same.trans found)]

/-- A pass asks for nothing after an answer to stop, and ends as stopped exactly if it gets one. -/
theorem stops_runPass (e : Engine) (book : Workbook) (q : Request) (answers : List Checkpoint) :
    (∀ i, i + 1 < (e.runPass book q answers).polls → answerAt answers i ≠ .stop) ∧
      ((e.runPass book q answers).finish = .stopped ↔
        ∃ i < (e.runPass book q answers).polls, answerAt answers i = .stop) := by
  have answered := answerAt_of_interruption? answers (e.steps book q).length
  cases found : interruption? answers (e.steps book q).length with
  | none =>
    rw [found] at answered
    simp only [runPass_of_calm found]
    refine ⟨fun i less stop => ?_, ⟨nofun, ?_⟩⟩
    · exact nomatch (answered i (by omega)).symm.trans stop
    · rintro ⟨i, less, stop⟩
      exact nomatch (answered i less).symm.trans stop
  | some stop =>
    obtain ⟨k, finish⟩ := stop
    rw [found] at answered
    obtain ⟨go, ends⟩ := answered
    simp only [runPass_of_interruption found]
    refine ⟨fun i less stop => ?_, ⟨fun stopped => ⟨k, Nat.lt_succ_self k, ?_⟩, ?_⟩⟩
    · exact nomatch (go i (Nat.lt_of_succ_lt_succ less)).symm.trans stop
    · cases last : answerAt answers k with
      | stop => rfl
      | go =>
        rw [last] at ends
        cases ends
      | restart next =>
        rw [last] at ends
        cases ends
        cases stopped
    · rintro ⟨i, less, stop⟩
      rcases Nat.lt_succ_iff_lt_or_eq.mp less with before | rfl
      · exact nomatch (go i before).symm.trans stop
      · rw [stop] at ends
        exact (Option.some.inj ends).symm

/-! ### Runs -/

theorem eq_of_stopped_iff {first second : RunState} (terminal : first.isTerminal = true)
    (also : second.isTerminal = true) (same : first = .stopped ↔ second = .stopped) :
    first = second := by
  cases first <;> cases second <;> simp_all [RunState.isTerminal]

/-- A run depends only on the answers that it asks for. -/
theorem serve_congr {report : RunReport} (running : runner.state = .running)
    (result : e.serve book q answers runner = .ok report)
    (agree : ∀ i < report.polls, answerAt answers i = answerAt others i) :
    e.serve book q others runner = .ok report := by
  refine serve_induction (motive := fun q answers runner report => ∀ others,
    (∀ i < report.polls, answerAt answers i = answerAt others i) →
      e.serve book q others runner = .ok report) ?_ ?_ running result others agree
  -- the last pass is the same, and so is the state that the run ends in
  · intro q answers runner finish running terminal stopped last others agree
    have pass : e.runPass book q others = e.runPass book q answers := runPass_congr agree
    have ends : (e.runPass book q others).finish.next? = none := by
      rw [pass]
      exact last
    obtain ⟨finish', terminal', stopped', served⟩ := serve_of_last running ends
    rw [pass] at stopped'
    obtain rfl := eq_of_stopped_iff terminal terminal' (stopped.trans stopped'.symm)
    rw [served]
    simp only [ended, noted, pass]
  -- the first pass is superseded by the same request, after as many answers
  · intro q answers runner next report running superseded holds others agree
    have pass : e.runPass book q others = e.runPass book q answers :=
      runPass_congr fun i less => agree i (Nat.lt_add_right _ less)
    have ends : (e.runPass book q others).finish = .superseded next := by
      rw [pass]
      exact superseded
    have rest := holds (others.drop (e.runPass book q answers).polls) fun i less => by
      rw [answerAt_drop, answerAt_drop]
      exact agree _ (Nat.add_lt_add_left less _)
    rw [serve_of_superseded running ends]
    simp only [noted, pass] at rest ⊢
    rw [rest]
    simp only [Except.map, goOn, noted, pass]

/-- A run asks for nothing after an answer to stop, and ends as stopped exactly if it gets one. -/
theorem stops_serve {report : RunReport} (running : runner.state = .running)
    (result : e.serve book q answers runner = .ok report) :
    (∀ i, i + 1 < report.polls → answerAt answers i ≠ .stop) ∧
      (report.finish = .stopped ↔ ∃ i < report.polls, answerAt answers i = .stop) := by
  refine serve_induction (motive := fun _ answers _ report =>
    (∀ i, i + 1 < report.polls → answerAt answers i ≠ .stop) ∧
      (report.finish = .stopped ↔ ∃ i < report.polls, answerAt answers i = .stop)) ?_ ?_
    running result
  · intro q answers runner finish _ _ stopped _
    obtain ⟨early, ends⟩ := e.stops_runPass book q answers
    exact ⟨early, stopped.trans ends⟩
  · rintro q answers runner next report _ superseded ⟨early, ends⟩
    -- a pass that is superseded has been told to stop nowhere
    have calm : ∀ i < (e.runPass book q answers).polls, answerAt answers i ≠ .stop := by
      intro i less stop
      have stopped := (e.stops_runPass book q answers).2.mpr ⟨i, less, stop⟩
      exact nomatch superseded.symm.trans stopped
    refine ⟨fun i less stop => ?_, ends.trans ⟨?_, ?_⟩⟩
    · rcases Nat.lt_or_ge i (e.runPass book q answers).polls with inside | beyond
      · exact calm i inside stop
      · obtain ⟨j, rfl⟩ := Nat.exists_eq_add_of_le beyond
        refine early j ?_ ((answerAt_drop _ _ _).trans stop)
        exact Nat.lt_of_add_lt_add_left less
    · rintro ⟨j, less, stop⟩
      exact ⟨_, Nat.add_lt_add_left less _, (answerAt_drop _ _ _).symm.trans stop⟩
    · rintro ⟨i, less, stop⟩
      rcases Nat.lt_or_ge i (e.runPass book q answers).polls with inside | beyond
      · exact absurd stop (calm i inside)
      · obtain ⟨j, rfl⟩ := Nat.exists_eq_add_of_le beyond
        exact ⟨j, Nat.lt_of_add_lt_add_left less, (answerAt_drop _ _ _).trans stop⟩

end Engine

end Recalc
