import Recalc.Calculation.Request
import Recalc.Calculation.Results

/-!
# Passes

A pass evaluates a schedule in steps: single cells, chunks of cells that are evaluated side by side,
and whole cycles. Before each step it asks whether to go on, so that interrupting it means performing
a leading part of its steps and nothing else. Cells read the results of earlier steps before the
stored values.
-/

namespace Recalc

structure Config where
  parallel : Bool
  threads : Nat
  threshold : Nat
  progressInterval : Nat
  recalcVolatile : Bool
  seed : UInt64
  now : Float

/-- What a pass performs between two checkpoints. -/
inductive Step where
  | cells (vertices : List Nat)
  | cycle (vertices : List Nat)
deriving DecidableEq, Repr

inductive Checkpoint where
  | go
  | stop
  | restart (q : Request)

/-! ### Steps -/

namespace Step

/-- Cuts a list into pieces of one size, the last of which may be shorter; size zero counts as
one. -/
def pieces (size : Nat) : List Nat → List (List Nat)
  | [] => []
  | v :: rest => (v :: rest.take (size - 1)) :: pieces size (rest.drop (size - 1))
termination_by vertices => vertices.length
decreasing_by
  simp only [List.length_drop, List.length_cons]
  omega

theorem flatten_pieces (size : Nat) (vertices : List Nat) :
    (pieces size vertices).flatten = vertices := by
  fun_induction pieces size vertices with
  | case1 => rfl
  | case2 v rest ih =>
    rw [List.flatten_cons, ih, List.cons_append, List.take_append_drop]

/-- The steps for the vertices of a layer that lie on no cycle. A wide layer is evaluated in chunks
where that is enabled. -/
def ofVertices (config : Config) (vertices : List Nat) : List Step :=
  if config.parallel && config.threshold ≤ vertices.length then
    (pieces (max config.threshold config.threads) vertices).map cells
  else vertices.map fun v => cells [v]

def ofLayer (config : Config) (layer : Layer) : List Step :=
  ofVertices config layer.vertices ++ layer.cycles.map cycle

def ofSchedule (config : Config) (s : Schedule) : List Step :=
  s.layers.flatMap (ofLayer config)

end Step

/-! ### What a pass works on -/

/-- What stays the same during a pass. -/
structure PassContext where
  book : Workbook
  library : Library
  config : Config
  request : Request
  graph : DependencyGraph
  home : SortedSet String

/-- The values computed so far, what they amount to as a result, and how much has been reported. -/
structure PassState where
  overlay : SortedMap Address Value
  results : Results
  completed : Nat
  reported : Nat
  progress : List Nat

namespace PassState

def start : PassState :=
  ⟨∅, .empty, 0, 0, []⟩

end PassState

namespace PassContext

/-- The value of a cell as a pass sees it. -/
def value (c : PassContext) (overlay : SortedMap Address Value) (a : Address) : Value :=
  (overlay[a]?).getD (c.book.value a)

/-- The value or fault of a formula over what has been computed. -/
def evaluate (c : PassContext) (overlay : SortedMap Address Value) (v : Vertex) :
    Except Fault Value :=
  v.formula.tree.cellValue
    (c.book.viewWith (c.value overlay) c.library c.config.now c.config.seed) v.address

/-- Whether the results of a cell are those of a home unit. -/
def isHome (c : PassContext) (a : Address) : Bool :=
  c.request.forced || c.home.contains a.unit

/-- What the readers of a cell see for an outcome. -/
def shown : Except Fault Value → Value
  | .ok v => v
  | .error fault => fault.marker

def commit (c : PassContext) (s : PassState) (a : Address) (outcome : Except Fault Value) :
    PassState :=
  let results := match outcome with
    | .ok v => s.results.insert (c.isHome a) a v
    | .error fault => s.results.insertFault a fault.message
  { s with
    overlay := s.overlay.insert a (shown outcome)
    results
    completed := s.completed + 1 }

def commitAll (c : PassContext) (s : PassState) (outcomes : List (Address × Except Fault Value)) :
    PassState :=
  outcomes.foldl (fun s (a, outcome) => c.commit s a outcome) s

/-- Notes the number of completed cells if enough of them have been completed since the last time. -/
def report (c : PassContext) (s : PassState) : PassState :=
  let interval := c.config.progressInterval
  if 0 < interval ∧ interval ≤ s.completed - s.reported then
    { s with reported := s.completed, progress := s.progress ++ [s.completed] }
  else s

/-! ### Cycles -/

/-- The value of a cell on a cycle that is not iterated. -/
def circular : Value :=
  .complain .circularReference

/-- The change from one sweep to the next. Anything but two numbers, or a blank and a number, has
settled only if it stays the same. -/
def change (old new : Value) : Float :=
  match old, new with
  | .number x, .number y => (x - y).abs
  | .blank, .number y => y.abs
  | old, new => if old.same new then 0.0 else 1.0 / 0.0

/-- One sweep over the members of a cycle, each of which sees the new values of those before it. It
gives the values, the outcomes, and whether all members have settled. -/
def sweep (c : PassContext) (overlay : SortedMap Address Value) (members : List Vertex) :
    SortedMap Address Value × List (Address × Except Fault Value) × Bool :=
  members.foldl (fun (overlay, outcomes, settled) v =>
    let outcome := c.evaluate overlay v
    let old := c.value overlay v.address
    let moved := c.request.options.tolerance < change old (shown outcome)
    (overlay.insert v.address (shown outcome), outcomes ++ [(v.address, outcome)],
      settled && !moved)) (overlay, [], true)

/-- Sweeps until all members have settled, at most `limit` times, and gives the outcomes of the last
sweep. -/
def sweeps (c : PassContext) (members : List Vertex) (limit : Nat)
    (overlay : SortedMap Address Value) : List (Address × Except Fault Value) :=
  match limit with
  | 0 => []
  | limit + 1 =>
    let (overlay, outcomes, settled) := c.sweep overlay members
    if settled || limit == 0 then outcomes else sweeps c members limit overlay

/-- The outcomes of the members of a cycle. -/
def cycleOutcomes (c : PassContext) (overlay : SortedMap Address Value) (members : List Vertex) :
    List (Address × Except Fault Value) :=
  if c.request.options.iterative then
    c.sweeps members (max c.request.options.maxIterations 1) overlay
  else members.map fun v => (v.address, .ok circular)

/-! ### Running -/

def members (c : PassContext) (vertices : List Nat) : List Vertex :=
  vertices.filterMap c.graph.vertex?

/-- The outcomes of one step. The cells of a chunk are all evaluated over what was computed before
it. -/
def outcomes (c : PassContext) (overlay : SortedMap Address Value) (step : Step) :
    List (Address × Except Fault Value) :=
  match step with
  | .cells vs => (c.members vs).map fun v => (v.address, c.evaluate overlay v)
  | .cycle vs => c.cycleOutcomes overlay (c.members vs)

def perform (c : PassContext) (s : PassState) (step : Step) : PassState :=
  c.report (c.commitAll s (c.outcomes s.overlay step))

def performAll (c : PassContext) (steps : List Step) : PassState :=
  steps.foldl c.perform .start

end PassContext

inductive PassEnd where
  | completed
  | stopped
  | superseded (next : Request)

/-- A pass that has ended: its results, the completed counts that it reported on the way, and how
many checkpoints it met. -/
structure PassOutcome where
  finish : PassEnd
  results : Results
  completed : Nat
  total : Nat
  progress : List Nat
  polls : Nat

/-- Where the answers first say something else than to go on, among the first `polls` of them. -/
def interruption? (answers : List Checkpoint) (polls : Nat) : Option (Nat × PassEnd) :=
  match polls, answers with
  | 0, _ => none
  | _, [] => none
  | polls + 1, .go :: rest => (interruption? rest polls).map fun (k, e) => (k + 1, e)
  | _ + 1, .stop :: _ => some (0, .stopped)
  | _ + 1, .restart q :: _ => some (0, .superseded q)

theorem interruption?_lt_length {answers : List Checkpoint} {polls k : Nat} {e : PassEnd}
    (h : interruption? answers polls = some (k, e)) : k < answers.length := by
  fun_induction interruption? answers polls generalizing k e with
  | case1 => cases h
  | case2 => cases h
  | case3 polls rest ih =>
    obtain ⟨⟨k', e'⟩, found, same⟩ := Option.map_eq_some_iff.mp h
    have := ih found
    cases same
    simp only [List.length_cons]
    omega
  | case4 => cases h; simp
  | case5 => cases h; simp

/-- An engine: its settings and its functions. -/
structure Engine where
  config : Config
  library : Library

namespace Engine

/-- The graph of a workbook and the schedule of a request. -/
def plan (e : Engine) (book : Workbook) (q : Request) : DependencyGraph × Schedule :=
  let graph := DependencyGraph.ofWorkbook book e.library
  (graph, q.schedule graph e.config.recalcVolatile)

/-- Runs one pass, with the given answers at its checkpoints and none to interrupt it after them. -/
def runPass (e : Engine) (book : Workbook) (q : Request) (answers : List Checkpoint) :
    PassOutcome :=
  let (graph, schedule) := e.plan book q
  let context : PassContext := ⟨book, e.library, e.config, q, graph, q.homeUnits⟩
  let steps := Step.ofSchedule e.config schedule
  let (performed, finish, polls) := match interruption? answers steps.length with
    | some (k, finish) => (steps.take k, finish, k + 1)
    | none => (steps, .completed, steps.length)
  let state := context.performAll performed
  ⟨finish, state.results, state.completed, schedule.size, state.progress, polls⟩

end Engine

end Recalc
