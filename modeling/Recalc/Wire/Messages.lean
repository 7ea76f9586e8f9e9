import Recalc.Calculation.Worker
import Recalc.Wire.Values

/-!
# Messages on the wire

Encoders and decoders of requests, notifications and results, and the ids under which messages are
known.
-/

namespace Recalc

open Json

/-! ### Message ids -/

namespace MessageId

def start : String := "formula.mutation.set-formula-calculation-start"

def stop : String := "formula.mutation.set-formula-calculation-stop"

def notification : String := "formula.mutation.set-formula-calculation-notification"

def results : String := "formula.mutation.set-formula-calculation-result"

end MessageId

/-- The id of the message that a command is; a shutdown is no message. -/
def MessageId.ofCommand? : Command → Option String
  | .start _ => some start
  | .stop => some stop
  | .shutdown => none

def MessageId.ofEvent : Event → String
  | .notification _ => notification
  | .results _ => results

/-! ### Requests -/

namespace Options

def toJson (o : Options) : Json :=
  .object [("iterativeCalculation", .boolean o.iterative), ("maxIterations", ofNat o.maxIterations),
    ("convergenceTolerance", .real o.tolerance)]

def ofJson? (j : Json) : Option Options := do
  let m ← j.members? ["iterativeCalculation", "maxIterations", "convergenceTolerance"]
  let iterative ← m.withDefault 0 "iterativeCalculation" standard.iterative boolean?
  let maxIterations ← m.withDefault 1 "maxIterations" standard.maxIterations index?
  let tolerance ← m.withDefault 2 "convergenceTolerance" standard.tolerance float?
  return ⟨iterative, maxIterations, tolerance⟩

end Options

namespace Request

def jsonOfTexts (f : α → Json) (m : SortedMap String α) : Json :=
  ofMap id f m

def texts? (f : Json → Option α) (j : Json) : Option (SortedMap String α) :=
  j.map? some f

def memberNames : List String :=
  ["dirtyRanges", "dirtyNameMap", "dirtyDefinedNames", "dirtyUnitFeatureMap", "options",
    "forceCalculation"]

def toJson (q : Request) : Json :=
  .object [("dirtyRanges", .array (q.regions.map Region.toJson)),
    ("dirtyNameMap", jsonOfTexts (jsonOfTexts .string) q.renames),
    ("dirtyDefinedNames", jsonOfTexts ofSet q.names),
    ("dirtyUnitFeatureMap", jsonOfTexts (jsonOfTexts ofSet) q.features),
    ("options", q.options.toJson),
    ("forceCalculation", .boolean q.forced)]

/-- A request, of which defined names, options and force may be left out. -/
def ofJson? (j : Json) : Option Request := do
  let m ← j.members? memberNames
  let regions ← m.required 0 "dirtyRanges" (list? Region.ofJson?)
  let renames ← m.required 1 "dirtyNameMap" (texts? (texts? string?))
  let names ← m.withDefault 2 "dirtyDefinedNames" ∅ (texts? set?)
  let features ← m.required 3 "dirtyUnitFeatureMap" (texts? (texts? set?))
  let options ← m.withDefault 4 "options" Options.standard Options.ofJson?
  let forced ← m.withDefault 5 "forceCalculation" false boolean?
  return ⟨regions, renames, names, features, options, forced⟩

end Request

/-! ### Notifications -/

namespace RunState

def all : List RunState :=
  [idle, running, stopped, completed]

def toJson (s : RunState) : Json :=
  .string s.label

def ofJson? (j : Json) : Option RunState :=
  j.oneOf? (all.map fun s => (s.label, s))

end RunState

namespace StageInfo

def toJson (s : StageInfo) : Json :=
  .object [("stage", ofNat s.stage), ("completedCells", ofNat s.completed),
    ("totalCells", ofNat s.total)]

def ofJson? (j : Json) : Option StageInfo := do
  let m ← j.members? ["stage", "completedCells", "totalCells"]
  let stage ← m.required 0 "stage" count?
  let completed ← m.required 1 "completedCells" count?
  let total ← m.required 2 "totalCells" count?
  return ⟨stage, completed, total⟩

end StageInfo

namespace Notification

def toJson (n : Notification) : Json :=
  .object [("executedState", n.state.toJson), ("stageInfo", n.info.toJson)]

def ofJson? (j : Json) : Option Notification := do
  let m ← j.members? ["executedState", "stageInfo"]
  let state ← m.required 0 "executedState" RunState.ofJson?
  let info ← m.required 1 "stageInfo" StageInfo.ofJson?
  return ⟨state, info⟩

end Notification

/-! ### Results -/

namespace SheetCells

def toJson (m : SheetCells) : Json :=
  ofMap toString (ofMap toString Value.toJson) m.rows

def ofJson? (j : Json) : Option SheetCells :=
  (j.map? indexOfText? (map? indexOfText? Value.ofJson?)).map SheetCells.mk

end SheetCells

namespace CellFault

def toJson (f : CellFault) : Json :=
  .object [("cell", f.address.toJson), ("message", .string f.message)]

def ofJson? (j : Json) : Option CellFault := do
  let m ← j.members? ["cell", "message"]
  let address ← m.required 0 "cell" Address.ofJson?
  let message ← m.required 1 "message" string?
  return ⟨address, message⟩

end CellFault

namespace Results

def cellsToJson (cells : UnitCells) : Json :=
  ofMap id (ofMap id SheetCells.toJson) cells

def cellsOfJson? (j : Json) : Option UnitCells :=
  j.map? some (map? some SheetCells.ofJson?)

def toJson (r : Results) : Json :=
  .object [("unitData", cellsToJson r.home), ("unitOtherData", cellsToJson r.other),
    ("faults", .array (r.faults.map CellFault.toJson))]

/-- Results, of which the faults may be left out. -/
def ofJson? (j : Json) : Option Results := do
  let m ← j.members? ["unitData", "unitOtherData", "faults"]
  let home ← m.required 0 "unitData" cellsOfJson?
  let other ← m.required 1 "unitOtherData" cellsOfJson?
  let faults ← m.withDefault 2 "faults" [] (list? CellFault.ofJson?)
  return ⟨home, other, faults⟩

/-- Whether no sheet has a row. -/
def hasNoRows (r : Results) : Bool :=
  [r.home, r.other].all fun (cells : UnitCells) =>
    (Std.ExtTreeMap.toList cells).all fun (_, sheets) => sheets.toList.all fun (_, m) => m.isEmpty

end Results

namespace Event

def parameters : Event → Json
  | notification n => n.toJson
  | results r => r.toJson

/-- An event under its id. -/
def toJson (e : Event) : Json :=
  .object [("id", .string (MessageId.ofEvent e)), ("params", e.parameters)]

/-- The event of an id with its parameters. -/
def ofParts? (id : String) (parameters : Json) : Option Event :=
  if id = MessageId.notification then (Notification.ofJson? parameters).map notification
  else if id = MessageId.results then (Results.ofJson? parameters).map results
  else none

/-- The ids that events have, as names of variants. -/
def ids : List (String × String) :=
  [(MessageId.notification, MessageId.notification), (MessageId.results, MessageId.results)]

/-- Whether parameters can be told before the id is: rows are then not known to be numbers. -/
def canPrecedeId : Event → Bool
  | notification _ => true
  | results r => r.hasNoRows

/-- Whether the parameters stand before the id. -/
def parametersFirst : Json → Bool
  | .object ms => ((ms.map Prod.fst).find? fun name => name == "id" || name == "params") == some "params"
  | _ => false

def ofJson? (j : Json) : Option Event := do
  let m ← j.members? ["id", "params"]
  let id ← m.required 0 "id" (oneOf? ids)
  let parameters ← m.get? 1 "params"
  let e ← ofParts? id parameters
  if parametersFirst j && !e.canPrecedeId then none else return e

end Event

end Recalc
