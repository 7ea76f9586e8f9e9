import Recalc.Proofs.WireValues
import Recalc.Wire.Messages

/-!
# Messages on the wire

Requests and events come back from their encodings through an exact medium if their numbers are
finite, and members that a request may lack count as their defaults (`Request.restored_lacking`,
`Event.restored`). Whatever the document of an event, the blocks in its values are well shaped.
-/
namespace Recalc

open Json

variable {medium : Medium}

/-! ### Places -/

/-- Whether the row and column of a cell are numbered in 32 bits. -/
def Address.Fits (a : Address) : Prop :=
  a.row < indexBound ∧ a.col < indexBound

theorem Address.restored (exact : medium.Exact) {a : Address} (fits : a.Fits) :
    Restores medium toJson ofJson? a := by
  simp only [Restores, ofJson?, Option.bind_eq_bind, Option.bind_eq_some_iff]
  refine ⟨_, members?_conveyed rfl (by decide), a.unit, ?_, a.sheet, ?_, a.row, ?_, a.col, ?_, rfl⟩
  · exact Members.required_conveyed rfl (Restores.string a.unit)
  · exact Members.required_conveyed rfl (Restores.string a.sheet)
  · exact Members.required_conveyed rfl (Restores.index exact fits.1)
  · exact Members.required_conveyed rfl (Restores.index exact fits.2)

structure Rectangle.Fits (r : Rectangle) : Prop where
  startRow : r.startRow < indexBound
  startCol : r.startCol < indexBound
  endRow : r.endRow < indexBound
  endCol : r.endCol < indexBound

theorem Rectangle.restored (exact : medium.Exact) {r : Rectangle} (fits : r.Fits) :
    Restores medium toJson ofJson? r := by
  simp only [Restores, ofJson?, Option.bind_eq_bind, Option.bind_eq_some_iff]
  refine ⟨_, members?_conveyed rfl (by decide), r.startRow, ?_, r.startCol, ?_, r.endRow, ?_,
    r.endCol, ?_, rfl⟩
  · exact Members.required_conveyed rfl (Restores.index exact fits.startRow)
  · exact Members.required_conveyed rfl (Restores.index exact fits.startCol)
  · exact Members.required_conveyed rfl (Restores.index exact fits.endRow)
  · exact Members.required_conveyed rfl (Restores.index exact fits.endCol)

theorem Region.restored (exact : medium.Exact) {g : Region} (fits : g.rectangle.Fits) :
    Restores medium toJson ofJson? g := by
  simp only [Restores, ofJson?, Option.bind_eq_bind, Option.bind_eq_some_iff]
  refine ⟨_, members?_conveyed rfl (by decide), g.unit, ?_, g.sheet, ?_, g.rectangle, ?_, rfl⟩
  · exact Members.required_conveyed rfl (Restores.string g.unit)
  · exact Members.required_conveyed rfl (Restores.string g.sheet)
  · exact Members.required_conveyed rfl (Rectangle.restored exact fits)

/-! ### Requests -/

namespace Options

/-- The options that remain when some members are left out. -/
def lacking (left : List String) (o : Options) : Options where
  iterative := if "iterativeCalculation" ∈ left then standard.iterative else o.iterative
  maxIterations := if "maxIterations" ∈ left then standard.maxIterations else o.maxIterations
  tolerance := if "convergenceTolerance" ∈ left then standard.tolerance else o.tolerance

theorem restored_lacking (exact : medium.Exact) {o : Options} (finite : o.tolerance.isFinite = true)
    (fits : o.maxIterations < indexBound) (left : List String) :
    ofJson? ((o.toJson.without left).conveyed medium) = some (o.lacking left) := by
  simp only [ofJson?, Option.bind_eq_bind, Option.bind_eq_some_iff]
  refine ⟨_, members?_without rfl (by decide), (o.lacking left).iterative, ?_,
    (o.lacking left).maxIterations, ?_, (o.lacking left).tolerance, ?_, rfl⟩
  · exact Members.withDefault_sent rfl (Restores.boolean o.iterative)
  · exact Members.withDefault_sent rfl (Restores.index exact fits)
  · exact Members.withDefault_sent rfl (Restores.real exact finite)

end Options

namespace Request

/-- Whether all rows, columns and bounds of a request are numbers of 32 bits. -/
def Fits (q : Request) : Prop :=
  (∀ g ∈ q.regions, g.rectangle.Fits) ∧ q.options.maxIterations < indexBound

/-- The members that the document of a request may lack. -/
def optionalNames : List String :=
  ["dirtyDefinedNames", "options", "forceCalculation"]

/-- The request that remains when members of its own and of its options are left out. -/
def lacking (left optionsLeft : List String) (q : Request) : Request where
  regions := q.regions
  renames := q.renames
  names := if "dirtyDefinedNames" ∈ left then ∅ else q.names
  features := q.features
  options := if "options" ∈ left then .standard else q.options.lacking optionsLeft
  forced := if "forceCalculation" ∈ left then false else q.forced

theorem restored_lacking (exact : medium.Exact) {q : Request}
    (finite : q.options.tolerance.isFinite = true) (fits : q.Fits) {left : List String}
    (optional : left ⊆ optionalNames) (optionsLeft : List String) :
    ofJson? (((q.toJson.changing "options" (without optionsLeft)).without left).conveyed medium) =
      some (q.lacking left optionsLeft) := by
  have kept : ∀ name, name ∉ optionalNames → name ∉ left := fun name required listed =>
    required (optional listed)
  simp only [ofJson?, Option.bind_eq_bind, Option.bind_eq_some_iff]
  refine ⟨_, members?_without rfl (by decide), q.regions, ?_, q.renames, ?_,
    (q.lacking left optionsLeft).names, ?_, q.features, ?_,
    (q.lacking left optionsLeft).options, ?_, (q.lacking left optionsLeft).forced, ?_, rfl⟩
  · exact Members.required_sent (kept _ (by decide)) rfl
      (Restores.list fun g listed => Region.restored exact (fits.1 g listed))
  · exact Members.required_sent (kept _ (by decide)) rfl
      (Restores.map fun _ _ _ => ⟨rfl, Restores.map fun _ name _ => ⟨rfl, Restores.string name⟩⟩)
  · exact Members.withDefault_sent rfl
      (Restores.map fun _ names _ => ⟨rfl, Restores.set names⟩)
  · exact Members.required_sent (kept _ (by decide)) rfl
      (Restores.map fun _ _ _ => ⟨rfl, Restores.map fun _ ids _ => ⟨rfl, Restores.set ids⟩⟩)
  · exact Members.withDefault_sent rfl
      (Options.restored_lacking exact finite fits.2 optionsLeft)
  · exact Members.withDefault_sent rfl (Restores.boolean q.forced)

theorem lacking_nil (q : Request) : q.lacking [] [] = q := by
  simp [lacking, Options.lacking]

theorem restored (exact : medium.Exact) {q : Request} (finite : q.options.tolerance.isFinite = true)
    (fits : q.Fits) : Restores medium toJson ofJson? q := by
  have whole : (q.toJson.changing "options" (without [])).without [] = q.toJson := by
    rw [without_nil]
    simp [toJson, changing, without_nil]
  have restored := restored_lacking exact finite fits (List.nil_subset _) []
  rwa [whole, lacking_nil] at restored

end Request

/-! ### Notifications -/

theorem RunState.restored (s : RunState) : Restores medium toJson ofJson? s := by
  rw [Restores, toJson, conveyed_string]
  cases s <;> rfl

structure StageInfo.Fits (s : StageInfo) : Prop where
  stage : s.stage < 0x10000000000000000
  completed : s.completed < 0x10000000000000000
  total : s.total < 0x10000000000000000

theorem StageInfo.restored (exact : medium.Exact) {s : StageInfo} (fits : s.Fits) :
    Restores medium toJson ofJson? s := by
  simp only [Restores, ofJson?, Option.bind_eq_bind, Option.bind_eq_some_iff]
  refine ⟨_, members?_conveyed rfl (by decide), s.stage, ?_, s.completed, ?_, s.total, ?_, rfl⟩
  · exact Members.required_conveyed rfl (Restores.count exact fits.stage)
  · exact Members.required_conveyed rfl (Restores.count exact fits.completed)
  · exact Members.required_conveyed rfl (Restores.count exact fits.total)

theorem Notification.restored (exact : medium.Exact) {n : Notification} (fits : n.info.Fits) :
    Restores medium toJson ofJson? n := by
  simp only [Restores, ofJson?, Option.bind_eq_bind, Option.bind_eq_some_iff]
  refine ⟨_, members?_conveyed rfl (by decide), n.state, ?_, n.info, ?_, rfl⟩
  · exact Members.required_conveyed rfl n.state.restored
  · exact Members.required_conveyed rfl (StageInfo.restored exact fits)

/-! ### Results -/

namespace SheetCells

/-- Whether all rows and columns of a sheet are numbered in 32 bits, and all its values fit. -/
def Fits (m : SheetCells) : Prop :=
  ∀ row cols, m.rows[row]? = some cols →
    row < indexBound ∧ ∀ col v, cols[col]? = some v → col < indexBound ∧ v.Fits

theorem fits_empty : empty.Fits := by
  intro row cols inRows
  simp [empty] at inRows

theorem Fits.set {m : SheetCells} (fits : m.Fits) {row col : Nat} (rowFits : row < indexBound)
    (colFits : col < indexBound) {v : Value} (valueFits : v.Fits) : (m.set row col v).Fits := by
  intro r cols inRows
  rw [SheetCells.set, SortedMap.getElem?_update] at inRows
  split at inRows
  next same =>
    obtain rfl := Option.some.inj inRows
    refine ⟨same ▸ rowFits, fun c w inCols => ?_⟩
    rw [SortedMap.getElem?_insert] at inCols
    split at inCols
    next same =>
      obtain rfl := Option.some.inj inCols
      exact ⟨same ▸ colFits, valueFits⟩
    next =>
      cases found : m.rows[row]? with
      | none => simp [found] at inCols
      | some cols =>
        rw [found, Option.getD_some] at inCols
        exact (fits row cols found).2 c w inCols
  next => exact fits r cols inRows

theorem restored (exact : medium.Exact) {m : SheetCells}
    (finite : ∀ row col v, m.get? row col = some v → v.Finite) (fits : m.Fits) :
    Restores medium toJson ofJson? m := by
  have rows : Restores medium (ofMap toString (ofMap toString Value.toJson))
      (map? indexOfText? (map? indexOfText? Value.ofJson?)) m.rows := by
    apply Restores.map
    intro row cols inRows
    obtain ⟨rowFits, colsFit⟩ := fits row cols inRows
    refine ⟨indexOfText?_toString rowFits, Restores.map fun col v inCols => ?_⟩
    obtain ⟨colFits, valueFits⟩ := colsFit col v inCols
    have found : m.get? row col = some v := by
      rw [get?, inRows, Option.bind_some, inCols]
    exact ⟨indexOfText?_toString colFits, Value.restored exact (finite row col v found) valueFits⟩
  rw [Restores, toJson, ofJson?, rows.eq, Option.map_some]

end SheetCells

theorem CellFault.restored (exact : medium.Exact) {f : CellFault} (fits : f.address.Fits) :
    Restores medium toJson ofJson? f := by
  simp only [Restores, ofJson?, Option.bind_eq_bind, Option.bind_eq_some_iff]
  refine ⟨_, members?_conveyed rfl (by decide), f.address, ?_, f.message, ?_, rfl⟩
  · exact Members.required_conveyed rfl (Address.restored exact fits)
  · exact Members.required_conveyed rfl (Restores.string f.message)

def UnitCells.Fits (cells : UnitCells) : Prop :=
  ∀ (unit : String) (sheets : SortedMap String SheetCells), cells[unit]? = some sheets →
    ∀ (sheet : String) (m : SheetCells), sheets[sheet]? = some m → m.Fits

theorem UnitCells.Fits.set {cells : UnitCells} (fits : cells.Fits) {a : Address} (inside : a.Fits)
    {v : Value} (valueFits : v.Fits) : (cells.set a v).Fits := by
  have before : ∀ (sheet : String) (m : SheetCells),
      ((cells[a.unit]?).getD ∅)[sheet]? = some m → m.Fits := by
    intro sheet m inSheets
    cases found : cells[a.unit]? with
    | none => simp [found] at inSheets
    | some sheets =>
      rw [found, Option.getD_some] at inSheets
      exact fits a.unit sheets found sheet m inSheets
  intro unit sheets inUnits sheet m inSheets
  rw [UnitCells.set, SortedMap.getElem?_update] at inUnits
  split at inUnits
  next =>
    obtain rfl := Option.some.inj inUnits
    rw [SortedMap.getElem?_update] at inSheets
    split at inSheets
    next =>
      obtain rfl := Option.some.inj inSheets
      refine SheetCells.Fits.set ?_ inside.1 inside.2 valueFits
      cases found : ((cells[a.unit]?).getD ∅)[a.sheet]? with
      | none => exact SheetCells.fits_empty
      | some m => exact before a.sheet m found
    next => exact before sheet m inSheets
  next => exact fits unit sheets inUnits sheet m inSheets

namespace Results

theorem cells_restored (exact : medium.Exact) {cells : UnitCells}
    (finite : ∀ a v, cells.get? a = some v → v.Finite) (fits : cells.Fits) :
    Restores medium cellsToJson cellsOfJson? cells := by
  refine Restores.map fun unit sheets inUnits => ⟨rfl, Restores.map fun sheet m inSheets => ?_⟩
  refine ⟨rfl, SheetCells.restored exact ?_ (fits unit sheets inUnits sheet m inSheets)⟩
  intro row col v found
  apply finite ⟨unit, sheet, row, col⟩ v
  rw [UnitCells.get?, inUnits, Option.bind_some, inSheets, Option.bind_some, found]

/-- Whether all numbers in the values of a result are finite. -/
def Finite (r : Results) : Prop :=
  ∀ x ∈ r.cells, x.2.Finite

structure Fits (r : Results) : Prop where
  home : r.home.Fits
  other : r.other.Fits
  faults : ∀ f ∈ r.faults, f.address.Fits

theorem fits_empty : empty.Fits where
  home unit sheets inUnits := by simp [empty] at inUnits
  other unit sheets inUnits := by simp [empty] at inUnits
  faults := nofun

theorem finite_empty : empty.Finite := by
  intro x listed
  simp [empty, cells, UnitCells.toList] at listed

section Insert

variable {r : Results} {isHome : Bool} {a : Address} {v : Value}

/-- Results that fit keep fitting when a value is added that fits. -/
theorem Fits.insert (fits : r.Fits) (inside : a.Fits) (valueFits : v.Fits) :
    (r.insert isHome a v).Fits := by
  cases isHome with
  | true => exact ⟨fits.home.set inside valueFits, fits.other, fits.faults⟩
  | false => exact ⟨fits.home, fits.other.set inside valueFits, fits.faults⟩

theorem Finite.insert (finite : r.Finite) (valueFinite : v.Finite) :
    (r.insert isHome a v).Finite := by
  have set : ∀ cells : UnitCells, (∀ x ∈ cells.toList, x.2.Finite) →
      ∀ x ∈ (cells.set a v).toList, x.2.Finite := by
    rintro cells before ⟨b, w⟩ listed
    rw [UnitCells.mem_toList, UnitCells.get?_set] at listed
    split at listed
    · obtain rfl := Option.some.inj listed
      exact valueFinite
    · exact before (b, w) (UnitCells.mem_toList.mpr listed)
  have home := fun x listed => finite x (List.mem_append_left _ listed)
  have other := fun x listed => finite x (List.mem_append_right _ listed)
  intro x listed
  cases isHome with
  | true => exact (List.mem_append.mp listed).elim (set r.home home x) (other x)
  | false => exact (List.mem_append.mp listed).elim (home x) (set r.other other x)

end Insert

theorem restored (exact : medium.Exact) {r : Results} (finite : r.Finite) (fits : r.Fits) :
    Restores medium toJson ofJson? r := by
  have home := cells_restored exact (fun a v found => finite (a, v)
    (List.mem_append_left _ (UnitCells.mem_toList.mpr found))) fits.home
  have other := cells_restored exact (fun a v found => finite (a, v)
    (List.mem_append_right _ (UnitCells.mem_toList.mpr found))) fits.other
  have faults : Restores medium (fun l => .array (l.map CellFault.toJson))
      (list? CellFault.ofJson?) r.faults :=
    Restores.list fun f listed => CellFault.restored exact (fits.faults f listed)
  simp only [Restores, ofJson?, Option.bind_eq_bind, Option.bind_eq_some_iff]
  refine ⟨_, members?_conveyed rfl (by decide), r.home, ?_, r.other, ?_, r.faults, ?_, rfl⟩
  · exact Members.required_conveyed rfl home
  · exact Members.required_conveyed rfl other
  · exact Members.withDefault_sent rfl faults

end Results

/-! ### Events -/

namespace Event

def Finite : Event → Prop
  | notification _ => True
  | results r => r.Finite

def Fits : Event → Prop
  | notification n => n.info.Fits
  | results r => r.Fits

theorem restored (exact : medium.Exact) {e : Event} (finite : e.Finite) (fits : e.Fits) :
    Restores medium toJson ofJson? e := by
  have first : parametersFirst (e.toJson.conveyed medium) = false := by
    rw [toJson, conveyed_object]
    rfl
  have parts : ofParts? (MessageId.ofEvent e) (e.parameters.conveyed medium) = some e := by
    cases e with
    | notification n =>
      have restored : Restores medium Notification.toJson Notification.ofJson? n :=
        Notification.restored exact fits
      exact congrArg (Option.map notification) restored
    | results r =>
      have restored : Restores medium Results.toJson Results.ofJson? r :=
        Results.restored exact finite fits
      exact congrArg (Option.map results) restored
  have id : oneOf? ids ((Json.string (MessageId.ofEvent e)).conveyed medium) =
      some (MessageId.ofEvent e) := by
    rw [conveyed_string]
    cases e <;> rfl
  simp only [Restores, ofJson?, Option.bind_eq_bind, Option.bind_eq_some_iff]
  refine ⟨_, members?_conveyed rfl (by decide), MessageId.ofEvent e, ?_,
    e.parameters.conveyed medium, ?_, e, parts, ?_⟩
  · exact Members.required_conveyed rfl id
  · rw [Members.get?_sent]
    rfl
  · rw [first]
    rfl

end Event

/-! ### Shapes of decoded blocks -/

namespace Results

/-- The documents of the cells in the document of the cells of all units. -/
def cellDocuments (j : Json) : List Json :=
  j.entries.flatMap fun (_, sheets) => sheets.entries.flatMap fun (_, rows) =>
    rows.entries.flatMap fun (_, cols) => cols.entries.map Prod.snd

theorem exists_item_of_get? {j : Json} {cells : UnitCells} (decodes : cellsOfJson? j = some cells)
    {a : Address} {v : Value} (found : cells.get? a = some v) :
    ∃ item, Value.ofJson? item = some v := by
  obtain ⟨sheets, inUnits, found⟩ := Option.bind_eq_some_iff.mp found
  obtain ⟨m, inSheets, found⟩ := Option.bind_eq_some_iff.mp found
  obtain ⟨cols, inRows, inCols⟩ := Option.bind_eq_some_iff.mp found
  obtain ⟨unitItem, decodes⟩ := exists_item_of_map? decodes inUnits
  obtain ⟨sheetItem, decodes⟩ := exists_item_of_map? decodes inSheets
  obtain ⟨rows, rowsDecode, rfl⟩ := Option.map_eq_some_iff.mp decodes
  obtain ⟨rowItem, decodes⟩ := exists_item_of_map? rowsDecode inRows
  exact exists_item_of_map? decodes inCols

theorem decodes_of_mem_cellDocuments {j item : Json} {cells : UnitCells}
    (decodes : cellsOfJson? j = some cells) (listed : item ∈ cellDocuments j) :
    ∃ v, Value.ofJson? item = some v := by
  simp only [cellDocuments, List.mem_flatMap, List.mem_map] at listed
  obtain ⟨unit, inUnits, sheet, inSheets, row, inRows, col, inCols, rfl⟩ := listed
  obtain ⟨sheets, decodes⟩ := decodes_of_mem_entries decodes inUnits
  obtain ⟨m, decodes⟩ := decodes_of_mem_entries decodes inSheets
  obtain ⟨rows, rowsDecode, rfl⟩ := Option.map_eq_some_iff.mp decodes
  obtain ⟨cols, decodes⟩ := decodes_of_mem_entries rowsDecode inRows
  exact decodes_of_mem_entries decodes inCols

end Results

namespace Event

/-- The documents of the cells, home and other, in the document of an event. -/
def cellDocuments (j : Json) : List Json :=
  Option.getD (do
    let m ← j.members? ["id", "params"]
    let parameters ← m.get? 1 "params"
    let n ← parameters.members? ["unitData", "unitOtherData", "faults"]
    let home ← n.get? 0 "unitData"
    let other ← n.get? 1 "unitOtherData"
    return Results.cellDocuments home ++ Results.cellDocuments other) []

theorem ofJson?_of_ofParts? {id : String} {parameters : Json} {r : Results}
    (parts : ofParts? id parameters = some (results r)) : Results.ofJson? parameters = some r := by
  unfold ofParts? at parts
  split at parts
  · simp at parts
  · split at parts
    · simpa using parts
    · cases parts

/-- Where the cells of decoded results come from. -/
theorem decoded_results {j : Json} {r : Results} (decodes : ofJson? j = some (.results r)) :
    ∃ home other, cellDocuments j = Results.cellDocuments home ++ Results.cellDocuments other ∧
      Results.cellsOfJson? home = some r.home ∧ Results.cellsOfJson? other = some r.other := by
  simp only [ofJson?, Option.bind_eq_bind, Option.bind_eq_some_iff] at decodes
  obtain ⟨m, members, id, -, parameters, found, e, parts, same⟩ := decodes
  obtain rfl : e = .results r := by
    split at same
    · cases same
    · exact Option.some.inj same
  have decodes := ofJson?_of_ofParts? parts
  simp only [Results.ofJson?, Option.bind_eq_bind, Option.bind_eq_some_iff,
    Members.required] at decodes
  obtain ⟨n, inner, home, ⟨homeItem, foundHome, homeDecodes⟩, other,
    ⟨otherItem, foundOther, otherDecodes⟩, faults, -, same⟩ := decodes
  obtain rfl := Option.some.inj same
  refine ⟨homeItem, otherItem, ?_, homeDecodes, otherDecodes⟩
  simp only [cellDocuments, members, found, inner, foundHome, foundOther, Option.bind_eq_bind,
    Option.bind_some, Option.pure_def, Option.getD_some]

theorem wellShaped_of_ofJson? {j : Json} {r : Results} (decodes : ofJson? j = some (.results r)) :
    ∀ x ∈ r.cells, x.2.WellShaped := by
  obtain ⟨home, other, -, homeDecodes, otherDecodes⟩ := decoded_results decodes
  rintro ⟨a, v⟩ listed
  rcases List.mem_append.mp listed with inHome | inOther
  · obtain ⟨item, decoded⟩ := Results.exists_item_of_get? homeDecodes (UnitCells.mem_toList.mp inHome)
    exact Value.wellShaped_of_ofJsonWithin? decoded
  · obtain ⟨item, decoded⟩ :=
      Results.exists_item_of_get? otherDecodes (UnitCells.mem_toList.mp inOther)
    exact Value.wellShaped_of_ofJsonWithin? decoded

/-- Results with a misshapen block in any cell are not decoded. -/
theorem ofJson?_ne_of_misshapen {j item : Json} (listed : item ∈ cellDocuments j)
    (misshapen : Value.Misshapen item) (r : Results) : ofJson? j ≠ some (.results r) := by
  intro decodes
  obtain ⟨home, other, documents, homeDecodes, otherDecodes⟩ := decoded_results decodes
  rw [documents] at listed
  have decodes : ∃ v, Value.ofJson? item = some v := by
    rcases List.mem_append.mp listed with inHome | inOther
    · exact Results.decodes_of_mem_cellDocuments homeDecodes inHome
    · exact Results.decodes_of_mem_cellDocuments otherDecodes inOther
  obtain ⟨v, decoded⟩ := decodes
  rw [Value.ofJson?, misshapen.ofJsonWithin?] at decoded
  cases decoded

end Event

/-- Through a medium that gives back finite numbers exactly, values, requests and events come back
from their encodings, and a request that lacks any of the members that it may lack counts them as
their defaults. Of whatever document, only values with well-shaped blocks are decoded; one with a
block of another shape, at any depth, is refused, also in a cell of an event. -/
theorem wire_restores (exact : medium.Exact) :
    (∀ v : Value, v.Finite → v.Fits → Value.ofJson? (v.toJson.conveyed medium) = some v) ∧
    (∀ q : Request, q.options.tolerance.isFinite = true → q.Fits →
      Request.ofJson? (q.toJson.conveyed medium) = some q ∧
      ∀ left optionsLeft, left ⊆ Request.optionalNames →
        Request.ofJson?
            (((q.toJson.changing "options" (without optionsLeft)).without left).conveyed medium) =
          some (q.lacking left optionsLeft)) ∧
    (∀ e : Event, e.Finite → e.Fits → Event.ofJson? (e.toJson.conveyed medium) = some e) ∧
    (∀ j v, Value.ofJson? j = some v → ∀ b ∈ v.blocks, b.WellShaped) ∧
    (∀ j r, Event.ofJson? j = some (.results r) → ∀ x ∈ r.cells, ∀ b ∈ x.2.blocks, b.WellShaped) ∧
    (∀ j, Value.Misshapen j → Value.ofJson? j = none) ∧
    (∀ j, ∀ item ∈ Event.cellDocuments j, Value.Misshapen item →
      ∀ r, Event.ofJson? j ≠ some (.results r)) := by
  refine ⟨?values, ?requests, ?events, ?blocks, ?cells, ?shapes, ?documents⟩
  case values => exact fun v finite fits => Value.restored exact finite fits
  case requests =>
    intro q finite fits
    refine ⟨Request.restored exact finite fits, fun left optionsLeft optional => ?_⟩
    exact Request.restored_lacking exact finite fits optional optionsLeft
  case events => exact fun e finite fits => Event.restored exact finite fits
  case blocks => exact fun j v decodes => Value.wellShaped_of_ofJsonWithin? decodes
  case cells => exact fun j r decodes => Event.wellShaped_of_ofJson? decodes
  case shapes => exact fun j misshapen => misshapen.ofJsonWithin? _
  case documents => exact fun j item listed => Event.ofJson?_ne_of_misshapen listed

/-- A block inside a block, alone and in a cell of the last column; a request without two of its
members; and a block of so many rows and columns that 64 bits do not count its elements. -/
theorem wire_restores_nested_block :
    let block : Value := .array ⟨1, 2, #[.number (-0.5), .array ⟨1, 1, #[.blank]⟩]⟩
    let q := (Request.full.withRegion ⟨"u", "s", ⟨0, 0, 3, 1⟩⟩).withOptions (.iterating 20 0.25)
    let lacking := (q.toJson.changing "options" (without ["maxIterations"])).without
      ["forceCalculation"]
    let e := Event.results (Results.empty.insert true ⟨"u", "s", 4, 0xFFFFFFFF⟩ block)
    let overflowing : Json :=
      .object [("Array", Block.jsonOfElements 0x100000000 0x100000000 [])]
    Value.ofJson? (block.toJson.conveyed .keeping) = some block ∧
      Request.ofJson? (lacking.conveyed .keeping) =
        some { q with options := .iterating 100 0.25, forced := false } ∧
      Event.ofJson? (e.toJson.conveyed .keeping) = some e ∧ Value.ofJson? overflowing = none := by
  intro block q lacking e overflowing
  obtain ⟨values, requests, events, -, -, shapes, -⟩ := wire_restores Medium.exact_keeping
  have finite : block.Finite := by
    intro x listed
    simp only [block, Value.numbers, Value.numbersOfEach, List.append_nil,
      List.mem_singleton] at listed
    subst listed
    decide +kernel
  have fits : block.Fits := by
    intro b listed
    simp only [block, Value.blocks, Value.blocksOfEach, List.append_nil, List.nil_append,
      List.mem_cons, List.not_mem_nil, or_false] at listed
    rcases listed with rfl | rfl <;> decide
  refine ⟨values block finite fits, ?_, ?_, ?_⟩
  · have regions : ∀ g ∈ q.regions, g.rectangle.Fits := by
      intro g listed
      obtain rfl := List.mem_singleton.mp listed
      exact ⟨by decide, by decide, by decide, by decide⟩
    have bounds : q.options.maxIterations < indexBound := by decide
    exact (requests q (by decide +kernel) ⟨regions, bounds⟩).2 ["forceCalculation"]
      ["maxIterations"] (by decide)
  · exact events e (Results.finite_empty.insert finite)
      (Results.fits_empty.insert ⟨by decide, by decide⟩ fits)
  · exact shapes _ (.here rfl rfl rfl rfl rfl (by decide))

end Recalc
