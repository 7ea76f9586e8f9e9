import Recalc.Dependency.Dirty

/-!
# Calculation requests

A request carries dirty marks as its sender wrote them, options, and whether everything is to be
computed. A request that replaces an unfinished one takes over its marks.
-/

namespace Recalc

/-- How a calculation treats cycles. -/
structure Options where
  iterative : Bool
  maxIterations : Nat
  tolerance : Float

namespace Options

/-- No iteration; where it is turned on later, a hundred sweeps and a millionth. -/
def standard : Options :=
  ⟨false, 100, 1e-6⟩

def iterating (maxIterations : Nat) (tolerance : Float) : Options :=
  ⟨true, maxIterations, tolerance⟩

end Options

/-- New display names by unit and sheet id. -/
abbrev RenameMap := SortedMap String (SortedMap String String)

/-- Defined names by unit. -/
abbrev NameMap := SortedMap String (SortedSet String)

/-- Feature ids by unit and sheet id. -/
abbrev FeatureMap := SortedMap String (SortedMap String (SortedSet String))

structure Request where
  regions : List Region
  renames : RenameMap
  names : NameMap
  features : FeatureMap
  options : Options
  forced : Bool

namespace Request

def empty : Request :=
  ⟨[], ∅, ∅, ∅, .standard, false⟩

def full : Request :=
  { empty with forced := true }

def withRegion (q : Request) (r : Region) : Request :=
  { q with regions := q.regions ++ [r] }

/-- Adds a rename, which replaces an earlier one of the same sheet. -/
def withRename (q : Request) (unit sheet name : String) : Request :=
  { q with renames := q.renames.update unit ∅ fun sheets => sheets.insert sheet name }

def withName (q : Request) (unit name : String) : Request :=
  { q with names := q.names.update unit ∅ fun names => names.insert (Text.asciiUpper name) }

def withFeature (q : Request) (key : FeatureKey) : Request :=
  { q with features := q.features.update key.unit ∅ fun sheets =>
      sheets.update key.sheet ∅ fun ids => ids.insert key.feature }

def withOptions (q : Request) (options : Options) : Request :=
  { q with options }

/-! ### Taking over an unfinished request -/

/-- The first list, and what of the second it lacks, each once. -/
def joinRegions (mine earlier : List Region) : List Region :=
  earlier.foldl (fun acc r => if acc.contains r then acc else acc ++ [r]) mine

/-- Takes over the marks of an unfinished request. The newer request keeps its options and its name
for a sheet that both rename. -/
def absorb (q earlier : Request) : Request where
  regions := joinRegions q.regions earlier.regions
  renames := q.renames.unionWith (SortedMap.unionWith fun mine _ => mine) earlier.renames
  names := q.names.unionWith SortedSet.union earlier.names
  features := q.features.unionWith (SortedMap.unionWith SortedSet.union) earlier.features
  options := q.options
  forced := q.forced || earlier.forced

/-- The units that a request mentions, in ascending order. Results for them are its own; all others
are results for other units. -/
def homeUnits (q : Request) : SortedSet String :=
  let units := q.regions.map Region.unit ++ q.renames.keys ++ q.names.keys ++ q.features.keys
  units.foldl (fun set u => set.insert u) ∅

/-! ### Marks and plans -/

def marks (q : Request) (volatiles : Bool) : DirtyMarks :=
  let m := q.regions.foldl DirtyMarks.markRegion .empty
  let m := q.renames.foldl (fun m unit sheets =>
    sheets.foldl (fun m sheet name => m.markRename unit sheet name) m) m
  let m := q.names.foldl (fun m unit names =>
    names.foldl (fun m name => m.markName unit name) m) m
  let m := q.features.foldl (fun m unit sheets =>
    sheets.foldl (fun m sheet ids =>
      ids.foldl (fun m feature => m.markFeature ⟨unit, sheet, feature⟩) m) m) m
  if volatiles then m.markVolatiles else m

/-- The schedule of a request over a graph: everything, or what its marks affect. -/
def schedule (q : Request) (g : DependencyGraph) (volatiles : Bool) : Schedule :=
  if q.forced then g.dependencies.schedule g.all else (q.marks volatiles).schedule g

end Request

end Recalc
