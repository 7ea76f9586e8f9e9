import Recalc.Dependency.Graph
import Recalc.Dependency.Schedule

/-!
# Dirty marks

Marks say what has changed: regions, renamed sheets, defined names, features, and whether volatile
formulas are to be computed anew. The formulas that a mark touches are the seeds; affected are the
seeds and all formulas that read them, directly or through others.
-/

namespace Recalc

/-- What has changed since the last calculation. -/
structure DirtyMarks where
  regions : List Region
  renames : SortedMap Scoped String
  names : SortedSet Scoped
  features : SortedSet FeatureKey
  volatiles : Bool

namespace DirtyMarks

def empty : DirtyMarks :=
  ⟨[], ∅, ∅, ∅, false⟩

/-- Marks a region, unless an earlier mark covers it. -/
def markRegion (m : DirtyMarks) (r : Region) : DirtyMarks :=
  if m.regions.any fun earlier => earlier.covers r then m
  else { m with regions := m.regions ++ [r] }

def markRename (m : DirtyMarks) (unit sheet newName : String) : DirtyMarks :=
  { m with renames := m.renames.insert ⟨unit, sheet⟩ newName }

def markName (m : DirtyMarks) (unit name : String) : DirtyMarks :=
  { m with names := m.names.insert ⟨unit, Text.asciiUpper name⟩ }

def markFeature (m : DirtyMarks) (key : FeatureKey) : DirtyMarks :=
  { m with features := m.features.insert key }

def markVolatiles (m : DirtyMarks) : DirtyMarks :=
  { m with volatiles := true }

def isEmpty (m : DirtyMarks) : Bool :=
  m.regions.isEmpty && m.renames.isEmpty && m.names.isEmpty && m.features.isEmpty && !m.volatiles

/-- Whether a rename touches a sheet name: the sheet it stood for has another name now, or the new
name is the one that is used. A name that stood for no sheet may have stood for the renamed one. -/
def renameTouches (key : Scoped) (newName : String) (use : SheetNameUse) : Bool :=
  key.unit == use.unit &&
    match use.sheet with
    | some sheet => sheet == key.name || Text.sameIgnoringCase use.name newName
    | none => true

/-- Whether a mark touches a formula directly. -/
def touches (m : DirtyMarks) (v : Vertex) : Bool :=
  (v.isVolatile && m.volatiles)
    || (m.regions.any fun r => r.contains v.address || v.readsFrom r)
    || (v.precedents.sheetNames.any fun use =>
      m.renames.toList.any fun (key, newName) => renameTouches key newName use)
    || v.precedents.names.any m.names.contains
    || v.precedents.features.any m.features.contains

/-- The formulas that a mark touches, in ascending order. -/
def seeds (m : DirtyMarks) (g : DependencyGraph) : List Nat :=
  g.select m.touches

/-- The seeds and all formulas that read them, in ascending order. -/
def affected (m : DirtyMarks) (g : DependencyGraph) : List Nat :=
  g.readers.reachable (m.seeds g)

def schedule (m : DirtyMarks) (g : DependencyGraph) : Schedule :=
  g.dependencies.schedule (m.affected g)

end DirtyMarks

end Recalc
