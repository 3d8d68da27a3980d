import ChipAtlas.Reading.Script

/-!
# Routing

The routing section is a sequence of wire regions: leading ones, sixteen fixed ones, ones that carry
an index line, and trailing ones, whose number depends on the variant. A legacy file has a second
section of regions.
-/

namespace ChipAtlas

/-- A wire region: a header of four zeros and a count, and that many entries. -/
structure WireRegion where
  header : Record
  entries : List Record
  deriving DecidableEq, Repr

/-- A wire region behind an index line. -/
structure IndexedRegion where
  index : Record
  region : WireRegion
  deriving DecidableEq, Repr

/-- The routing section. -/
structure Routing where
  counts : Record
  leading : List WireRegion
  fixed : List WireRegion
  indexed : List IndexedRegion
  trailing : List WireRegion
  deriving DecidableEq, Repr

/-- The second routing section of a legacy file. -/
structure LegacyRouting where
  regions : List WireRegion
  extra : List Record
  deriving DecidableEq, Repr

/-- One wire region. The entries are ciphered but for the field at position 1. -/
def WireRegion.script : Script WireRegion := do
  let header ← Script.fields []
  -- the four numbers in front of the count have to be zeros
  let _ ← Script.forEach 4 fun i => Script.expectZero header i
  let n ← Script.count header 4
  let entries ← Script.times n (Script.fieldsBut [1])
  return { header, entries }

/-- Wire regions as records numbered from the given number on. -/
def WireRegion.scripts (n first : Nat) : Script (List WireRegion) :=
  Script.forEach n fun i => do
    .setRecord (first + i) (.done ())
    WireRegion.script

/-- A wire region behind an index line, which carries its position counted from zero or from one. -/
def IndexedRegion.script (position : Nat) : Script IndexedRegion := do
  let index ← Script.fields []
  let found ← Script.count index 0
  -- files count from zero or from one, and both are taken
  if found ≠ position + 1 ∧ found ≠ position then
    .refuse (.indexEcho s!"{position + 1} or {position}" (toString found))
  let region ← WireRegion.script
  return { index, region }

namespace Routing

/-- The number of fixed regions. -/
def fixedRegions : Nat := 16

/-- The number of trailing regions in a file of a variant. -/
def trailingRegions : Variant → Nat
  | .current => 9
  | .legacy => 19

/-- All regions, in file order. -/
def regions (r : Routing) : List WireRegion :=
  r.leading ++ r.fixed ++ r.indexed.map (·.region) ++ r.trailing

/-- The number of entries in all regions. -/
def entryCount (r : Routing) : Nat := (r.regions.flatMap (·.entries)).length

/-- The routing section of a file of a variant. -/
def script (variant : Variant) : Script Routing := do
  .enter .routing (.done ())
  let counts ← Script.fields []
  let leadingCount ← Script.count counts 0
  let indexedCount ← Script.count counts 1
  let leading ← WireRegion.scripts leadingCount 0
  let fixed ← WireRegion.scripts fixedRegions leadingCount
  -- the records are counted on from one kind of region to the next
  let firstIndexed := leadingCount + fixedRegions
  let indexed ← Script.forEach indexedCount fun i => do
    .setRecord (firstIndexed + i) (.done ())
    IndexedRegion.script i
  let trailing ← WireRegion.scripts (trailingRegions variant) (firstIndexed + indexedCount)
  let routing := { counts, leading, fixed, indexed, trailing : Routing }
  .note (.routingRead routing.entryCount) (.done ())
  return routing

end Routing

/-- The second routing section of a legacy file. -/
def LegacyRouting.script : Script LegacyRouting := do
  .enter .legacyRouting (.done ())
  let n ← Script.count (← Script.fields []) 0
  let regions ← WireRegion.scripts n 0
  .setRecord n (.done ())
  -- the extra lines are one record, behind the regions
  let extra ← Script.countedLines [0]
  return { regions, extra }

end ChipAtlas
