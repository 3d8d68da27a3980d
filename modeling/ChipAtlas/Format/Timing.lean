import ChipAtlas.Reading.Script

/-!
# Timing

The timing library has four parts, sized by the counts behind its tag: pairs of names, pairs with
two lines each, pairs with three lines each, and nests, which hold a list of items of two lines and
are closed by a blank line. The records of all four parts are counted on.

The serial transceivers have two lists of their own, or a blank line in their place.
-/

namespace ChipAtlas

/-- A pair of names with a few lines. -/
structure TimingGroup where
  head : Record
  body : List Record
  deriving DecidableEq, Repr

/-- A nest: its head, which counts the items, two lines, and the items. -/
structure TimingNest where
  head : Record
  body : List Record
  items : List (Record × Record)
  deriving DecidableEq, Repr

/-- The timing library. -/
structure TimingLib where
  tag : Record
  pairs : List Record
  twoLine : List TimingGroup
  threeLine : List TimingGroup
  nests : List TimingNest
  deriving DecidableEq, Repr

/-- The lists of the serial transceivers. -/
structure Serdes where
  pcie : List Record
  serdes : List Record
  deriving DecidableEq, Repr

/-- A pair of names with a number of lines. -/
def TimingGroup.script (lines : Nat) : Script TimingGroup := do
  let head ← Script.fields [0, 1]
  let body ← Script.times lines (Script.fields [])
  return { head, body }

/-- An item of a nest: a ciphered line and a plain one. -/
def TimingNest.itemScript : Script (Record × Record) := do
  let first ← Script.fields [0]
  let second ← Script.fields []
  return (first, second)

/-- A nest. -/
def TimingNest.script : Script TimingNest := do
  let head ← Script.fields [0]
  let n ← Script.count head 2
  let body ← Script.times 2 (Script.fields [])
  let items ← Script.times n itemScript
  Script.blankLine
  return { head, body, items }

namespace TimingLib

/-- A part of the library: a number of alike records, counted on from a number. -/
def part {α : Type} (n first : Nat) (m : Script α) : Script (List α) :=
  Script.forEach n fun i => do
    .setRecord (first + i) (.done ())
    m

/-- The timing library. -/
def script : Script TimingLib := do
  .enter .timing (.done ())
  let tag ← Script.fields [0]
  Script.expectTag tag "TimingLib"
  let n₁ ← Script.count tag 1
  let n₂ ← Script.count tag 2
  let n₃ ← Script.count tag 3
  let n₄ ← Script.count tag 4
  -- the records of the four parts are counted on
  let pairs ← part n₁ 0 (Script.fields [0, 1])
  let twoLine ← part n₂ n₁ (TimingGroup.script 2)
  let threeLine ← part n₃ (n₁ + n₂) (TimingGroup.script 3)
  let nests ← part n₄ (n₁ + n₂ + n₃) TimingNest.script
  return { tag, pairs, twoLine, threeLine, nests }

end TimingLib

/-- The lists of the serial transceivers, if the next line is not blank. -/
def Serdes.script : Script (Option Serdes) := do
  .enter .serdes (.done ())
  -- a blank line stands for both lists
  if ← .peekBlank .done then
    Script.blankLine
    return none
  let pcie ← Script.countedLines [0]
  .setRecord 1 (.done ())
  let serdes ← Script.countedLines [0]
  return some { pcie, serdes }

end ChipAtlas
