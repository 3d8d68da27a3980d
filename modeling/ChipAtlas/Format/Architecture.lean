import ChipAtlas.Reading.Script

/-!
# Architectures

An architecture is described by a head, five lists behind one line of counts, a few tables, and a
row of records numbered from 3 to 41, each with two lines and five lists of its own. Apart from its
name, nothing of it is interpreted.
-/

namespace ChipAtlas

/-- A numbered record of an architecture. -/
structure IndexedRecord where
  index : UInt32
  body : List Record
  lists : List (List Record)
  deriving DecidableEq, Repr

/-- The description of an architecture. -/
structure Architecture where
  name : String
  nameLine : Record
  head : Record
  lists : List (List Record)
  dims : Record
  table : Record
  pairs : List Record
  elements : Record
  misc : List Record
  indexed : List IndexedRecord
  deriving DecidableEq, Repr

namespace Architecture

/-- The number of the first numbered record. -/
def firstIndex : Nat := 3

/-- How many numbered records there are. -/
def indexedRecords : Nat := 39

/-- A line of counts and the five lists that it sizes. -/
def listsScript : Script (List (List Record)) := do
  let counts ← Script.fields []
  Script.forEach 5 fun j => do
    let n ← Script.count counts j
    Script.times n (Script.fields [0])

/-- The positions of the ciphered fields in a line of pairs: the second of each pair. -/
def pairFields (pairs : Nat) : List Nat := (List.range pairs).map fun k => 1 + 2 * k

/-- A line of four counts, each of which, if it is not zero, announces a line of pairs. -/
def pairsScript : Script (List Record) := do
  let counts ← Script.fields []
  let lines ← Script.forEach 4 fun j => do
    let n ← Script.count counts j
    -- a count of zero has no line
    if n > 0 then return [← Script.fields (pairFields n)] else return []
  return lines.flatten

/-- A line with a count, and a line with that many fields. -/
def elementsScript : Script Record := do
  let n ← Script.count (← Script.fields []) 0
  let elements ← Script.fields []
  Script.expectLength elements n
  return elements

/-- A numbered record, which has to repeat its number. -/
def indexedScript (index : Nat) : Script IndexedRecord := do
  let line ← Script.fields []
  let found ← Script.number Text.uint32? line 0
  -- the number is known from the order of the records, and the file has to agree
  if found.toNat ≠ index then
    .refuse (.indexEcho (toString index) (toString found.toNat))
  let body ← Script.times 2 (Script.fields [])
  let lists ← listsScript
  return { index := .ofNat index, body, lists }

/-- The description of the architecture that a line of the header names. -/
def script (nameLine : Record) : Script Architecture := do
  -- the name has been deciphered with the header
  let name ← Script.field nameLine 0
  let head ← Script.fields [0, 1, 2]
  let lists ← listsScript
  let dims ← Script.fields []
  let table ← Script.fields []
  let pairs ← pairsScript
  let elements ← elementsScript
  let misc ← Script.times 4 (Script.fields [])
  let indexed ← Script.forEach indexedRecords fun i => indexedScript (firstIndex + i)
  .note (.architectureRead name indexed.length) (.done ())
  return { name, nameLine, head, lists, dims, table, pairs, elements, misc, indexed }

/-- The descriptions of all architectures that the header names. -/
def allScript (nameLines : List Record) : Script (List Architecture) := do
  .enter .architecture (.done ())
  Script.forEntries nameLines fun i nameLine => do
    .setRecord i (.done ())
    script nameLine

end Architecture

end ChipAtlas
