import ChipAtlas.Reading.Script

/-!
# Models

The model section describes primitives: a model is a row of groups of leaves. The head of a leaf
carries a selector, which tells which fields of its body are ciphered.
-/

namespace ChipAtlas

/-- A leaf of a model: its head and its body. -/
structure ModelLeaf where
  head : Record
  body : Record
  deriving DecidableEq, Repr

/-- A model: its header, which sizes the groups, and the groups of leaves. -/
structure Model where
  header : Record
  groups : List (List ModelLeaf)
  deriving DecidableEq, Repr

/-- The ciphered fields of a leaf's body, by the selector of its head. -/
def ModelLeaf.cipheredFields (selector : UInt32) : Option (List Nat) :=
  if selector = 1 then some [1]
  else if selector = 2 then some [1, 5]
  else if selector = 3 then some [1, 5, 9]
  else none

/-- One leaf. -/
def ModelLeaf.script : Script ModelLeaf := do
  let head ← Script.fields [0]
  let selector ← Script.number Text.uint32? head 2
  match cipheredFields selector with
  | none => .refuse (.badSelector selector)
  | some indices => return { head, body := ← Script.fields indices }

namespace Model

/-- One model. -/
def script : Script Model := do
  let header ← Script.fields []
  let n ← Script.count header 0
  let groups ← Script.forEach n fun g => do
    -- behind the number of groups stand their sizes
    let leaves ← Script.count header (g + 1)
    Script.times leaves ModelLeaf.script
  return { header, groups }

/-- The model section. -/
def allScript : Script (List Model) := do
  .enter .models (.done ())
  let n ← Script.count (← Script.fields []) 0
  let models ← Script.forEach n fun i => do
    .setRecord i (.done ())
    script
  .note (.modelsRead models.length) (.done ())
  return models

end Model

end ChipAtlas
