import ChipAtlas.Reading.Script

/-!
# Names, constraints and packing

Three plain sections stand between the models and the timing library: a list of names, a list of
constraints, and the packing rules, which end with a line of their own.
-/

namespace ChipAtlas

/-- The packing rules. -/
structure Pack where
  header : Record
  entries : List Record
  kcap : Record
  deriving DecidableEq, Repr

/-- The list of names. -/
def namesScript : Script (List Record) := do
  .enter .names (.done ())
  Script.countedLines [0]

/-- The list of constraints, ciphered but for their first fields. -/
def constraintsScript : Script (List Record) := do
  .enter .constraints (.done ())
  let n ← Script.count (← Script.fields []) 0
  Script.forEach n fun i => do
    .setRecord i (.done ())
    Script.fieldsBut [0]

/-- The packing rules and the line behind them. -/
def Pack.script : Script Pack := do
  .enter .pack (.done ())
  let header ← Script.fields []
  Script.expectTag header "pack"
  let n ← Script.count header 1
  let entries ← Script.times n (Script.fields [0])
  -- the line behind the rules has a tag of its own
  let kcap ← Script.fields []
  Script.expectTag kcap "kcap"
  return { header, entries, kcap }

end ChipAtlas
