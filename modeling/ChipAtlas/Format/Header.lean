import ChipAtlas.Reading.Script

/-!
# The header

A file opens with a banner, a line with a magic word, the key and the number of architectures, and
one line for each architecture with its ciphered name. From the key line on, fields are ciphered.
-/

namespace ChipAtlas

/-- The opening lines of a file. -/
structure Header where
  banner : Record
  magic : String
  key : String
  variant : Variant
  architectures : List Record
  deriving DecidableEq, Repr

/-- The banner, the key line and the architecture names. -/
def Header.script : Script Header := do
  .enter .header (.done ())
  let banner ← Script.fields []
  let keyLine ← Script.fields []
  let magic ← Script.field keyLine 0
  let key ← Script.field keyLine 1
  let n ← Script.count keyLine 2
  -- the number of names is read from the line that gives the key, before there is a key stream
  .setKey key (.done ())
  let architectures ← Script.forEach n fun i => do
    .setRecord i (.done ())
    Script.fields [0]
  return { banner, magic, key, variant := .ofKey key, architectures }

end ChipAtlas
