import ChipAtlas.Zstandard.Earlier.Additions

/-!
# Compressed blocks of earlier editions

* `Earlier.readBlock?` — reads a compressed block into the memory.
-/

namespace ChipAtlas.Zstandard.Earlier

/-- Whether a block is too long. -/
def tooLong (e : Edition) (size : Nat) : Bool :=
  if e = .fourth then longestBlock < size else longestBlock ≤ size

/-- Reads a compressed block into the memory. -/
def readBlock? (e : Edition) (block : ByteArray) (c : Carried) (ring : Ring) :
    Option (Carried × Ring) := do
  if tooLong e block.size then failure
  let literals ← literals? e block
  let r : Sequences.Reel := { ring, literals, distances := c.distances }
  let (c, r) ←
    if e = .fourth ∨ e = .fifth then
      (c, ·) <$> readAddedSequences? e block literals.stop r
    else readSequences? e block literals.stop c r
  return (c, ← r.close? ring.room)

end ChipAtlas.Zstandard.Earlier
