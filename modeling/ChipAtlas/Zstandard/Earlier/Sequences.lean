import ChipAtlas.Zstandard.Earlier.Literals
import ChipAtlas.Zstandard.Sequences

/-!
# Sequences of the sixth and seventh editions

The sequences of these editions are written like those of the present one. They differ in which of
the last distances the least numbers stand for, and it is not asked whether they use up their tape.

* `Earlier.readSequences?` — carries out the sequences of a block.
-/

namespace ChipAtlas.Zstandard.Earlier

/-- How many bytes have to be there where a code is described. -/
def leastCode : Nat := 4

/-- The fields of a sequence. -/
def fields : Triple Field where
  literals := { literalField with least := leastCode }
  distance := { distanceField with
    magnitudes := (magnitudesFrom 1 (List.range 29)).toArray
    least := leastCode }
  length := { lengthField with least := leastCode }

/-- The way that a number means in the present edition. -/
def way : Nat → Nat
  | 2 => 3
  | 3 => 2
  | w => w

/-- The last three distances after a sequence. The first three numbers stand for the last distances;
where no literals come in front, the first two of them change places. -/
def distances (s : Triple Nat) (last : Nat × Nat × Nat) : Nat × Nat × Nat :=
  let (a, b, c) := last
  match s.distance, s.literals with
  | 1, 0 => (b, a, c)
  | 2, 0 => (a, b, c)
  | 1, _ => (a, b, c)
  | 2, _ => (b, a, c)
  | 3, _ => (c, a, b)
  | d, _ => (d - 3, a, b)

/-- Where at least so much room is left behind them, bytes are repeated in groups. -/
def ample : Nat := 12

/-- The next literals, and what is repeated behind them, if there is room for both. -/
def advance? (r : Sequences.Reel) (literals distance length : Nat) : Option Sequences.Reel :=
  if r.ring.left < literals + max slack length then none
  else
    let copying := if literals + length + ample ≤ r.ring.left then .eights else .single
    r.advance? copying literals distance length

/-- Carries out a sequence. -/
def perform? (s : Triple Nat) (r : Sequences.Reel) : Option Sequences.Reel := do
  let distances := distances s r.distances
  let r ← advance? r s.literals distances.1 s.length
  return { r with distances }

/-- The numbers of the last sequence, for which the bits need not suffice. -/
def lastNumbers? (s : Triple State) (t : Tape) : Option (Triple Nat) := do
  let number (f : Field) (s : State) (left : Int) : Option (Nat × Int) := do
    let (least, bits) ← f.magnitudes[s.symbol]?
    return (least + Tape.peekRound t.bytes left bits, left - bits)
  let (distance, left) ← number fields.distance s.distance t.left
  let (length, left) ← number fields.length s.length left
  let (literals, _) ← number fields.literals s.literals left
  return ⟨literals, distance, length⟩

/-- The distances that a block begins with. -/
def distancesBefore (e : Edition) (c : Carried) : Nat × Nat × Nat :=
  if e = .seventh then c.distances else (1, 1, 1)

/-- The sequences that start at a place of a block. Those of the seventh edition leave something to
the blocks that follow. -/
def readSequences? (e : Edition) (block : ByteArray) (start : Nat) (c : Carried)
    (r : Sequences.Reel) : Option (Carried × Sequences.Reel) := do
  let (count, place) := Sequences.countAt block start
  if block.size ≤ start then failure
  if byteAt block start = 0 then return (c, r)
  if block.size < place + 4 then failure
  let (codes, place) ← Sequences.codesBy? fields way block place c.codes
  if count = 0 then return (c, r)
  let t ← Tape.ofBytes? (block.extract place block.size)
  let (s, t) ← Sequences.first? codes t
  let (s, t, r) ← Sequences.perform? codes perform? (count - 1) s t
    { r with distances := distancesBefore e c }
  let r ← perform? (← lastNumbers? s t) r
  if e = .seventh then
    let codes := ⟨some codes.literals, some codes.distance, some codes.length⟩
    return ({ c with codes, distances := r.distances }, r)
  else return (c, r)

end ChipAtlas.Zstandard.Earlier
