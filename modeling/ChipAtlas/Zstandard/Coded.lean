import ChipAtlas.Zstandard.PrefixCode

/-!
# Bytes in a code

Bytes in a code are written backwards: reading starts at the end. Many of them are divided into four
parts, which can be decoded side by side. This is done in rounds, as long as every part wants enough
bytes and the first has enough bits; then each part is finished on its own. It is not asked whether
a part is used up exactly. One may even be read a bit into the part in front of it. So a flaw in the
bits of divided bytes often does no more than change some of the bytes.

* `Coded.decode?` — the bytes in one part, which they have to use up;
* `Coded.decodeDivided?` — the bytes in four parts.
-/

namespace ChipAtlas.Zstandard.Coded

/-- A part that is being decoded: the bytes that it is read from, the byte where it starts, the bits
in front of those that were read, the place that was reached, the number of bytes wanted and the
bytes. -/
structure Part where
  source : ByteArray
  start : Nat := 0
  left : Int
  reached : Nat := 0
  count : Nat
  out : ByteArray := .empty

/-- The number of bytes that are looked at together. -/
def word : Nat := 8

namespace Part

/-- The next bits. -/
def peek (p : Part) (count : Nat) : Nat := Tape.peekRound p.source p.left count

/-- Puts what was found behind the bytes. -/
def add (p : Part) (f : PrefixCode.Find) : Part :=
  let out := p.out.push f.first
  { p with left := p.left - f.bits, out := f.second.elim out out.push }

/-- Looks up a number of times. -/
def lookUp? (c : PrefixCode) : Nat → Part → Option Part
  | 0, p => some p
  | times + 1, p => do lookUp? c times (p.add (← c.find? (p.peek c.window)))

/-- Puts the last byte behind the others. If it is found with a second one, the bits of both are
taken, but no more than there are. -/
def addLast (p : Part) (f : PrefixCode.Find) : Part :=
  let left := p.left - f.bits
  let left := if f.second.isNone then left else if p.left ≤ 0 then p.left else max 0 left
  { p with left, out := p.out.push f.first }

/-- Looks up until there are as many bytes as wanted, in no more than the given number of times. -/
def finish? (c : PrefixCode) : Nat → Part → Option Part
  | 0, p => some p
  | times + 1, p => do
    if p.count ≤ p.out.size then return p
    let f ← c.find? (p.peek c.window)
    finish? c times (if p.out.size + 1 = p.count then p.addLast f else p.add f)

end Part

/-- The given number of bytes, written in a code in one part, which they use up. -/
def decode? (c : PrefixCode) (count : Nat) (bytes : ByteArray) : Option ByteArray := do
  let t ← Tape.ofBytes? bytes
  let p ← Part.finish? c count { source := bytes, left := t.left, count }
  if p.left = 0 then return p.out else failure

/-! ### Rounds -/

/-- How often bytes are looked up in a round. -/
def timesInRound : Nat := 5

/-- How many rounds all parts have enough for: each may want so many bytes more, and the first has
to have seven bytes for each round, which is what a round takes at most. -/
def roundsLeft (c : PrefixCode) (parts : List Part) : Nat :=
  let most := if c.pairs then 2 * timesInRound else timesInRound
  let wanted := parts.map fun p => (p.count - p.out.size) / most
  wanted.foldl min (parts.head?.elim 0 (·.reached / 7))

/-- A round for a part. -/
def round? (c : PrefixCode) (p : Part) : Option Part := do
  let p ← p.lookUp? c timesInRound
  return { p with reached := (p.left.toNat + 7) / 8 - word }

/-- Rounds until the last part has a number of bytes, and further ones as long as there is enough
for them and no part has overtaken another; in no more than the given number of steps. -/
def rounds? (c : PrefixCode) : Nat → Nat → List Part → Option (List Part)
  | 0, _, parts => some parts
  | steps + 1, goal, parts => do
    let done := parts.getLast?.elim 0 (·.out.size)
    if done < goal then rounds? c steps goal (← parts.mapM (round? c))
    else
      let more := roundsLeft c parts
      let inOrder := (parts.zip parts.tail).all fun (p, q) => p.reached ≤ q.reached
      if more = 0 ∨ !inOrder then return parts
      else rounds? c steps (done + timesInRound * more) parts

/-- The bits in front of the mark in the last byte of a part. -/
def bitsBefore (bytes : ByteArray) (stop : Nat) : Nat :=
  let last := byteAt bytes (stop - 1)
  if last = 0 then 8 * stop else 8 * (stop - 1) + last.log2

/-- Decodes four parts side by side, given where they start and stop and how many bytes they are
of. -/
def sideBySide? (c : PrefixCode) (bytes : ByteArray) (bounds : List (Nat × Nat × Nat)) :
    Option ByteArray := do
  let parts := bounds.map fun (start, stop, count) =>
    { source := bytes, start, left := bitsBefore bytes stop, reached := stop - word, count : Part }
  let steps := 2 * bounds.foldl (fun sum b => sum + b.2.2) 0
  let parts ← rounds? c steps 0 parts
  let parts ← parts.mapM fun p =>
    if p.reached + word < p.start then none else p.finish? c p.count
  return parts.foldl (fun out p => out ++ p.out) .empty

/-- The least number of bytes that are divided. -/
def leastDivided : Nat := 6

/-- Where four parts of a number of bytes start and stop, and how many bytes they are of. The
lengths of the first three stand in front; the last one is of what is left over. -/
def bounds? (count : Nat) (bytes : ByteArray) : Option (List (Nat × Nat × Nat)) :=
  let part := (count + 3) / 4
  let a := 6 + bitsAt bytes 0 16
  let b := a + bitsAt bytes 16 16
  let d := b + bitsAt bytes 32 16
  if bytes.size < d then none
  else some [(6, a, part), (a, b, part), (b, d, part), (d, bytes.size, count - 3 * part)]

/-- Decodes parts one by one. -/
def inTurn? (c : PrefixCode) (bytes : ByteArray) (bounds : List (Nat × Nat × Nat)) :
    Option ByteArray := do
  let parts ← bounds.mapM fun (start, stop, count) => decode? c count (bytes.extract start stop)
  return parts.foldl (· ++ ·) .empty

/-- The given number of bytes in four parts. Short parts are decoded one by one. -/
def decodeDivided? (c : PrefixCode) (count : Nat) (bytes : ByteArray) : Option ByteArray := do
  if count < leastDivided then failure
  let bounds ← bounds? count bytes
  if c.longest ≤ 11 ∧ bounds.all (fun (start, stop, _) => start + word ≤ stop) ∧
      bounds.getLast?.any (0 < ·.2.2) then
    sideBySide? c bytes bounds
  else inTurn? c bytes bounds

end ChipAtlas.Zstandard.Coded
