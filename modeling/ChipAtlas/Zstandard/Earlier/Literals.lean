import ChipAtlas.Zstandard.Edition
import ChipAtlas.Zstandard.Literals

/-!
# Literals of earlier editions

Literals of an earlier edition stand in front of a block as well, but the numbers that tell their
layout are written in other ways: from the fifth edition on with the highest bit first, and before
it always in the same widths. Codes of weights end differently before the sixth edition.

* `Earlier.literals?` — the literals of a block.
-/

namespace ChipAtlas.Zstandard.Earlier

/-- How literals are told. -/
inductive Telling where
  /-- In a code. -/
  | coded
  /-- As they are. -/
  | plain
  /-- As one byte that is meant many times. -/
  | repeated
  deriving DecidableEq

/-- The number that some bits stand for, the highest first, counted from the highest bit of the
first byte. -/
def highBitsAt (bytes : ByteArray) (start count : Nat) : Nat :=
  let last := (start + count + 7) / 8
  let number := (List.range' (start / 8) (last - start / 8)).foldl
    (fun n i => 256 * n + byteAt bytes i) 0
  number >>> (8 * last - (start + count)) % 1 <<< count

/-- The layout of literals from the fifth edition on. A code that was told before is not looked for,
since only dictionaries tell codes that are used again. -/
def layout? (block : ByteArray) : Option (Telling × Literals.Layout) :=
  let form := highBitsAt block 2 2
  let coded : Literals.Layout :=
    let width := match form with
      | 2 => 14
      | 3 => 18
      | _ => 10
    ⟨(4 + 2 * width) / 8, highBitsAt block 4 width, highBitsAt block (4 + width) width, form ≠ 1⟩
  let plain : Literals.Layout :=
    let (header, count) := match form with
      | 2 => (2, highBitsAt block 4 12)
      | 3 => (3, highBitsAt block 4 20)
      | _ => (1, highBitsAt block 3 5)
    ⟨header, count, count, false⟩
  match highBitsAt block 0 2 with
  | 0 => if block.size < 5 then none else some (.coded, coded)
  | 1 => none
  | 2 => some (.plain, plain)
  | _ => some (.repeated, plain)

/-- The layout of literals in the fourth edition. -/
def oldLayout? (block : ByteArray) : Option (Telling × Literals.Layout) :=
  let count := bitsAt block 2 22
  match bitsAt block 0 2 with
  | 0 => some (.coded, ⟨5, bitsAt block 2 19, bitsAt block 21 19, true⟩)
  | 1 => some (.plain, ⟨3, count, count, false⟩)
  | 2 => some (.repeated, ⟨3, count, count, false⟩)
  | _ => none

/-- The number of bytes that a block has at least. -/
def leastBlock (e : Edition) : Nat := if e = .fourth then 11 else 3

/-! ### Codes -/

/-- The most states of a code of weights. -/
def weightLimit : Nat := 12

/-- Weights that are told by two states in turn, in no more than the given number of steps, until
both are the first state and no bits are left. If no symbol has half of the states, the end of the
bits ends the weights as well. -/
def oldWeightsFrom? (c : StateCode) (even : Bool) : Nat → Nat → Nat → Tape → Option (List Nat)
  | 0, n, other, t => if t.left = 0 ∧ n = 0 ∧ other = 0 then some [] else none
  | steps + 1, n, other, t =>
    if t.left = 0 ∧ (even ∨ n = 0) then if n = 0 ∧ other = 0 then some [] else none
    else do
      let s ← c.state? n
      let (more, t) ← t.take? s.bits
      (s.symbol :: ·) <$> oldWeightsFrom? c even steps other (s.base + more) t

/-- Whether no symbol of a code has half of the states or more. -/
def isEven (c : StateCode) : Bool :=
  c.states.all fun s => 2 * c.states.countP (·.symbol = s.symbol) < c.states.size

/-- Weights that are written in a code with states, before the sixth edition. -/
def oldWeights? (bytes : ByteArray) : Option (List Nat) := do
  let (code, start) ← StateCode.read? bytes weightLimit 256 0
  let t ← Tape.ofBytes? (bytes.extract start bytes.size)
  let (n, t) ← t.take? code.log
  let (other, t) ← t.take? code.log
  oldWeightsFrom? code (isEven code) 255 n other t

/-- The numbers of weights of one that are told by a single byte, and the first such byte. -/
def ones : List Nat × Nat := ([1, 2, 3, 4, 7, 8, 15, 16, 31, 32, 63, 64, 127, 128], 242)

/-- The code described at the beginning, and the place behind it. -/
def code? (e : Edition) (bytes : ByteArray) : Option (PrefixCode × Nat) := do
  let first := byteAt bytes 0
  if ones.2 ≤ first then
    return (← PrefixCode.ofWeights? false (.replicate (ones.1.getD (first - ones.2) 0) 1), 1)
  else if e = .fourth ∨ e = .fifth then PrefixCode.readBy? oldWeights? false bytes
  else PrefixCode.readBy? (PrefixCode.codedWeights? weightLimit) false bytes

/-! ### Literals -/

/-- Bytes that are not in a code, though their layout is that of such bytes. Before the seventh
edition, their length tells whether they stand there as they are, or as one byte. -/
def uncoded? (e : Edition) (count : Nat) (written : ByteArray) : Option ByteArray :=
  if e = .seventh ∨ count = 0 then none
  else if written.size = count then if e = .fifth then none else some written
  else if written.size = 1 then some ⟨.replicate count (.ofNat (byteAt written 0))⟩
  else none

/-- Bytes that are described by a code and what follows it. -/
def coded? (e : Edition) (l : Literals.Layout) (written : ByteArray) : Option ByteArray := do
  if l.divided ∧ (l.count ≤ written.size ∨ written.size ≤ 1) then uncoded? e l.count written
  else
    let (code, start) ← code? e written
    let written := written.extract start written.size
    if l.divided then Coded.inTurn? code written (← Coded.bounds? l.count written)
    else Coded.decode? code l.count written

/-- How many bytes beyond its end a copy of literals may touch. -/
def slack : Nat := 8

/-- The literals of a block of an earlier edition. Those that are followed by enough other bytes are
used where they stand. Others are copied, in the fourth edition from the start of the block. -/
def literals? (e : Edition) (block : ByteArray) : Option Literals := do
  if block.size < leastBlock e then failure
  let (telling, l) ← if e = .fourth then oldLayout? block else layout? block
  let stop := l.header + if telling = .repeated then 1 else l.length
  if block.size < stop ∨ longestBlock < l.count then failure
  let copy (bytes : ByteArray) : Literals :=
    ⟨bytes ++ ⟨.replicate slack 0⟩, l.count, none, stop, true⟩
  match telling with
  | .coded => return copy (← coded? e l (block.extract l.header stop))
  | .plain =>
    if stop + slack ≤ block.size then
      return ⟨block.extract l.header block.size, l.count, none, stop, false⟩
    else if e = .fourth then return copy (block.extract 0 l.count)
    else return copy (block.extract l.header stop)
  | .repeated =>
    let store := .replicate (l.count + slack) (.ofNat (byteAt block l.header))
    return ⟨⟨store⟩, l.count, none, stop, true⟩

end ChipAtlas.Zstandard.Earlier
