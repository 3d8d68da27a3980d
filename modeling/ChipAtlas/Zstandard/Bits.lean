/-!
# Bits of packed data

Packed data holds numbers whose widths are not whole bytes. Bits are counted from the lowest bit of
the first byte. Descriptions of codes are read forwards, from a position on. What is written in a
code is read backwards, from the highest bit of the last byte that is set; that bit itself only
marks the end.

* `bitsAt` — the number that stands at a position;
* `Tape` — bits that are read backwards.
-/

namespace ChipAtlas.Zstandard

/-- The byte at a place. Beyond the end there are zeros. -/
def byteAt (bytes : ByteArray) (i : Nat) : Nat := if h : i < bytes.size then bytes[i].toNat else 0

/-- The number that some bytes stand for, the lowest first. -/
def numberAt (bytes : ByteArray) (start : Nat) : Nat → Nat
  | 0 => 0
  | count + 1 => byteAt bytes start + 256 * numberAt bytes (start + 1) count

/-- The number that some bits stand for, the lowest first. -/
def bitsAt (bytes : ByteArray) (start count : Nat) : Nat :=
  numberAt bytes (start / 8) ((start % 8 + count + 7) / 8) >>> (start % 8) % 1 <<< count

/-- How many bits are looked at together. -/
def word : Nat := 64

/-- Bits that are read backwards: the first of the bytes' bits that are left. -/
structure Tape where
  bytes : ByteArray
  left : Nat

namespace Tape

/-- The bits in front of the mark in the last byte. -/
def ofBytes? (bytes : ByteArray) : Option Tape :=
  let last := byteAt bytes (bytes.size - 1)
  if last = 0 then none else some ⟨bytes, 8 * (bytes.size - 1) + last.log2⟩

/-- The next bits, with zeros below them if fewer are left. -/
def peek (t : Tape) (count : Nat) : Nat :=
  if count ≤ t.left then bitsAt t.bytes (t.left - count) count
  else bitsAt t.bytes 0 t.left <<< (count - t.left)

/-- The next bits in front of a place. Where there are none left, those of the first word come
again, from its end on. -/
def peekRound (bytes : ByteArray) (left : Int) (count : Nat) : Nat :=
  peek ⟨bytes, if 0 < left then left.toNat else word - (-left % word).toNat⟩ count

/-- Passes over bits, if so many are left. -/
def skip? (t : Tape) (count : Nat) : Option Tape :=
  if count ≤ t.left then some { t with left := t.left - count } else none

/-- Takes the next bits, if so many are left. -/
def take? (t : Tape) (count : Nat) : Option (Nat × Tape) := (t.peek count, ·) <$> t.skip? count

end Tape

end ChipAtlas.Zstandard
