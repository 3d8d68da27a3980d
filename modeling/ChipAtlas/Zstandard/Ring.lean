import ChipAtlas.Zstandard.Bits

/-!
# The memory of what was read

Blocks repeat what was read before, so a frame is read into a memory. The memory has limited room.
When the next block might not fit, the reading turns around and puts it at the front, over the
oldest bytes. What was read before the turn is still there as long as nothing is put over it.

Most copies are done in groups of bytes. What the last group of a copy holds beyond its end is put
into the memory as well, and spoils what was read before the turn there.

* `Copying` — how many bytes a copy takes in;
* `Ring` — the memory, with the round that is going on and the one before;
* `Ring.append`, `Ring.appendFrom` — puts bytes behind the others, just these or by a copy;
* `Ring.repeatBack` — repeats bytes from a distance back, if need be from the round before.
-/

namespace ChipAtlas.Zstandard

/-! ### Copies -/

/-- How bytes are copied: just these, or in groups of so many. -/
inductive Copying where
  | single
  | eights
  | sixteens

namespace Copying

/-- A number of bytes, filled up to groups of some size. -/
def filled (size count : Nat) : Nat := (count + size - 1) / size * size

/-- A number of bytes in a group of sixteen and pairs of such groups. -/
def inSixteens (count : Nat) : Nat := 16 + filled 32 (count - 16)

/-- How many bytes a copy from a store takes in, if a number is to be copied. -/
def fromStore (c : Copying) (count : Nat) : Nat :=
  match c with
  | single => count
  | eights => max 8 (filled 8 count)
  | sixteens => if count ≤ 16 then 16 else 16 + inSixteens (count - 16)

/-- How many bytes a copy from a distance back takes in. -/
def fromBehind (c : Copying) (distance count : Nat) : Nat :=
  match c with
  | single => count
  | eights => max 16 (filled 8 count)
  | sixteens => if distance < 16 then filled 8 count else inSixteens count

end Copying

/-! ### The memory -/

/-- A memory: what its places hold, how many there are, where the next byte is put, and where the
round before ended. -/
structure Ring where
  bytes : ByteArray := .empty
  room : Nat
  place : Nat := 0
  turn : Nat := 0

namespace Ring

/-- How many bytes still fit into this round. -/
def left (r : Ring) : Nat := r.room - r.place

/-- How many bytes back the memory reaches. -/
def reach (r : Ring) : Nat := r.place + r.turn

/-- Puts a byte behind the others. -/
def push (r : Ring) (b : UInt8) : Ring :=
  { r with
    bytes := if r.place < r.bytes.size then r.bytes.set! r.place b else r.bytes.push b
    place := r.place + 1 }

/-- Puts bytes behind the others. -/
def append (r : Ring) (new : ByteArray) : Ring :=
  { r with
    bytes := new.copySlice 0 r.bytes r.place new.size false
    place := r.place + new.size }

/-- Puts a number of bytes behind the others by a copy from a place of a store. What the copy takes
in beyond them spoils what it is put over. -/
def appendFrom (r : Ring) (c : Copying) (store : ByteArray) (start count : Nat) : Ring :=
  let r := r.append (store.extract start (start + count))
  -- only what was read before the turn can be spoilt: beyond it the memory is still unused
  let spoilt := min (c.fromStore count) (count + r.turn - r.place)
  let more := store.extract (start + count) (start + spoilt)
  if r.place < r.turn then { r with bytes := more.copySlice 0 r.bytes r.place more.size false }
  else r

/-- Repeats bytes of this round, one after the other, so that they may overlap what they are put
behind. -/
def repeatNear (distance : Nat) : Nat → Ring → Ring
  | 0, r => r
  | count + 1, r =>
    repeatNear distance count (r.push (.ofNat (byteAt r.bytes (r.place - distance))))

/-- Repeats bytes of this round by a copy, if there are any to repeat. -/
def repeatBy (c : Copying) (distance count : Nat) (r : Ring) : Ring :=
  -- behind the bytes nothing from before the turn is left that a group could spoil
  if count = 0 ∨ r.turn ≤ r.place + count then repeatNear distance count r
  else { repeatNear distance (c.fromBehind distance count) r with place := r.place + count }

/-- Repeats bytes from a distance back. Those of the round before are taken all at once, as they
stand before any of them is put over another. -/
def repeatBack (r : Ring) (c : Copying) (distance count : Nat) : Ring :=
  -- the bytes that are not in this round stand at the end of the one before
  let far := min count (distance - r.place)
  let start := r.reach - distance
  (r.append (r.bytes.extract start (start + far))).repeatBy c distance (count - far)

/-- Turns around if so many bytes might not fit. -/
def turnFor (r : Ring) (size : Nat) : Ring :=
  if 0 < r.place ∧ r.room < r.place + size then { r with place := 0, turn := r.place } else r

end Ring

end ChipAtlas.Zstandard
