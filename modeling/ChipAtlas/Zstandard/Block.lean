import ChipAtlas.Zstandard.Earlier.Block
import ChipAtlas.Zstandard.Header

/-!
# Blocks

The content of a frame is written in blocks. Three bytes in front of each tell its kind and size. A
block is stored as it is, or as one byte that is meant many times, or compressed. In the present
edition they also tell which block is the last; before, a kind of its own ends the frame.

* `BlockHead.at?` — what the three bytes at a place say;
* `BlockHead.read?` — reads a block into the memory.
-/

namespace ChipAtlas.Zstandard

/-- How a block is written. -/
inductive BlockKind where
  | stored
  | repeated
  | compressed
  /-- No block, but the end of the frame. -/
  | ending
  deriving DecidableEq

/-- What stands in front of a block. The size is that of the content where one byte is repeated,
and otherwise the number of bytes that follow. Where a frame ends, a digest takes the place of
the size. -/
structure BlockHead where
  kind : BlockKind
  size : Nat
  last : Bool

namespace BlockHead

/-- The number of bytes in front of a block. -/
def width : Nat := 3

/-- What stands in front of a block at a place. -/
def at? (e : Edition) (file : ByteArray) (place : Nat) : Option BlockHead :=
  if e = .present then do
    let head := numberAt file place width
    let kind ← [BlockKind.stored, .repeated, .compressed][head / 2 % 4]?
    return ⟨kind, head / 8, head % 2 = 1⟩
  else do
    let first := byteAt file place
    let kind ← [BlockKind.compressed, .stored, .repeated, .ending][first / 64]?
    let high := first % if kind = .ending then 64 else 8
    return ⟨kind, high <<< 16 + byteAt file (place + 1) <<< 8 + byteAt file (place + 2), false⟩

/-- How many bytes follow. -/
def length (h : BlockHead) : Nat :=
  match h.kind with
  | .repeated => 1
  | .ending => 0
  | _ => h.size

/-- Reads a block, or what is there of a stored one, into the memory. Only the present edition knows
blocks of one byte that is meant many times. -/
def read? (h : BlockHead) (frame : Header) (whole : Bool) (block : ByteArray) (c : Carried)
    (r : Ring) : Option (Carried × Ring) :=
  match h.kind with
  | .stored => if block.size ≤ r.left then some (c, r.append block) else none
  | .repeated =>
    if frame.edition = .present ∧ h.size ≤ r.left then
      some (c, r.append ⟨.replicate h.size (.ofNat (byteAt block 0))⟩)
    else none
  | .compressed =>
    if frame.edition = .present then readBlock? block whole frame.blockLimit c r
    else Earlier.readBlock? frame.edition block c r
  | .ending => none

end BlockHead

end ChipAtlas.Zstandard
