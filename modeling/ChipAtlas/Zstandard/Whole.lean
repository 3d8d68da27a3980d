import ChipAtlas.Zstandard.Block
import ChipAtlas.Zstandard.Digest

/-!
# Frames that are read as a whole

A frame that is there completely, whose size is told and is wanted at once, is read in one go,
without regard to the window. It is read into the place where its content is wanted.

* `Whole.stop?` — the place behind a complete frame;
* `Whole.read?` — the content of a complete frame.
-/

namespace ChipAtlas.Zstandard.Whole

/-- The place behind the blocks from a place on, in no more than the given number of blocks, if they
are all there. -/
def blocksStop? (file : ByteArray) : Nat → Nat → Option Nat
  | 0, _ => none
  | fuel + 1, place => do
    if file.size < place + BlockHead.width then failure
    let head ← BlockHead.at? .present file place
    let stop := place + BlockHead.width + head.length
    if file.size < stop then failure
    if head.last then return stop else blocksStop? file fuel stop

/-- The place behind a frame whose blocks start at a place, if it is all there. -/
def stop? (file : ByteArray) (h : Header) (start : Nat) : Option Nat := do
  let stop := (← blocksStop? file file.size start) + if h.digest then 4 else 0
  if file.size < stop then failure else return stop

/-- Reads the blocks from a place on into the memory, in no more than the given number of blocks. -/
def readBlocks? (file : ByteArray) (h : Header) : Nat → Nat → Carried → Ring → Option Ring
  | 0, _, _, _ => none
  | fuel + 1, place, c, r => do
    let head ← BlockHead.at? .present file place
    let start := place + BlockHead.width
    let stop := start + head.length
    let (c, r) ← head.read? h true (file.extract start stop) c r
    if head.last then return r else readBlocks? file h fuel stop c r

/-- The content of a complete frame, into some room. Its size and digest must be as they are
told. -/
def read? (file : ByteArray) (h : Header) (start stop room : Nat) : Option ByteArray := do
  let content := (← readBlocks? file h file.size start {} { room }).bytes
  let digest := numberAt file (stop - 4) 4
  if h.size = some content.size ∧
      (h.digest → digest = (Digest.ofBytes content).toNat % UInt32.size) then
    return content
  else failure

end ChipAtlas.Zstandard.Whole
