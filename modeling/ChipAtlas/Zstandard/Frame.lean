import ChipAtlas.Zstandard.Whole

/-!
# Frames that are being read

Behind its header a frame has blocks, and perhaps a digest of its content. While it is being read,
its content goes into a memory, part by part. In the present edition, the last block ends the frame;
before it, an empty block or one of a kind of its own does.

* `Frame.step?` — reads the next part of a frame;
* `Frame.give` — gives content that was read.
-/

namespace ChipAtlas.Zstandard

/-- What comes next in a frame. -/
inductive Part where
  /-- What stands in front of a block. -/
  | head
  /-- A block, or what is left of a stored one. -/
  | block (h : BlockHead)
  /-- The digest. -/
  | digest
  /-- Nothing: the frame is over. -/
  | nothing

/-- A frame that is being read: the place of what comes next, the memory, the place in it behind the
content that was given, what blocks leave to those that follow, the size of the content, and, if
there is a digest, the content itself. -/
structure Frame where
  header : Header
  place : Nat
  ring : Ring
  given : Nat := 0
  part : Part := .head
  carried : Carried := {}
  size : Nat := 0
  content : ByteArray := .empty

/-- How the reading of a part ended, if there is no damage. -/
inductive Step where
  | done (f : Frame)
  /-- The file breaks off. -/
  | broken

namespace Frame

/-! ### Reading -/

/-- Goes on with another part, at a place. -/
def goOn (f : Frame) (place : Nat) (part : Part) : Step := .done { f with place, part }

/-- What comes behind a block. -/
def partBehind (f : Frame) (h : BlockHead) : Part :=
  if !h.last then .head else if f.header.digest then .digest else .nothing

/-- The digest at the end of a frame of the seventh edition. -/
def oldDigest (content : ByteArray) : Nat := (Digest.ofBytes content).toNat / 1 <<< 11 % 1 <<< 22

/-- Reads what stands in front of a block. -/
def readHead? (f : Frame) (file : ByteArray) : Option Step := do
  let stop := f.place + BlockHead.width
  if file.size < stop then return .broken
  let head ← BlockHead.at? f.header.edition file f.place
  if f.header.edition = .present then
    if f.header.blockLimit < head.length then failure
    return f.goOn stop (if head.length = 0 then f.partBehind head else .block head)
  else
    if head.kind = .ending ∧ f.header.digest ∧ head.size ≠ oldDigest f.content then failure
    return f.goOn stop (if head.length = 0 then .nothing else .block head)

/-- Reads bytes of a block into the memory. -/
def add? (f : Frame) (h : BlockHead) (bytes : ByteArray) : Option Frame := do
  let (carried, ring) ← h.read? f.header false bytes f.carried f.ring
  let new := ring.bytes.extract f.ring.place ring.place
  return { f with
    carried, ring
    size := f.size + new.size
    content := if f.header.digest then f.content ++ new else .empty }

/-- Reads a block. A stored one is read as far as it is there. The last one has to complete the size
that is told. -/
def readBlock? (f : Frame) (file : ByteArray) (h : BlockHead) : Option Step := do
  let left := file.size - f.place
  let count := if h.kind = .stored then min left h.length else h.length
  if left = 0 ∨ left < count then return .broken
  let stop := f.place + count
  let new ← f.add? h (file.extract f.place stop)
  if f.header.blockLimit < new.size - f.size then failure
  if count < h.length then return new.goOn stop (.block { h with size := h.size - count })
  if h.last ∧ !f.header.size.all (· = new.size) then failure
  return new.goOn stop (f.partBehind h)

/-- Reads a block of an earlier edition. -/
def readOldBlock? (f : Frame) (file : ByteArray) (h : BlockHead) : Option Step := do
  let left := file.size - f.place
  if left < h.length then
    if f.header.blockLimit < h.length ∧ left ≠ 0 then failure else return .broken
  let stop := f.place + h.length
  return (← f.add? h (file.extract f.place stop)).goOn stop .head

/-- Reads the digest, which has to be that of the content. -/
def readDigest? (f : Frame) (file : ByteArray) : Option Step :=
  let stop := f.place + 4
  if file.size < stop then some .broken
  else if numberAt file f.place 4 = (Digest.ofBytes f.content).toNat % UInt32.size then
    some (f.goOn stop .nothing)
  else none

/-- Reads the next part. -/
def step? (f : Frame) (file : ByteArray) : Option Step :=
  match f.part with
  | .head => f.readHead? file
  | .block h =>
    if f.header.edition = .present then f.readBlock? file h else f.readOldBlock? file h
  | .digest => f.readDigest? file
  | .nothing => some (.done f)

/-! ### Giving -/

/-- How much content is read, but not given. -/
def waiting (f : Frame) : Nat := f.ring.place - f.given

/-- Turns the memory around if the next block might not fit. -/
def turn (f : Frame) : Frame :=
  if f.header.turns f.ring.room then
    let ring := f.ring.turnFor f.header.blockLimit
    { f with ring, given := ring.place }
  else f

/-- Gives what is read, up to some size. -/
def give (f : Frame) (most : Nat) : ByteArray × Frame :=
  let given := min f.ring.place (f.given + most)
  let content := f.ring.bytes.extract f.given given
  let f := { f with given }
  (content, if f.waiting = 0 then f.turn else f)

end Frame
end ChipAtlas.Zstandard
