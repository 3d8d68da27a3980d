import ChipAtlas.Zstandard.Frame

/-!
# Reading a file as far as it is asked for

A file is read no further than its content is asked for. So a file that breaks off, or that is
damaged, still gives the content in front of the damage. How far it is read depends on the requests.
What is left of a block is given first. If nothing is left, parts of a frame are read and given
until there is more content than is asked for, or the frame or the file ends; damage on this way
makes the request fail, even if it comes behind the content that was asked for.

* `Reader.ofFile` — a file of which nothing is read;
* `Reader.read?` — the next bytes of the content;
* `Reader.rest` — all content, up to where the file ends or is damaged.
-/

namespace ChipAtlas.Zstandard

/-- The room that is kept from one frame to the next. -/
structure Rooms where
  /-- For a block that is not all there. -/
  block : Nat := 0
  /-- For the content. -/
  content : Nat := 0
  /-- For how many frames in a row it has been far too much. -/
  excess : Nat := 0

/-- For how many frames in a row far too much room is kept. -/
def Rooms.patience : Nat := 128

/-- The room for a frame that needs so much. What is there is kept, unless it is too little, or has
been three times what is needed for too long. -/
def Rooms.reserve (r : Rooms) (block content : Nat) : Rooms :=
  let excess := if 3 * (block + content) ≤ r.block + r.content then r.excess + 1 else 0
  if r.block < block ∨ r.content < content ∨ patience ≤ excess then ⟨block, content, excess⟩
  else { r with excess }

/-- A file that is being read: the frame that is being read, or the place of the next one. -/
structure Reader where
  file : ByteArray
  place : Nat := 0
  frame : Option Frame := none
  rooms : Rooms := {}
  /-- The header with the greatest window among the last frames of an earlier edition. -/
  widest : Option Header := none

namespace Reader

/-- A file of which nothing is read. -/
def ofFile (file : List UInt8) : Reader := { file := ⟨file.toArray⟩ }

/-! ### Frames -/

/-- Begins with a frame. -/
def begin (r : Reader) (h : Header) (start : Nat) : Reader :=
  if h.edition = .present then
    let rooms := r.rooms.reserve (max h.blockLimit 4) h.room
    { r with
      rooms
      frame := some { header := h, place := start, ring := { room := rooms.content } } }
  else
    let widest := (r.widest.filter fun w => w.edition = h.edition ∧ h.window ≤ w.window).getD h
    { r with
      widest := some widest
      frame := some { header := h, place := start, ring := { room := widest.room } } }

/-- Begins with the frame at the next place, unless it is skipped, or read as a whole. -/
def open? (r : Reader) (most : Nat) : Option (ByteArray × Reader) := do
  match ← Opening.at? r.file r.place with
  | .skipped size start =>
    let rooms := r.rooms.reserve 4 (min size (Header.leastWindow + 64))
    return (.empty, { r with rooms, place := start + size })
  | .frame h start =>
    match if h.size.any (· ≤ most) then Whole.stop? r.file h start else none with
    | some stop => return (← Whole.read? r.file h start stop most, { r with place := stop })
    | none =>
      if h.edition = .present ∧ Header.greatestWindow < h.window then failure
      else return (.empty, r.begin h start)

/-- Reads a frame in no more than the given number of parts, until it ends, or has more content than
is asked for. -/
def run? (r : Reader) (most : Nat) : Nat → Frame → ByteArray → Option (ByteArray × Reader)
  | 0, _, _ => none
  | fuel + 1, f, out => do
    if f.part matches .nothing then return (out, { r with place := f.place, frame := none })
    match ← f.step? r.file with
    | .broken => return (out, { r with place := r.file.size, frame := none })
    | .done f =>
      let (new, f) := f.give (most - out.size)
      let out := out ++ new
      if 0 < f.waiting then return (out, { r with frame := some f }) else r.run? most fuel f out

/-- The next content of the file, from no more than the given number of frames. -/
def next? (most : Nat) : Nat → Reader → Option (ByteArray × Reader)
  | 0, _ => none
  | fuel + 1, r => do
    let (out, r) ← if r.frame.isSome then pure (.empty, r) else r.open? most
    let (out, r) ← match r.frame with
      | some f => if f.place < r.file.size then r.run? most (r.file.size + 2) f out else none
      | none => pure (out, r)
    if out.isEmpty then next? most fuel r else return (out, r)

/-! ### Requests -/

/-- Some of the next bytes of the content: what is waiting, or else what is read next. -/
def some? (r : Reader) (most : Nat) : Option (ByteArray × Reader) :=
  match r.frame with
  | some f =>
    if 0 < f.waiting then
      let (out, f) := f.give most
      some (out, { r with frame := some f })
    else next? most (r.file.size + 1) r
  | none => next? most (r.file.size + 1) r

/-- The next bytes of the content. -/
def read? (r : Reader) (count : Nat) : Option (List UInt8 × Reader) :=
  if count = 0 then some ([], r)
  else
    match r.some? count with
    | none => none
    | some (front, r) =>
      if front.size = 0 then none
      else (r.read? (count - front.size)).map fun (rest, r) => (front.toList ++ rest, r)
termination_by count

/-- All content, in no more than the given number of requests. -/
def rest : Nat → Reader → List UInt8
  | 0, _ => []
  | fuel + 1, r =>
    match r.some? longestBlock with
    | none => []
    | some (front, r) => front.toList ++ rest fuel r

end Reader
end ChipAtlas.Zstandard
