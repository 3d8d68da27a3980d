import ChipAtlas.Data.LittleEndian
import ChipAtlas.Zstandard.Bits
import ChipAtlas.Zstandard.Edition

/-!
# What frames begin with

A file of the Zstandard format is a row of frames. A frame begins with a magic number, which tells
its edition of the format, and a header. The header tells the window, which is how far back blocks
should repeat at most, perhaps the size of the content, and whether a digest follows. Frames of
another kind hold what is to be skipped.

* `Opening.at?` — what begins at a place;
* `Header.room` — the room that the memory needs for a frame.
-/

namespace ChipAtlas.Zstandard

/-- What a header says. -/
structure Header where
  edition : Edition
  window : Nat
  blockLimit : Nat
  size : Option Nat
  digest : Bool

/-! ### Headers -/

/-- The options of a header: its window, unless the content is one piece of a told size, the size,
and whether a digest follows. -/
structure Options where
  window : Option Nat
  size : Option Nat
  digest : Bool

namespace Options

/-- The window that a byte tells: a power of two and some eighths of it. -/
def windowOf (byte : Nat) : Nat := 1 <<< (10 + byte / 8) + 1 <<< (10 + byte / 8) / 8 * (byte % 8)

/-- The options at a place, and the place behind them. A frame that needs a dictionary cannot be
read. -/
def at? (file : ByteArray) (start : Nat) : Option (Options × Nat) := do
  let flags := byteAt file start
  let single := flags / 32 % 2 = 1
  let window := start + 1
  let dictionary := window + if single then 0 else 1
  let size := dictionary + 1 <<< (flags % 4) / 2
  let sizeWidth := match flags / 64 with
    | 0 => if single then 1 else 0
    | code => 1 <<< code
  let stop := size + sizeWidth
  -- a size in two bytes is counted from 256 on, as one byte serves below
  let told := numberAt file size sizeWidth + if sizeWidth = 2 then 256 else 0
  if file.size < stop ∨ flags / 8 % 2 = 1 ∨ numberAt file dictionary (size - dictionary) ≠ 0 then
    failure
  return ({
    window := if single then none else some (windowOf (byteAt file window))
    size := if sizeWidth = 0 then none else some told
    digest := flags / 4 % 2 = 1 }, stop)

end Options

namespace Header

/-- The size that stands for an unknown one. -/
def unknownSize : Nat := UInt64.size - 1

/-- The header of options, in the present edition. -/
def ofOptions? (o : Options) : Option Header :=
  let window := o.window.getD (o.size.getD 0)
  if o.window.all (· < UInt32.size) then
    some ⟨.present, window, min window longestBlock, o.size.filter (· ≠ unknownSize), o.digest⟩
  else none

/-- The least window. -/
def leastWindow : Nat := 1 <<< 10

/-- The greatest window for which there is a memory. -/
def greatestWindow : Nat := 1 <<< 27 + 1

/-- The header of options, in the seventh edition. Sizes are not looked at. -/
def ofOldOptions? (o : Options) : Option Header :=
  let told := o.window.getD (o.size.getD 0 % UInt32.size)
  let window := max leastWindow told
  if told ≤ 1 <<< 27 then some ⟨.seventh, window, min window longestBlock, none, o.digest⟩ else none

/-- The header at a place in an edition, and the place behind it. Before the seventh edition, a
header tells little more than the exponent of the window. -/
def at? (file : ByteArray) (start : Nat) : Edition → Option (Header × Nat)
  | .present => do
    let (options, stop) ← Options.at? file start
    return (← ofOptions? options, stop)
  | .seventh => do
    let (options, stop) ← Options.at? file start
    return (← ofOldOptions? options, stop)
  | .sixth =>
    let flags := byteAt file start
    let stop := start + 1 + [0, 1, 2, 8].getD (flags / 64) 0
    let window := 1 <<< (12 + flags % 16)
    if file.size < stop ∨ flags / 32 % 2 = 1 then none
    else some (⟨.sixth, window, min window longestBlock, none, false⟩, stop)
  | e =>
    let flags := byteAt file start
    if file.size ≤ start ∨ 16 ≤ flags then none
    else some (⟨e, 1 <<< (11 + flags), longestBlock, none, false⟩, start + 1)

/-- The room that the memory needs for a frame. Where the size of the content is told, that is
enough; otherwise there is to be room for the window, and behind it for blocks and some slack. -/
def room (h : Header) : Nat :=
  match h.edition with
  | .fourth | .fifth => h.window
  | .sixth | .seventh => h.window + h.blockLimit + 16
  | .present =>
    let window := max leastWindow h.window
    let ample := window + 2 * h.blockLimit + 64
    h.size.elim ample (min · ample)

/-- Whether the memory has to turn around while a frame is read. -/
def turns (h : Header) (room : Nat) : Bool := h.size.all (room < ·)

end Header

/-! ### Openings -/

/-- What a frame begins with, and the place behind it. -/
inductive Opening where
  /-- A frame with content. -/
  | frame (h : Header) (start : Nat)
  /-- A frame of so many bytes that are to be skipped. -/
  | skipped (size start : Nat)

/-- The bytes that frames start with. -/
def magic : List UInt8 := [0x28, 0xB5, 0x2F, 0xFD]

/-- The edition that a magic number tells. -/
def Edition.ofMagic? (number : Nat) : Option Edition :=
  [(0xFD2FB524, .fourth), (0xFD2FB525, .fifth), (0xFD2FB526, .sixth), (0xFD2FB527, .seventh),
    (ofLittleEndian magic, .present)].lookup number

/-- What begins at a place, if it can be read. -/
def Opening.at? (file : ByteArray) (place : Nat) : Option Opening :=
  let number := numberAt file place 4
  if number / 16 = 0x184D2A5 then
    if file.size < place + 8 then none
    else some (.skipped (numberAt file (place + 4) 4) (place + 8))
  else do
    let (header, start) ← Header.at? file (place + 4) (← Edition.ofMagic? number)
    return .frame header start

end ChipAtlas.Zstandard
