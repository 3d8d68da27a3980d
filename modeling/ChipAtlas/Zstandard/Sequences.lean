import ChipAtlas.Zstandard.Literals
import ChipAtlas.Zstandard.Ring

/-!
# Sequences

Behind its literals a compressed block has sequences. A sequence says how many literals come next,
and how many bytes are then repeated from how far back. The three numbers of a sequence are written
in three codes with states; the symbols tell the magnitude, and further bits the number itself. A
code is a fixed one, that of one symbol, described in front of the sequences, or the one of the
block before. Literals that no sequence asks for come last.

* `readBlock?` — reads a compressed block into the memory.
-/

namespace ChipAtlas.Zstandard

/-! ### Magnitudes -/

/-- The least number of a symbol, and the number of bits that are added to it. -/
abbrev Magnitude := Nat × Nat

/-- Magnitudes of adjoining ranges from a number on, given the bits of each. -/
def magnitudesFrom (least : Nat) : List Nat → List Magnitude
  | [] => []
  | bits :: rest => (least, bits) :: magnitudesFrom (least + 1 <<< bits) rest

/-- The numbers of literals. -/
def literalMagnitudes : Array Magnitude :=
  (magnitudesFrom 0 (.replicate 16 0 ++
    [1, 1, 1, 1, 2, 2, 3, 3, 4, 6, 7, 8, 9, 10, 11, 12, 13, 14, 15, 16])).toArray

/-- The lengths of repeats. -/
def lengthMagnitudes : Array Magnitude :=
  (magnitudesFrom 3 (.replicate 32 0 ++
    [1, 1, 1, 1, 2, 2, 3, 3, 4, 4, 5, 7, 8, 9, 10, 11, 12, 13, 14, 15, 16])).toArray

/-- The distances back. -/
def distanceMagnitudes : Array Magnitude := (magnitudesFrom 1 (List.range 32)).toArray

/-! ### Codes -/

/-- One of the three numbers of a sequence: its magnitudes, the limits of its code, the counts of
the fixed code, and how many bytes have to be there where a code is described. -/
structure Field where
  magnitudes : Array Magnitude
  longest : Nat
  fixedLog : Nat
  fixedCounts : List Int
  least : Nat := 0

/-- How many literals come next. -/
def literalField : Field where
  magnitudes := literalMagnitudes
  longest := 9
  fixedLog := 6
  fixedCounts := [4, 3] ++ .replicate 11 2 ++ [1, 1, 1] ++ .replicate 9 2 ++
    [3, 2, 1, 1, 1, 1, 1, -1, -1, -1, -1]

/-- How many bytes are repeated. -/
def lengthField : Field where
  magnitudes := lengthMagnitudes
  longest := 9
  fixedLog := 6
  fixedCounts := [1, 4, 3] ++ .replicate 6 2 ++ .replicate 37 1 ++ .replicate 7 (-1)

/-- From how far back they are repeated. -/
def distanceField : Field where
  magnitudes := distanceMagnitudes
  longest := 8
  fixedLog := 5
  fixedCounts := .replicate 6 1 ++ [2, 2, 2] ++ .replicate 15 1 ++ .replicate 5 (-1)

/-- The code of a number and the place behind its description, by the way in which it is told. -/
def Field.code? (f : Field) (way : Nat) (before : Option StateCode) (block : ByteArray)
    (start : Nat) : Option (StateCode × Nat) :=
  match way with
  | 0 => some (.ofCounts f.fixedLog f.fixedCounts, start)
  | 1 =>
    let symbol := byteAt block start
    if start < block.size ∧ symbol < f.magnitudes.size then some (.single symbol, start + 1)
    else none
  | 2 =>
    if block.size < start + f.least then none
    else StateCode.read? block f.longest f.magnitudes.size start
  | _ => (·, start) <$> before

/-- Something for each of the three numbers of a sequence. -/
structure Triple (α : Type) where
  literals : α
  distance : α
  length : α

/-- What blocks leave to those that follow: the store of copied literals, the codes that were used
last, and the last three distances, the latest first. -/
structure Carried where
  store : ByteArray := .empty
  prefixCode : Option PrefixCode := none
  codes : Triple (Option StateCode) := ⟨none, none, none⟩
  distances : Nat × Nat × Nat := (1, 4, 8)

namespace Sequences

/-! ### Numbers and states -/

/-- How many sequences there are, and the place behind the number. -/
def countAt (block : ByteArray) (start : Nat) : Nat × Nat :=
  let first := byteAt block start
  if first < 128 then (first, start + 1)
  else if first < 255 then ((first - 128) * 256 + byteAt block (start + 1), start + 2)
  else (numberAt block (start + 1) 2 + 0x7F00, start + 3)

/-- The three codes of some fields, and the place behind their descriptions, given what the numbers
that stand in front mean for the ways in which the codes are told. -/
def codesBy? (fields : Triple Field) (way : Nat → Nat) (block : ByteArray) (start : Nat)
    (before : Triple (Option StateCode)) : Option (Triple StateCode × Nat) := do
  let way (i : Nat) := way (bitsAt block (8 * start + i) 2)
  let (literals, place) ← fields.literals.code? (way 6) before.literals block (start + 1)
  let (distance, place) ← fields.distance.code? (way 4) before.distance block place
  let (length, place) ← fields.length.code? (way 2) before.length block place
  return (⟨literals, distance, length⟩, place)

/-- The fields of a sequence. -/
def fields : Triple Field := ⟨literalField, distanceField, lengthField⟩

/-- The three codes, and the place behind their descriptions. -/
def codes? (block : ByteArray) (start : Nat) (before : Triple (Option StateCode)) :
    Option (Triple StateCode × Nat) :=
  if bitsAt block (8 * start) 2 = 0 then codesBy? fields id block start before else none

/-- The states that tell the first sequence. -/
def first? (codes : Triple StateCode) (t : Tape) : Option (Triple State × Tape) := do
  let (literals, t) ← codes.literals.start? t
  let (distance, t) ← codes.distance.start? t
  let (length, t) ← codes.length.start? t
  return (⟨literals, distance, length⟩, t)

/-- The states that tell the next sequence. -/
def next? (codes : Triple StateCode) (s : Triple State) (t : Tape) :
    Option (Triple State × Tape) := do
  let (literals, t) ← codes.literals.next? s.literals t
  let (length, t) ← codes.length.next? s.length t
  let (distance, t) ← codes.distance.next? s.distance t
  return (⟨literals, distance, length⟩, t)

/-- The number that a state and further bits tell. -/
def number? (f : Field) (s : State) (t : Tape) : Option (Nat × Tape) := do
  let (least, bits) ← f.magnitudes[s.symbol]?
  let (more, t) ← t.take? bits
  return (least + more, t)

/-- The numbers of a sequence. -/
def numbers? (s : Triple State) (t : Tape) : Option (Triple Nat × Tape) := do
  let (distance, t) ← number? distanceField s.distance t
  let (length, t) ← number? lengthField s.length t
  let (literals, t) ← number? literalField s.literals t
  return (⟨literals, distance, length⟩, t)

/-! ### Carrying sequences out -/

/-- The last three distances after a sequence, whose own one is then the latest. The first three
numbers stand for the last distances, or, where no literals come in front, for the second, the
third, and one less than the first. -/
def distances? (s : Triple Nat) (last : Nat × Nat × Nat) : Option (Nat × Nat × Nat) :=
  let (a, b, c) := last
  if 3 < s.distance then some (s.distance - 3, a, b)
  else
    match s.distance + if s.literals = 0 then 1 else 0 with
    | 1 => some (a, b, c)
    | 2 => some (b, a, c)
    | 3 => some (c, a, b)
    | _ => if a ≤ 1 then none else some (a - 1, a, b)

/-- What has been read so far: the memory, and the literals that are left. -/
structure Reel where
  ring : Ring
  literals : Literals
  used : Nat := 0
  distances : Nat × Nat × Nat

/-- The next literals, and what is repeated behind them, if it is all there. -/
def Reel.advance? (r : Reel) (c : Copying) (literals distance length : Nat) : Option Reel :=
  if r.literals.count < r.used + literals ∨ r.ring.reach + literals < distance then none
  else
    let ring := r.ring.appendFrom c r.literals.store r.used literals
    some { r with ring := ring.repeatBack c distance length, used := r.used + literals }

/-- Carries out a sequence, up to a place of the memory. Near that place, copies are not done in
groups. -/
def Reel.perform? (stop : Nat) (s : Triple Nat) (r : Reel) : Option Reel := do
  let distances ← distances? s r.distances
  let behind := r.ring.place + s.literals + s.length
  if stop < behind then failure
  let copying := if behind + Literals.slack ≤ stop then .sixteens else .single
  let r ← r.advance? copying s.literals distances.1 s.length
  return { r with distances }

/-- Carries out a number of sequences in some way, if more come behind them. -/
def perform? (codes : Triple StateCode) (step : Triple Nat → Reel → Option Reel) :
    Nat → Triple State → Tape → Reel → Option (Triple State × Tape × Reel)
  | 0, s, t, r => some (s, t, r)
  | count + 1, s, t, r => do
    let (numbers, t) ← numbers? s t
    let r ← step numbers r
    let (s, t) ← next? codes s t
    perform? codes step count s t r

/-- Puts the literals that are left behind all else, up to a place of the memory. -/
def Reel.close? (r : Reel) (stop : Nat) : Option Ring :=
  let last := r.literals.store.extract r.used r.literals.count
  if stop < r.ring.place + last.size then none else some (r.ring.append last)

end Sequences

/-- Where the memory ends for a block. A frame that is read as a whole keeps the literals that are
copied behind its next block, if there is ample room for that. -/
def Ring.stopFor (r : Ring) (whole : Bool) (limit : Nat) (l : Literals) : Nat :=
  let literals := limit + Literals.slack
  if whole ∧ l.copied ∧ literals + l.count + Literals.slack < r.left then r.place + literals
  else r.room

/-- Reads a compressed block into the memory. Blocks have a greatest length. -/
def readBlock? (block : ByteArray) (whole : Bool) (limit : Nat) (c : Carried) (ring : Ring) :
    Option (Carried × Ring) := do
  if limit < block.size then failure
  let literals ← Literals.read? block (min limit ring.left) c.prefixCode c.store
  let stop := ring.stopFor whole limit literals
  let (count, place) := Sequences.countAt block literals.stop
  let r : Sequences.Reel := { ring, literals, distances := c.distances }
  let (codes, r) ←
    if count = 0 then if place = block.size then pure (c.codes, r) else failure
    else do
      let (codes, place) ← Sequences.codes? block place c.codes
      let t ← Tape.ofBytes? (block.extract place block.size)
      let (s, t) ← Sequences.first? codes t
      let (s, t, r) ← Sequences.perform? codes (Sequences.Reel.perform? stop) (count - 1) s t r
      let (numbers, t) ← Sequences.numbers? s t
      let r ← r.perform? stop numbers
      if t.left ≠ 0 then failure
      pure (⟨some codes.literals, some codes.distance, some codes.length⟩, r)
  let store := if literals.copied then literals.store else c.store
  return (⟨store, literals.code, codes, r.distances⟩, ← r.close? stop)

end ChipAtlas.Zstandard
