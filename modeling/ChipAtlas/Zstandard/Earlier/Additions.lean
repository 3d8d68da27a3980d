import ChipAtlas.Zstandard.Earlier.Sequences

/-!
# Sequences of the fourth and fifth editions

In these editions the numbers of a sequence are not told by magnitudes, except for the distance. A
symbol is the number of literals or the length itself. If it is the greatest, something may be added
to it, or another number put in its place. Such additions stand together in front of the codes.

* `Earlier.readAddedSequences?` — carries out the sequences of a block.
-/

namespace ChipAtlas.Zstandard.Earlier

/-! ### Codes -/

/-- A code for one of the three numbers of a sequence: the logarithm of the number of symbols, and
the limit of the code. -/
structure Symbols where
  log : Nat
  longest : Nat

/-- Numbers of literals. -/
def literalSymbols : Symbols := ⟨6, 10⟩

/-- Distances. -/
def distanceSymbols : Symbols := ⟨5, 9⟩

/-- Lengths of repeats. -/
def lengthSymbols : Symbols := ⟨7, 10⟩

/-- The greatest symbol. -/
def Symbols.greatest (f : Symbols) : Nat := 1 <<< f.log - 1

/-- The code in which each symbol has one state. -/
def evenCode (log : Nat) : StateCode :=
  ⟨log, ((List.range (1 <<< log)).map fun symbol => ⟨symbol, log, 0⟩).toArray⟩

/-- How a code is told. -/
inductive Way where
  | even
  | single
  | described

/-- The way that a number means. A code that was told before is not looked for, since only
dictionaries tell codes that are used again. -/
def Way.ofNumber? (e : Edition) (number : Nat) : Option Way :=
  if e = .fourth then [Way.described, .even, .single, .described][number]?
  else [some Way.even, some .single, none, some .described][number]?.join

/-- The code of a number and the place behind its description. -/
def Symbols.code? (f : Symbols) (way : Way) (block : ByteArray) (start : Nat) :
    Option (StateCode × Nat) :=
  match way with
  | .even => some (evenCode f.log, start)
  | .single => some (.single (byteAt block start), start + 1)
  | .described =>
    if block.size < start + leastCode then none
    else StateCode.read? block f.longest (f.greatest + 1) start

/-! ### Additions -/

/-- The additions that were not used yet: where they start and stop. -/
structure Additions where
  start : Nat
  stop : Nat

/-- Passes over some additions, but stays in front of the end. -/
def Additions.pass (a : Additions) (count : Nat) : Additions :=
  if a.start + count < a.stop then { a with start := a.start + count }
  else { a with start := a.stop - 1 }

/-- The number that stands in the place of another, and how many bytes it takes. From the fifth
edition on, it takes two or three. -/
def numberInPlace? (e : Edition) (block : ByteArray) (a : Additions) : Option (Nat × Nat) :=
  let place := a.start + 1
  if e = .fourth then
    if a.stop < place + 3 then none else some (numberAt block place 3, 3)
  else if a.stop < place + 2 then none
  else
    let low := numberAt block place 2
    if low % 2 = 1 ∧ place + 2 < a.stop then some (numberAt block place 3 / 2, 3)
    else some (low / 2, 2)

/-- The number that a symbol tells with an addition, if it is the greatest. Where there is no
addition, what stands behind them may be taken for one. -/
def withAddition (e : Edition) (beyond : Bool) (f : Symbols) (block : ByteArray) (symbol : Nat)
    (a : Additions) : Nat × Additions :=
  if symbol ≠ f.greatest then (symbol, a)
  else
    let add := if beyond ∨ a.start < a.stop then byteAt block a.start else 0
    if add < 255 then (symbol + add, a.pass 1)
    else
      match numberInPlace? e block a with
      | none => (symbol, a.pass 1)
      | some (number, count) => (number, a.pass (1 + count))

/-! ### Headers -/

/-- What stands in front of the sequences of a block behind their number: their codes, the
additions, and the place behind it all. -/
structure Heading where
  codes : Triple StateCode
  additions : Additions
  stop : Nat

/-- The heading at a place of a block. -/
def Heading.at? (e : Edition) (block : ByteArray) (start : Nat) : Option Heading := do
  let way (i : Nat) := Way.ofNumber? e (bitsAt block (8 * start + i) 2)
  let first := byteAt block start
  let (width, length) :=
    if first / 2 % 2 = 1 then (3, byteAt block (start + 1) * 256 + byteAt block (start + 2))
    else (2, first % 2 * 256 + byteAt block (start + 1))
  let place := start + width
  let additions : Additions := ⟨place, place + length⟩
  if block.size < additions.stop + 3 then failure
  let (literals, place) ← literalSymbols.code? (← way 6) block additions.stop
  let distanceWay ← way 4
  if distanceWay matches .single ∧ block.size < place + 2 then failure
  let (distance, place) ← distanceSymbols.code? distanceWay block place
  let lengthWay ← way 2
  if lengthWay matches .single ∧ block.size < place + 2 then failure
  let (length, place) ← lengthSymbols.code? lengthWay block place
  return ⟨⟨literals, distance, length⟩, additions, place⟩

/-! ### Sequences -/

/-- The least distance of a symbol, and the number of bits that are added to it. -/
def distanceMagnitude (symbol : Nat) : Magnitude :=
  let symbol := symbol % 32
  let bits := symbol - 1
  (if symbol ≤ 26 then 1 <<< bits else 1, bits)

/-- What is known between two sequences. -/
structure Scene where
  states : Triple State
  tape : Tape
  additions : Additions
  reel : Sequences.Reel

/-- The bits of a distance, and the states of the next sequence. Behind the last, none are told in
the fifth edition, and the bits need not suffice. -/
def turnStates? (e : Edition) (last : Bool) (codes : Triple StateCode) (s : Triple State)
    (bits : Nat) (t : Tape) : Option (Nat × Triple State × Tape) := do
  if e = .fourth then
    let (literals, t) ← codes.literals.next? s.literals t
    let (distance, t) ← codes.distance.next? s.distance t
    let (more, t) ← t.take? bits
    let (length, t) ← codes.length.next? s.length t
    return (more, ⟨literals, distance, length⟩, t)
  else if last then return (Tape.peekRound t.bytes t.left bits, s, t)
  else
    let (more, t) ← t.take? bits
    let (distance, t) ← codes.distance.next? s.distance t
    let (literals, t) ← codes.literals.next? s.literals t
    let (length, t) ← codes.length.next? s.length t
    return (more, ⟨literals, distance, length⟩, t)

/-- Carries out the next sequence. The least distance symbol stands for the last distance, or, where
no literals come in front, for the one before. -/
def performNext? (e : Edition) (block : ByteArray) (codes : Triple StateCode) (final : Bool)
    (s : Scene) : Option Scene := do
  let (last, before, _) := s.reel.distances
  let symbol := s.states.distance.symbol % 32
  let (least, bits) := distanceMagnitude symbol
  let (more, states, tape) ← turnStates? e final codes s.states bits s.tape
  let (literals, additions) :=
    withAddition e (e = .fifth) literalSymbols block s.states.literals.symbol s.additions
  let (length, additions) :=
    withAddition e false lengthSymbols block s.states.length.symbol additions
  let distance :=
    if symbol ≠ 0 then least + more else if s.states.literals.symbol ≠ 0 then last else before
  let before := if symbol ≠ 0 ∨ literals = 0 then last else before
  let reel ← advance? s.reel literals distance (length + 4)
  return ⟨states, tape, additions, { reel with distances := (distance, before, 0) }⟩

/-- Carries out a number of sequences. -/
def performAll? (e : Edition) (block : ByteArray) (codes : Triple StateCode) :
    Nat → Scene → Option Scene
  | 0, s => some s
  | count + 1, s => do
    performAll? e block codes count (← performNext? e block codes (count = 0) s)

/-- The distance that stands for the last ones in front of the first sequence. -/
def firstDistance (e : Edition) : Nat := if e = .fourth then 4 else 1

/-- The sequences that start at a place of a block. In the fourth edition they are told even if
there are none, and have to use up their tape. -/
def readAddedSequences? (e : Edition) (block : ByteArray) (start : Nat) (r : Sequences.Reel) :
    Option Sequences.Reel := do
  let (count, place) :=
    if e = .fourth then (numberAt block start 2, start + 2)
    else
      let first := byteAt block start
      if first < 128 then (first, start + 1)
      else ((first - 128) * 256 + byteAt block (start + 1), start + 2)
  if block.size < start + (if e = .fourth then 5 else 1) then failure
  if e = .fifth ∧ byteAt block start = 0 then return r
  if block.size < place + 2 then failure
  let heading ← Heading.at? e block place
  if e = .fifth ∧ count = 0 then return r
  let tape ← Tape.ofBytes? (block.extract heading.stop block.size)
  let (states, tape) ← Sequences.first? heading.codes tape
  let scene ← performAll? e block heading.codes count
    ⟨states, tape, heading.additions, { r with distances := (firstDistance e, firstDistance e, 0) }⟩
  if e = .fourth ∧ scene.tape.left ≠ 0 then failure
  return scene.reel

end ChipAtlas.Zstandard.Earlier
