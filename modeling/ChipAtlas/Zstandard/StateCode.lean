import ChipAtlas.Zstandard.Bits

/-!
# Codes with states

A code with states gives each symbol a share of the states, more to the frequent ones. Being in a
state tells a symbol; a few bits then lead to the next state. What is kept of a code are the shares,
the counts; the states are laid out from them.

A count is the number of states of a symbol. A symbol too rare for a share has the count -1, and one
state at the end.

* `StateCode.ofCounts`, `StateCode.single` — the code of counts, and that of one symbol;
* `StateCode.read?` — the code that is described at a place.
-/

namespace ChipAtlas.Zstandard

/-- A state: its symbol, and how many bits lead on, counted from which state. -/
structure State where
  symbol : Nat
  bits : Nat
  base : Nat

/-- The 2 ^ `log` states of a code. -/
structure StateCode where
  log : Nat
  states : Array State

namespace StateCode

/-! ### From counts to states -/

/-- The places of the states that are not at the end, in the order in which they are given away. -/
def places (log rare : Nat) : List Nat :=
  let size := 1 <<< log
  -- the stride is odd, so it meets every place once
  let stride := size / 2 + size / 8 + 3
  ((List.range size).map fun k => k * stride % size).filter (· < size - rare)

/-- The symbols that have a share, each as often as it has states. -/
def shared (counts : List Int) : List Nat :=
  counts.zipIdx.flatMap fun (count, symbol) => List.replicate count.toNat symbol

/-- The symbols that are too rare for a share. -/
def rare (counts : List Int) : List Nat :=
  counts.zipIdx.filterMap fun (count, symbol) => if count < 0 then some symbol else none

/-- The symbols of the states. -/
def symbols (log : Nat) (counts : List Int) : Array Nat :=
  let rare := rare counts
  let assignment := (places log rare.length).zip (shared counts) ++
    rare.zipIdx.map fun (symbol, i) => (1 <<< log - 1 - i, symbol)
  assignment.foldl (fun a (place, symbol) => a.setIfInBounds place symbol)
    (Array.replicate (1 <<< log) 0)

/-- The code of counts. The states of a symbol share the states that they lead to evenly. -/
def ofCounts (log : Nat) (counts : List Int) : StateCode :=
  let add := fun (states, next) symbol =>
    -- a symbol with n states has them numbered from n to 2 n - 1
    let n := (next[symbol]?).getD 1
    let bits := log - n.log2
    (Array.push states ⟨symbol, bits, n <<< bits - 1 <<< log⟩,
      Array.setIfInBounds next symbol (n + 1))
  ⟨log, ((symbols log counts).foldl add (#[], (counts.map Int.natAbs).toArray)).1⟩

/-- The code of one symbol, which takes no bits. -/
def single (symbol : Nat) : StateCode := ⟨0, #[⟨symbol, 0, 0⟩]⟩

/-! ### Descriptions -/

/-- The count at a bit and the place behind it. It is written in as many bits as the points that are
still to be given away need, or in one bit less while that is enough. -/
def countAt (bytes : ByteArray) (points bit : Nat) : Int × Nat :=
  let width := points.log2
  let spare := 1 <<< (width + 1) - 1 - points
  -- as many values as the long form would leave over have a shorter one
  let low := bitsAt bytes bit width
  if low < spare then (low - 1, bit + width)
  else
    let whole := bitsAt bytes bit (width + 1)
    ((if whole < 1 <<< width then whole else whole - spare : Nat) - 1, bit + width + 1)

/-- How many further counts are zero, told in steps of up to three, and the place behind. -/
def zerosAt (bytes : ByteArray) : Nat → Nat → Nat × Nat
  | 0, bit => (0, bit)
  | steps + 1, bit =>
    match bitsAt bytes bit 2 with
    | 3 =>
      let (more, bit) := zerosAt bytes steps (bit + 2)
      (more + 3, bit)
    | n => (n, bit + 2)

/-- The counts from a bit on, in no more than the given number of steps, until one point is left,
and the place behind them. -/
def countsAt (bytes : ByteArray) : Nat → Nat → Nat → Option (List Int × Nat)
  | 0, _, _ => none
  | steps + 1, points, bit => do
    if points = 1 then return ([], bit)
    let (count, bit) := countAt bytes points bit
    -- a zero is followed by how many more of them there are
    let (zeros, bit) := if count = 0 then zerosAt bytes steps bit else (0, bit)
    let (counts, bit) ← countsAt bytes steps (points - count.natAbs) bit
    return (count :: (List.replicate zeros 0 ++ counts), bit)

/-- The code described at a byte, and the place behind it. It must not have more states or symbols
than allowed. -/
def read? (bytes : ByteArray) (longest symbols start : Nat) : Option (StateCode × Nat) := do
  let log := bitsAt bytes (8 * start) 4 + 5
  let (counts, bit) ← countsAt bytes 257 (1 <<< log + 1) (8 * start + 4)
  let stop := (bit + 7) / 8
  if log ≤ longest ∧ counts.length ≤ symbols ∧ stop ≤ bytes.size then
    return (ofCounts log counts, stop)
  else failure

/-- A state of a code. -/
def state? (c : StateCode) (n : Nat) : Option State := c.states[n]?

/-- The first state. -/
def start? (c : StateCode) (t : Tape) : Option (State × Tape) := do
  let (n, t) ← t.take? c.log
  return (← c.state? n, t)

/-- The state that the next bits lead to. -/
def next? (c : StateCode) (s : State) (t : Tape) : Option (State × Tape) := do
  let (n, t) ← t.take? s.bits
  return (← c.state? (s.base + n), t)

end StateCode

end ChipAtlas.Zstandard
