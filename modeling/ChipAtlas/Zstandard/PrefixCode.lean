import ChipAtlas.Zstandard.StateCode

/-!
# Codes of bytes

Bytes are written in a code whose words are no prefixes of each other, the frequent ones in short
words. What is kept of a code are the weights of the bytes: a weight of one stands for the longest
words, each further one for words that are a bit shorter, and zero for no word. The last weight is
not written down, since the words fill the code.

* `PrefixCode.ofWeights?` — the code of weights;
* `PrefixCode.read?` — the code that is described;
* `PrefixCode.find?` — what is found when bits are looked up.
-/

namespace ChipAtlas.Zstandard

/-- A byte and the length of its word. -/
structure Leaf where
  byte : UInt8
  bits : Nat

/-- The longest word, for all words of that length the byte that they begin with the word of, and
whether bytes are looked up in pairs. -/
structure PrefixCode where
  longest : Nat
  leaves : Array Leaf
  pairs : Bool

namespace PrefixCode

/-- The length of the longest word of any code. -/
def limit : Nat := 12

/-- The code of weights without the last. -/
def ofWeights? (pairs : Bool) (written : List Nat) : Option PrefixCode := do
  let total := written.foldl (fun sum weight => sum + 1 <<< weight / 2) 0
  let longest := total.log2 + 1
  -- what the written weights leave of the code is the share of the last
  let rest := 1 <<< longest - total
  let weights := written ++ [rest.log2 + 1]
  let leavesOf (n : Nat) := (weights.zipIdx.filter fun w => w.1 = n + 1).flatMap fun w =>
    List.replicate (1 <<< n) (Leaf.mk (.ofNat w.2) (longest - n))
  if 0 < total ∧ longest ≤ limit ∧ 1 <<< rest.log2 = rest ∧ 2 ≤ weights.count 1 ∧
      weights.count 1 % 2 = 0 then
    return ⟨longest, ((List.range longest).flatMap leavesOf).toArray, pairs⟩
  else failure

/-! ### Descriptions -/

/-- Weights that are told by two states in turn, in no more than the given number of steps. When the
bits do not suffice to go on, the other state still tells one. -/
def weightsFrom? (c : StateCode) : Nat → State → State → Tape → Option (List Nat)
  | 0, _, _, _ => none
  | steps + 1, s, other, t =>
    match c.next? s t with
    | none => some [s.symbol, other.symbol]
    | some (s', t) => (s.symbol :: ·) <$> weightsFrom? c steps other s' t

/-- Weights written in a code with states, of which there are no more than some power of two. -/
def codedWeights? (longest : Nat) (bytes : ByteArray) : Option (List Nat) := do
  let (code, start) ← StateCode.read? bytes longest 256 0
  let t ← Tape.ofBytes? (bytes.extract start bytes.size)
  let (s, t) ← code.start? t
  let (other, t) ← code.start? t
  weightsFrom? code 254 s other t

/-- Weights of four bits each, the first in the higher half of a byte. -/
def plainWeights (bytes : ByteArray) (start count : Nat) : List Nat :=
  (List.range count).map fun i =>
    let pair := byteAt bytes (start + i / 2)
    if i % 2 = 0 then pair / 16 else pair % 16

/-- The code described at the beginning, and the place behind it, given how to read weights that are
written in a code. -/
def readBy? (coded? : ByteArray → Option (List Nat)) (pairs : Bool) (bytes : ByteArray) :
    Option (PrefixCode × Nat) := do
  let first := byteAt bytes 0
  let count := first - 127
  let stop := 1 + if first < 128 then first else (count + 1) / 2
  if bytes.size < stop then failure
  let weights ←
    if first < 128 then coded? (bytes.extract 1 stop) else pure (plainWeights bytes 1 count)
  return (← ofWeights? pairs weights, stop)

/-- The code described at the beginning, and the place behind it. -/
def read? (pairs : Bool) (bytes : ByteArray) : Option (PrefixCode × Nat) :=
  readBy? (codedWeights? 6) pairs bytes

/-! ### Looking up -/

/-- What is found at some bits: a byte, perhaps a second one, and the bits of their words. -/
structure Find where
  first : UInt8
  second : Option UInt8
  bits : Nat

/-- How many bits a look-up takes in. -/
def window (c : PrefixCode) : Nat := max 11 c.longest

/-- The leaf at the beginning of bits that a look-up takes in. -/
def leaf? (c : PrefixCode) (bits : Nat) : Option Leaf := c.leaves[bits >>> (c.window - c.longest)]?

/-- What is found at bits that a look-up takes in. There is a second byte only if it is looked for
and its word is there as well. -/
def find? (c : PrefixCode) (bits : Nat) : Option Find := do
  let one ← c.leaf? bits
  let two ← c.leaf? (bits <<< one.bits % 1 <<< c.window)
  if c.pairs ∧ one.bits + two.bits ≤ c.window then
    return ⟨one.byte, two.byte, one.bits + two.bits⟩
  else return ⟨one.byte, none, one.bits⟩

/-- How long it takes on the whole to prepare a code and to decode 256 bytes, first with single
look-ups, then in pairs, for each number of sixteenths of a byte that the bytes take. -/
def costs : List ((Nat × Nat) × (Nat × Nat)) :=
  [((0, 0), (1, 1)), ((0, 0), (1, 1)), ((150, 216), (381, 119)), ((170, 205), (514, 112)),
    ((177, 199), (539, 110)), ((197, 194), (644, 107)), ((221, 192), (735, 107)),
    ((256, 189), (881, 106)), ((359, 188), (1167, 109)), ((582, 187), (1570, 114)),
    ((688, 187), (1712, 122)), ((825, 186), (1965, 136)), ((976, 185), (2131, 150)),
    ((1180, 186), (2070, 175)), ((1377, 185), (1731, 202)), ((1412, 185), (1695, 202))]

/-- Whether it is worth it to look for pairs, if so many bytes take so many bytes. Preparing pairs
costs memory, too. -/
def worthPairs (count length : Nat) : Bool :=
  let (single, double) := costs.getD (min 15 (length * 16 / count)) ((0, 0), (0, 0))
  let cost (c : Nat × Nat) := c.1 + c.2 * (count / 256)
  cost double + cost double / 32 < cost single

end PrefixCode

end ChipAtlas.Zstandard
