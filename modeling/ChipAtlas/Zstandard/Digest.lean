import ChipAtlas.Zstandard.Bits

/-!
# Digests

The 64-bit digest of bytes, XXH64 with the seed zero. Words of eight bytes are mixed into four lanes
in turn, which are then folded into one; what is left over at the end is mixed in piece by piece.
-/

namespace ChipAtlas.Zstandard.Digest

/-! ### Mixing -/

def prime1 : UInt64 := 0x9E3779B185EBCA87
def prime2 : UInt64 := 0xC2B2AE3D27D4EB4F
def prime3 : UInt64 := 0x165667B19E3779F9
def prime4 : UInt64 := 0x85EBCA77C2B2AE63
def prime5 : UInt64 := 0x27D4EB2F165667C5

/-- Turns bits to the left, around the end. -/
def turn (x n : UInt64) : UInt64 := (x <<< n) ||| (x >>> (64 - n))

/-- A word mixed into a lane. -/
def mix (lane word : UInt64) : UInt64 := turn (lane + word * prime2) 31 * prime1

/-- The word of some bytes. -/
def word (bytes : ByteArray) (start count : Nat) : UInt64 := .ofNat (numberAt bytes start count)

/-- Four lanes. -/
structure Lanes where
  a : UInt64
  b : UInt64
  c : UInt64
  d : UInt64

/-- The lanes after a number of rounds, each of which mixes a word into every lane. -/
def rounds (bytes : ByteArray) : Nat → Nat → Lanes → Lanes
  | 0, _, l => l
  | n + 1, start, l =>
    rounds bytes n (start + 32) ⟨mix l.a (word bytes start 8), mix l.b (word bytes (start + 8) 8),
      mix l.c (word bytes (start + 16) 8), mix l.d (word bytes (start + 24) 8)⟩

/-- A lane folded into the digest. -/
def fold (h lane : UInt64) : UInt64 := (h ^^^ mix 0 lane) * prime1 + prime4

/-- The four lanes in one. -/
def joined (l : Lanes) : UInt64 :=
  let h := turn l.a 1 + turn l.b 7 + turn l.c 12 + turn l.d 18
  fold (fold (fold (fold h l.a) l.b) l.c) l.d

/-! ### The end -/

/-- The last words, of eight bytes each. -/
def lastWords (bytes : ByteArray) : Nat → Nat → UInt64 → UInt64
  | 0, _, h => h
  | n + 1, start, h =>
    lastWords bytes n (start + 8) (turn (h ^^^ mix 0 (word bytes start 8)) 27 * prime1 + prime4)

/-- Half a word that may be left. -/
def lastHalf (bytes : ByteArray) (start : Nat) (h : UInt64) : UInt64 :=
  if start + 4 ≤ bytes.size then
    turn (h ^^^ (word bytes start 4 * prime1)) 23 * prime2 + prime3
  else h

/-- The last single bytes. -/
def lastBytes (bytes : ByteArray) : Nat → Nat → UInt64 → UInt64
  | 0, _, h => h
  | n + 1, start, h =>
    lastBytes bytes n (start + 1) (turn (h ^^^ (word bytes start 1 * prime5)) 11 * prime1)

/-- Spreads every bit over the whole digest. -/
def spread (h : UInt64) : UInt64 :=
  let h := (h ^^^ (h >>> 33)) * prime2
  let h := (h ^^^ (h >>> 29)) * prime3
  h ^^^ (h >>> 32)

/-- The digest of bytes. -/
def ofBytes (bytes : ByteArray) : UInt64 :=
  let size := bytes.size
  let start := size / 32 * 32
  let h := if size < 32 then prime5
    else joined (rounds bytes (size / 32) 0 ⟨prime1 + prime2, prime2, 0, 0 - prime1⟩)
  let h := lastWords bytes (size % 32 / 8) start (h + .ofNat size)
  let h := lastHalf bytes (size / 8 * 8) h
  spread (lastBytes bytes (size % 4) (size / 4 * 4) h)

end ChipAtlas.Zstandard.Digest
