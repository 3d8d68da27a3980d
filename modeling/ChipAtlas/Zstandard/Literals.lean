import ChipAtlas.Zstandard.Coded

/-!
# Literals

A compressed block begins with its literals, the bytes that are not repeats of earlier ones. They
stand there as they are, as one byte that is meant many times, or in a code of bytes. The code is
described in front of them, unless it is the one of the block before.
-/

namespace ChipAtlas.Zstandard

/-- The literals of a block: a store that begins with them, their number, the code that later
blocks may use, the place behind them, and whether they are copied out of the block before they
are used. -/
structure Literals where
  store : ByteArray
  count : Nat
  code : Option PrefixCode
  stop : Nat
  copied : Bool

namespace Literals

/-- How literals are written: the number of bytes in front of them, how many literals there are, how
many bytes they take, and whether they are divided into four. -/
structure Layout where
  header : Nat
  count : Nat
  length : Nat
  divided : Bool

/-- The layout of literals that are not in a code, as the form of the size tells. -/
def plainLayout (block : ByteArray) (form : Nat) : Layout :=
  let (header, count) := match form with
    | 1 => (2, bitsAt block 4 12)
    | 3 => (3, bitsAt block 4 20)
    | _ => (1, bitsAt block 3 5)
  ⟨header, count, count, false⟩

/-- The layout of literals in a code, as the form of the sizes tells. -/
def codedLayout (block : ByteArray) (form : Nat) : Layout :=
  let width := match form with
    | 2 => 14
    | 3 => 18
    | _ => 10
  ⟨(4 + 2 * width) / 8, bitsAt block 4 width, bitsAt block (4 + width) width, form ≠ 0⟩

/-- How many bytes beyond its end a copy may touch. Literals that are followed by so many bytes are
used where they stand. -/
def slack : Nat := 32

/-- The literals of a block, no more than the given number, given the code of the block before, and
the store that copies of literals are put into. What was never put there is zero. -/
def read? (block : ByteArray) (most : Nat) (before : Option PrefixCode) (store : ByteArray) :
    Option Literals := do
  let kind := bitsAt block 0 2
  let form := bitsAt block 2 2
  let l := if kind < 2 then plainLayout block form else codedLayout block form
  let stop := l.header + if kind = 1 then 1 else l.length
  if block.size < stop ∨ most < l.count then failure
  let copy (bytes : ByteArray) (code : Option PrefixCode) : Literals :=
    let behind := store.extract l.count store.size
    ⟨bytes ++ behind ++ ⟨.replicate (slack - behind.size) 0⟩, l.count, code, stop, true⟩
  match kind with
  | 0 =>
    if block.size < stop + slack then return copy (block.extract l.header stop) before
    else return ⟨block.extract l.header block.size, l.count, before, stop, false⟩
  | 1 => return copy ⟨.replicate l.count (.ofNat (byteAt block l.header))⟩ before
  | _ =>
    let written := block.extract l.header stop
    let (code, start) ←
      if kind = 2 then
        PrefixCode.read? (l.divided && PrefixCode.worthPairs l.count l.length) written
      else (fun code => (code, 0)) <$> before
    let written := written.extract start written.size
    let bytes ←
      if l.divided then Coded.decodeDivided? code l.count written
      else Coded.decode? code l.count written
    return copy bytes code

end Literals

end ChipAtlas.Zstandard
