import ChipAtlas.Data.LittleEndian
import ChipAtlas.Data.OrderedMap
import ChipAtlas.Data.SortedMap
import ChipAtlas.Data.Table
import ChipAtlas.Zstandard.Pack

/-!
# The byte form of cached values

Decoded databases are kept in a compact byte form without field names. A number takes one byte if it
is below 251, and otherwise a mark and two, four or eight bytes, the lowest first. A signed number
is folded onto the natural numbers, so that small magnitudes stay short. Texts, lists and maps carry
their length in front; an alternative carries the number of its case; a structure is its fields, one
after the other.

Values are taken from bytes at hand or from a compressed file. Such a file is read as far as it is
asked for, so it matters that each number and each text is one request.

* `Source` — what values are taken from;
* `Codec` — how a type is written and read back, with whatever follows left over;
* `Codec.nat`, `Codec.int32`, `Codec.text`, `Codec.list`, … — the codecs of the building blocks.
-/

namespace ChipAtlas

/-- What values are taken from. -/
inductive Source where
  /-- Bytes at hand. -/
  | plain (bytes : List UInt8)
  /-- The content of a compressed file. -/
  | packed (reader : Zstandard.Reader)

/-- The next bytes, if there are so many. -/
def Source.read? (count : Nat) : Source → Option (List UInt8 × Source)
  | .plain bytes =>
    let (front, rest) := bytes.splitAt count
    if front.length = count then some (front, .plain rest) else none
  | .packed reader => (reader.read? count).map fun (front, reader) => (front, .packed reader)

/-- Takes a value from the front of a source. -/
abbrev Take := StateT Source Option

/-- How a type is written as bytes and read back. -/
structure Codec (α : Type) where
  put : α → List UInt8
  take : Take α

namespace Codec

variable {α β κ ν : Type}

/-! ### Bytes and numbers -/

/-- A number of bytes, in one request. -/
def takeBytes (count : Nat) : Take (List UInt8) := Source.read? count

/-- One byte. -/
def byte : Codec UInt8 where
  put b := [b]
  take := do
    match ← takeBytes 1 with
    | [b] => return b
    | _ => failure

/-- The bytes of a number: alone if it is small, or behind the mark of their width. -/
def putNat (n : Nat) : List UInt8 :=
  if n < 251 then [.ofNat n]
  else if n < UInt16.size then 251 :: littleEndian 2 n
  else if n < UInt32.size then 252 :: littleEndian 4 n
  else 253 :: littleEndian 8 n

/-- The number of bytes behind a mark. -/
def markedWidth (mark : UInt8) : Option Nat :=
  if mark = 251 then some 2
  else if mark = 252 then some 4
  else if mark = 253 then some 8
  else none

/-- A number, written in no more than the given number of bytes behind its mark. -/
def takeNat (maxWidth : Nat) : Take Nat := do
  let first ← byte.take
  if first < 251 then return first.toNat
  let width ← (markedWidth first : Option Nat)
  if width ≤ maxWidth then return ofLittleEndian (← takeBytes width) else failure

/-- A natural number of up to eight bytes. -/
def nat : Codec Nat := ⟨putNat, takeNat 8⟩

/-- A natural number of up to four bytes. -/
def nat32 : Codec Nat := ⟨putNat, takeNat 4⟩

/-- An unsigned 32-bit number. -/
def uint32 : Codec UInt32 := ⟨fun n => putNat n.toNat, UInt32.ofNat <$> takeNat 4⟩

/-- Folds the integers onto the natural numbers: 0, -1, 1, -2, 2, … -/
def fold : Int → Nat
  | .ofNat n => 2 * n
  | .negSucc n => 2 * n + 1

/-- The integer that is folded onto a natural number. -/
def unfold (n : Nat) : Int := if n % 2 = 0 then .ofNat (n / 2) else .negSucc (n / 2)

/-- A signed 32-bit number. -/
def int32 : Codec Int32 :=
  ⟨fun i => putNat (fold i.toInt), (fun n => Int32.ofInt (unfold n)) <$> takeNat 4⟩

/-- A flag, 0 or 1. -/
def flag : Codec Bool where
  put b := [if b then 1 else 0]
  take := do
    match ← byte.take with
    | 0 => return false
    | 1 => return true
    | _ => failure

/-! ### Texts, lists and maps -/

/-- A UTF-8 text behind the number of its bytes. -/
def text : Codec String where
  put s := putNat s.utf8ByteSize ++ s.toUTF8.data.toList
  take := do
    let bytes ← takeBytes (← takeNat 8)
    (String.fromUTF8? ⟨bytes.toArray⟩ : Option String)

/-- A number of values, one after the other. -/
def takeMany (c : Codec α) : Nat → Take (List α)
  | 0 => return []
  | n + 1 => return (← c.take) :: (← takeMany c n)

/-- A list behind its length. -/
def list (c : Codec α) : Codec (List α) where
  put as := putNat as.length ++ as.flatMap c.put
  take := do takeMany c (← takeNat 8)

/-- An array behind its length. -/
def array (c : Codec α) : Codec (Array α) where
  put as := (list c).put as.toList
  take := List.toArray <$> (list c).take

/-- A value that may be absent. -/
def option (c : Codec α) : Codec (Option α) where
  put
    | none => [0]
    | some a => 1 :: c.put a
  take := do
    match ← byte.take with
    | 0 => return none
    | 1 => return some (← c.take)
    | _ => failure

/-- Two values, one after the other. -/
def pair (c : Codec α) (d : Codec β) : Codec (α × β) where
  put p := c.put p.1 ++ d.put p.2
  take := return (← c.take, ← d.take)

/-- A map in order of first insertion, as the list of its entries. -/
def orderedMap [DecidableEq κ] (c : Codec κ) (d : Codec ν) : Codec (OrderedMap κ ν) where
  put m := (list (pair c d)).put m.entries
  take := OrderedMap.ofList <$> (list (pair c d)).take

/-- A map in the order of its names, as the list of its entries. -/
def sortedMap (d : Codec ν) : Codec (SortedMap ν) where
  put m := (list (pair text d)).put m.entries
  take := SortedMap.ofList <$> (list (pair text d)).take

/-- The number of the byte form of tables. -/
def tableForm : UInt8 := 1

/-- Whether a table may have so many rows and columns: the numbers that are not zero have a product
below 2^63, also when the other is zero and the table is empty. -/
def fitsTable (rows cols : Nat) : Bool := max 1 rows * max 1 cols < 1 <<< 63

/-- A table: the number of its form, its rows and columns, and the list of its entries. -/
def table (c : Codec α) : Codec (Table α) where
  put t := tableForm :: (nat.put t.rows ++ nat.put t.cols ++ (array c).put t.elems)
  take := do
    if (← byte.take) ≠ tableForm then failure
    let rows ← nat.take
    let cols ← nat.take
    let elems ← (array c).take
    if !fitsTable rows cols then failure
    if h : elems.size = rows * cols then return ⟨rows, cols, elems, h⟩ else failure

/-! ### Alternatives -/

/-- The number of a case. -/
def putCase (n : Nat) : List UInt8 := putNat n

/-- One of a few values, as its number in a list of them all. -/
def oneOf [DecidableEq α] (values : List α) : Codec α where
  put a := putCase (values.idxOf a)
  take := do (values[← takeNat 4]? : Option α)

end Codec

end ChipAtlas
