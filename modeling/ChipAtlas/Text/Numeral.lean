/-!
# Decimal numerals

A number is written as a non-empty run of ASCII digits, leading zeros allowed, behind an optional
plus sign; a type with negative numbers also takes a minus sign. Nothing else is a numeral: no
blank, no separator, no digit outside ASCII. A numeral whose value is outside the range of the type
that is asked for is no numeral of that type.
-/

namespace ChipAtlas.Text

/-- The value of one ASCII digit. -/
def digitValue (c : Char) : Nat := c.toNat - '0'.toNat

/-- The value of a non-empty run of ASCII digits. -/
def digits? (cs : List Char) : Option Nat :=
  if cs ≠ [] ∧ cs.all Char.isDigit then
    some (cs.foldl (fun n c => 10 * n + digitValue c) 0)
  else none

/-- A numeral without a minus sign. -/
def natural? : List Char → Option Nat
  | '+' :: cs => digits? cs
  | cs => digits? cs

/-- A numeral with any sign. -/
def integer? : List Char → Option Int
  | '-' :: cs => (digits? cs).map fun n => -(n : Int)
  | cs => (natural? cs).map fun n => (n : Int)

/-- A count or a position: a natural number below 2^64. -/
def count? (s : String) : Option Nat :=
  (natural? s.toList).filter (· < UInt64.size)

/-- An unsigned 32-bit number. -/
def uint32? (s : String) : Option UInt32 :=
  ((natural? s.toList).filter (· < UInt32.size)).map UInt32.ofNat

/-- An integer from `-bound` up to, but without, `bound`. -/
def integerWithin? (bound : Nat) (s : String) : Option Int :=
  (integer? s.toList).filter fun i => -(bound : Int) ≤ i ∧ i < bound

/-- A signed 32-bit number. -/
def int32? (s : String) : Option Int32 :=
  (integerWithin? (1 <<< 31) s).map Int32.ofInt

/-- A signed 64-bit number. -/
def int64? (s : String) : Option Int :=
  integerWithin? (1 <<< 63) s

end ChipAtlas.Text
