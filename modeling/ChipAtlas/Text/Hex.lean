/-!
# Hexadecimal numerals

Code points and bytes are named in messages and escapes by lower-case hexadecimal numerals, without
leading zeros or padded to a fixed number of digits.
-/

namespace ChipAtlas.Text

/-- The hexadecimal numeral of a number, without leading zeros. -/
def hex (n : Nat) : String := String.ofList (Nat.toDigits 16 n)

/-- The hexadecimal numeral of a number, with zeros in front up to the given number of digits. -/
def hexPadded (width n : Nat) : String :=
  let digits := Nat.toDigits 16 n
  String.ofList (List.replicate (width - digits.length) '0' ++ digits)

end ChipAtlas.Text
