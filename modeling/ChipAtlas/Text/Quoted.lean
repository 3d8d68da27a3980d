import ChipAtlas.Text.Hex
import ChipAtlas.Text.Property.GraphemeExtend
import ChipAtlas.Text.Property.Unprintable

/-!
# Quoted text

Messages show a piece of a file between double quotes. Inside them every character can be read off:
the quote and the backslash stand behind a backslash, the four usual controls have letters of their
own, and a character that has no printed form, or that is drawn on the character in front of it, is
named by its code point in braces.
-/

namespace ChipAtlas.Text

/-- Whether a quoted text names a character by its code point. -/
def isNamedByCode (c : Char) : Bool :=
  Property.inRanges Property.graphemeExtendRanges c ||
    Property.inRanges Property.unprintableRanges c

/-- A character as it is written inside quotes. -/
def quotedChar (c : Char) : String :=
  match c with
  | '\x00' => "\\0"
  | '\t' => "\\t"
  | '\r' => "\\r"
  | '\n' => "\\n"
  | '\\' => "\\\\"
  | '"' => "\\\""
  | _ => if isNamedByCode c then "\\u\x7b" ++ hex c.toNat ++ "\x7d" else c.toString

/-- A text between double quotes. -/
def quoted (s : String) : String :=
  "\"" ++ String.join (s.toList.map quotedChar) ++ "\""

end ChipAtlas.Text
