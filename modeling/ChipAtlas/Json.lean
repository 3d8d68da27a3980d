import ChipAtlas.Text.Hex

/-!
# JSON text

The exported files are JSON. A value is written either compactly, without any blank, or indented by
four blanks a level with one element or member a line; an empty list or object stays on its line.

A number is a sign and a 64-bit magnitude. The magnitude of a signed 32-bit number is its absolute
value in 32 bits, widened with its sign: the least of them, which has no absolute value in 32 bits,
is written with the magnitude 2^64 - 2^31.
-/

namespace ChipAtlas

/-- A JSON value. The members of an object stand in a fixed order. -/
inductive Json where
  | number (negative : Bool) (magnitude : UInt64)
  | flag (value : Bool)
  | text (value : String)
  | list (elements : List Json)
  | object (members : List (String × Json))
  deriving Repr, BEq

namespace Json

/-- An unsigned 32-bit number. -/
def ofUInt32 (n : UInt32) : Json := number false n.toUInt64

/-- A signed 32-bit number. -/
def ofInt32 (i : Int32) : Json := number (i < 0) i.abs.toInt64.toUInt64

/-- A character as it is written inside a JSON string: behind a backslash where it has to be. -/
def escapedChar (c : Char) : String :=
  match c with
  | '"' => "\\\""
  | '\\' => "\\\\"
  | '\n' => "\\n"
  | '\r' => "\\r"
  | '\t' => "\\t"
  | '\x08' => "\\b"
  | '\x0c' => "\\f"
  | _ => if c.toNat < 0x20 then "\\u" ++ Text.hexPadded 4 c.toNat else c.toString

/-- A JSON string. -/
def quoted (s : String) : String := "\"" ++ String.join (s.toList.map escapedChar) ++ "\""

/-- A JSON number. -/
def numeral (negative : Bool) (magnitude : UInt64) : String :=
  (if negative then "-" else "") ++ toString magnitude.toNat

/-- The text of a flag. -/
def flagText : Bool → String
  | true => "true"
  | false => "false"

mutual

/-- A value without any blank. -/
def compact : Json → String
  | number negative magnitude => numeral negative magnitude
  | flag value => flagText value
  | text value => quoted value
  | list elements => "[" ++ String.intercalate "," (compactElements elements) ++ "]"
  | object members => "\x7b" ++ String.intercalate "," (compactMembers members) ++ "\x7d"

/-- The elements of a list, each without any blank. -/
def compactElements : List Json → List String
  | [] => []
  | v :: rest => compact v :: compactElements rest

/-- The members of an object, each without any blank. -/
def compactMembers : List (String × Json) → List String
  | [] => []
  | (name, v) :: rest => (quoted name ++ ":" ++ compact v) :: compactMembers rest

end

/-- Four blanks a level. -/
def margin (level : Nat) : String := String.ofList (List.replicate (4 * level) ' ')

/-- Parts between brackets, one a line, inside a level. -/
def block (opening closing : String) (level : Nat) : List String → String
  | [] => opening ++ closing
  | parts =>
    let inner := margin (level + 1)
    opening ++ "\n" ++ String.intercalate ",\n" (parts.map (inner ++ ·)) ++ "\n" ++ margin level ++
      closing

mutual

/-- A value indented as the content of a level. -/
def indented (level : Nat) : Json → String
  | number negative magnitude => numeral negative magnitude
  | flag value => flagText value
  | text value => quoted value
  | list elements => block "[" "]" level (indentedElements (level + 1) elements)
  | object members => block "\x7b" "\x7d" level (indentedMembers (level + 1) members)

/-- The elements of a list, each indented. -/
def indentedElements (level : Nat) : List Json → List String
  | [] => []
  | v :: rest => indented level v :: indentedElements level rest

/-- The members of an object, each indented. -/
def indentedMembers (level : Nat) : List (String × Json) → List String
  | [] => []
  | (name, v) :: rest =>
    (quoted name ++ ": " ++ indented level v) :: indentedMembers level rest

end

/-- A value with four blanks a level. -/
def pretty (v : Json) : String := indented 0 v

end Json

end ChipAtlas
