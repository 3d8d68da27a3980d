import ChipAtlas.Text.Hex

/-!
# The rolling key

Selected fields of a chip database are written in a substitution cipher. The key is a non-empty
ASCII text; a cursor walks over it symbol by symbol, wraps at its end, and is shared by all fields
of a file in the order in which they are read. Each character of a field takes one step of the
cursor, and the symbol under the cursor decides how the character is substituted.

A character that has no substitute is written as itself behind an escape mark; the pair takes one
step. A fault leaves the cursor where the work stopped, so a reader and a writer that fail at the
same place still agree.

* `KeyStream.create` — a key stream exists for every non-empty ASCII key and every start;
* `shift` — the substitution, from ciphertext to plaintext;
* `KeyStream.decipher` and `KeyStream.encipher` — one field, in both directions.
-/

namespace ChipAtlas.Cipher

/-! ### Faults -/

/-- Why a field cannot be deciphered or enciphered. -/
inductive Fault where
  | noKey
  | emptyKey
  | nonAscii (byte : UInt8)
  | danglingEscape
  | unencodable (byte : UInt8)
  deriving DecidableEq, Repr

/-- A byte as it is named in messages. -/
def byteName (byte : UInt8) : String := "0x" ++ Text.hexPadded 2 byte.toNat

/-- The wording of a fault. -/
def Fault.message : Fault → String
  | .noKey => "ciphered field before the key was read"
  | .emptyKey => "empty key"
  | .nonAscii byte => s!"non-ASCII byte {byteName byte} in ciphered field"
  | .danglingEscape => "escape marker at end of field"
  | .unencodable byte => s!"byte {byteName byte} cannot be enciphered"

/-! ### Characters -/

/-- Membership in ASCII. -/
def isAscii (c : Char) : Bool := c.toNat < 128

/-- Membership in the graphic characters of ASCII: no blank and no control. -/
def isGraphic (c : Char) : Bool := 0x21 ≤ c.toNat && c.toNat ≤ 0x7E

/-- The first byte of a character in UTF-8. -/
def leadByte (c : Char) : UInt8 := (String.utf8EncodeChar c).headD 0

/-- The mark in front of a character that stands for itself. -/
def escapeMark : Char := '!'

/-- How far a substitution that falls out of the plaintext range is moved back into it. -/
def wrap : Int := 93

/-- The plaintext character for a ciphertext character under a key symbol: their difference, wrapped
once if it is negative and once if it falls below the blank. A blank stands for itself. -/
def shift (c k : Char) : Char :=
  if c = ' ' then ' '
  else
    let difference : Int := c.toNat - k.toNat
    -- a difference below zero is moved once, and one that is still not printable once more
    let wrapped := if c.toNat < k.toNat then difference + wrap else difference
    Char.ofNat (if wrapped < 0x20 then wrapped + wrap else wrapped).toNat

/-- The characters that a writer uses as substitutes, in its order of preference. -/
def substitutes : List Char := (List.range' 0x22 93).map Char.ofNat

/-! ### Key streams -/

/-- A key and the position of the symbol that the next character takes. -/
structure KeyStream where
  key : List Char
  cursor : Nat
  cursor_lt : cursor < key.length
  ascii : ∀ c ∈ key, isAscii c
  deriving DecidableEq, Repr

/-- Work that moves the cursor, also when it fails. -/
abbrev Ciphering := EStateM Fault KeyStream

namespace KeyStream

/-- The key stream of a key text, started at a position counted modulo its length. -/
def create (key : String) (start : Nat) : Except Fault KeyStream :=
  if nonempty : key.toList.length = 0 then .error .emptyKey
  else
    -- the first symbol that is not ASCII is the one that the fault names
    match h : key.toList.find? (!isAscii ·) with
    | some c => .error (.nonAscii (leadByte c))
    | none =>
      .ok
        { key := key.toList
          cursor := start % key.toList.length
          cursor_lt := Nat.mod_lt _ (Nat.pos_of_ne_zero nonempty)
          ascii := fun c hc => by simpa using List.find?_eq_none.1 h c hc }

/-- The key as text. -/
def text (ks : KeyStream) : String := String.ofList ks.key

/-- The symbol under the cursor. -/
def symbol (ks : KeyStream) : Char := ks.key.get ⟨ks.cursor, ks.cursor_lt⟩

/-- Moves the cursor by one symbol, back to the start at the end of the key. -/
def advance (ks : KeyStream) : KeyStream :=
  { ks with
    cursor := (ks.cursor + 1) % ks.key.length
    cursor_lt := Nat.mod_lt _ (Nat.zero_lt_of_lt ks.cursor_lt) }

/-- Takes the symbol under the cursor and moves on. -/
def step : Ciphering Char := fun ks => .ok ks.symbol ks.advance

/-- Deciphers a run of characters. A character outside ASCII is refused before its step, an escape
mark without an ASCII character behind it after its step. -/
def decipherChars : List Char → Ciphering (List Char)
  | [] => pure []
  | c :: rest =>
    if isAscii c then do
      let k ← step
      -- the mark and the character behind it share the step, whatever its symbol is
      if c = escapeMark then
        match rest with
        | [] => throw .danglingEscape
        | literal :: rest =>
          if isAscii literal then
            return literal :: (← decipherChars rest)
          else throw (.nonAscii (leadByte literal))
      else return shift c k :: (← decipherChars rest)
    else throw (.nonAscii (leadByte c))

/-- What is written for one plaintext character under a key symbol: the first substitute that
deciphers to it, or the character itself behind an escape mark. -/
def cipherText (k c : Char) : List Char :=
  match substitutes.find? (shift · k = c) with
  | some s => [s]
  | none => [escapeMark, c]

/-- Enciphers a run of characters. Only graphic characters can be written; another one is refused
before its step. -/
def encipherChars : List Char → Ciphering (List Char)
  | [] => pure []
  | c :: rest =>
    if isGraphic c then do
      let k ← step
      return cipherText k c ++ (← encipherChars rest)
    else throw (.unencodable (leadByte c))

/-- Deciphers one field. -/
def decipher (field : String) : Ciphering String :=
  String.ofList <$> decipherChars field.toList

/-- Enciphers one field. -/
def encipher (field : String) : Ciphering String :=
  String.ofList <$> encipherChars field.toList

end KeyStream

end ChipAtlas.Cipher
