import ChipAtlas.Reading.Basic

/-!
# Writing line by line

The counterpart of a reading: lines are written one after the other, and the selected fields of each
are enciphered with a key stream that walks along as it does when they are read back.

A line of which a field cannot be enciphered is not written. The cursor stays where the faulty field
left it.
-/

namespace ChipAtlas

open Cipher (Fault KeyStream)

/-- The lines written so far, and the key stream once there is one. -/
structure Writing where
  lines : Array String := #[]
  keys : Option KeyStream := none
  deriving DecidableEq, Repr

/-- Work on a writing that keeps its state when it fails. -/
abbrev Write := EStateM Fault Writing

namespace Writing

/-- What has been written, with a line feed behind every line. -/
def text (w : Writing) : String := String.join (w.lines.toList.map (· ++ "\n"))

/-- The cursor of the key stream. -/
def cursor (w : Writing) : Option Nat := w.keys.map (·.cursor)

/-- Goes on with another key stream. -/
def setKeyStream (keys : KeyStream) : Write Unit := fun w => .ok () { w with keys := some keys }

/-- Goes on with the key stream of a key. -/
def setKey (key : String) : Write Unit := fun w =>
  match KeyStream.create key 0 with
  | .ok keys => .ok () { w with keys := some keys }
  | .error fault => .error fault w

/-- Enciphers one field. -/
def encipher (field : String) : Write String := fun w =>
  match w.keys with
  | none => .error .noKey w
  | some keys =>
    match KeyStream.encipher field keys with
    | .ok text keys => .ok text { w with keys := some keys }
    | .error fault keys => .error fault { w with keys := some keys }

/-- Enciphers the fields at the listed positions, one after the other. A position past the last
field is passed over. -/
def encipherAt : List Nat → Record → Write Record
  | [], fields => pure fields
  | i :: indices, fields =>
    match fields[i]? with
    -- a reader refuses such a line, and a writer leaves it as it is
    | none => encipherAt indices fields
    | some field => do
      let text ← encipher field
      encipherAt indices (fields.set i text)

/-- Writes a line as it is. -/
def plain (line : String) : Write Unit := fun w => .ok () { w with lines := w.lines.push line }

/-- Writes a blank line. -/
def blank : Write Unit := plain ""

/-- Writes a record with the selected fields enciphered. -/
def line (selection : Selection) (fields : Record) : Write Unit := do
  let fields ← encipherAt (selection.indices fields.length) fields
  plain (String.intercalate " " fields)

end Writing

end ChipAtlas
