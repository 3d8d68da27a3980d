import ChipAtlas.Event
import ChipAtlas.Text.Blank
import ChipAtlas.Text.Lines

/-!
# Reading line by line

A chip database is read strictly forwards, one line at a time. The state of a reading is the lines
that are still unread, the place reached, the key stream once the key is known, the plaintext dump
if one is wanted, and the events so far.

Every step keeps its state also when it fails: a line that was taken stays taken, and the cursor of
the key stream stays where a faulty field left it. Reading on after a failure is therefore well
defined.

* `Selection` — which fields of a line are ciphered;
* `Reading.line` — takes the next line, deciphers the selected fields and dumps the result;
* `Reading.peekBlank` — looks at the next line without taking it;
* `Reading.scan` — takes lines up to one that a test picks out.
-/

namespace ChipAtlas

open Cipher (KeyStream)

/-! ### The plaintext dump -/

/-- The sink for deciphered lines: what it holds, and how much it can hold in all. -/
structure Dump where
  bytes : Array UInt8 := #[]
  limit : Option Nat := none
  deriving DecidableEq, Repr

/-- Writes a text into the sink, cut where the sink is full, and tells whether all of it went in. -/
def Dump.write (d : Dump) (text : String) : Dump × Bool :=
  let bytes := d.bytes ++ text.toUTF8.data
  match d.limit with
  | none => ({ d with bytes }, true)
  | some limit => ({ d with bytes := bytes.take limit }, bytes.size ≤ limit)

/-- A record as a line of the dump. -/
def dumpLine (fields : Record) : String := String.intercalate " " fields ++ "\n"

/-! ### Which fields are ciphered -/

/-- Which fields of a line are ciphered: the listed ones, in the order of the list, or all but the
listed ones, from left to right. -/
inductive Selection where
  | only (indices : List Nat)
  | allBut (indices : List Nat)
  deriving DecidableEq, Repr

/-- The selected positions of a line with the given number of fields. -/
def Selection.indices (fields : Nat) : Selection → List Nat
  | .only indices => indices
  | .allBut indices => (List.range fields).filter (· ∉ indices)

/-! ### The state of a reading -/

/-- The state of a reading. -/
structure Reading where
  lines : List Text.Line
  place : Place := ⟨.header, 0, 0⟩
  keys : Option KeyStream := none
  dump : Option Dump := none
  log : Array Event := #[]
  deriving DecidableEq, Repr

/-- Work on a reading that keeps its state when it fails. -/
abbrev Read := EStateM Failure Reading

namespace Reading

/-- The reading of a file, from its first line. -/
def ofBytes (bytes : List UInt8) (dump : Option Dump := none) : Reading :=
  { lines := Text.linesOf bytes, dump }

/-- The cursor of the key stream. -/
def cursor (s : Reading) : Option Nat := s.keys.map (·.cursor)

/-- Refuses the file, at the place reached. -/
def refuse {α : Type} (cause : Cause) : Read α := fun s => .error (.violation ⟨cause, s.place⟩) s

/-- Reports an event. -/
def note (event : Event) : Read Unit := fun s => .ok () { s with log := s.log.push event }

/-- Begins a section. -/
def enter (part : Section) : Read Unit := fun s =>
  .ok ()
    { s with
      log := s.log.push (.entered part (s.place.line + 1))
      place := { s.place with part, record := 0 } }

/-- Begins a record of the section. -/
def setRecord (record : Nat) : Read Unit := fun s =>
  .ok () { s with place := { s.place with record } }

/-- Goes on with another key stream. -/
def setKeyStream (keys : KeyStream) : Read Unit := fun s => .ok () { s with keys := some keys }

/-- Starts the key stream of a key. -/
def setKey (key : String) : Read Unit := fun s =>
  match KeyStream.create key 0 with
  | .ok keys => .ok () { s with keys := some keys }
  | .error fault => refuse (.cipher fault) s

/-- Counts one more line as asked for. -/
def nextPlace (s : Reading) : Place := { s.place with line := s.place.line + 1 }

/-- Takes the next line. Asking for a line that is not there counts as well. -/
def takeLine : Read String := fun s =>
  -- the line counts as taken in every case, so that reading on is well defined
  let taken := { s with lines := s.lines.tail, place := s.nextPlace }
  match s.lines with
  | [] => refuse .unexpectedEnd taken
  | .text line :: _ => .ok line taken
  | .unreadable :: _ => .error (.io ⟨.unreadableText, .nothing⟩) taken

/-- Whether the next line is blank. An unreadable line is taken, so that the failure is reported
once and the line after it is next. -/
def peekBlank : Read Bool := fun s =>
  match s.lines with
  | [] => .error (.violation ⟨.unexpectedEnd, s.nextPlace⟩) s
  | .text line :: _ => .ok (Text.isBlankLine line) s
  | .unreadable :: _ => (takeLine *> pure false) s

/-- Deciphers one field. -/
def decipher (field : String) : Read String := fun s =>
  match s.keys with
  | none => refuse (.cipher .noKey) s
  | some keys =>
    match KeyStream.decipher field keys with
    | .ok text keys => .ok text { s with keys := some keys }
    -- the cursor stays where the field went wrong
    | .error fault keys => refuse (.cipher fault) { s with keys := some keys }

/-- Deciphers the fields at the listed positions, one after the other. -/
def decipherAt : List Nat → Record → Read Record
  | [], fields => pure fields
  | i :: indices, fields =>
    match fields[i]? with
    -- the line is shorter than its selection, and the positions before this one are deciphered
    | none => refuse (.missingField i fields.length)
    | some field => do
      let text ← decipher field
      decipherAt indices (fields.set i text)

/-- Writes a record into the dump, if there is one. -/
def emit (fields : Record) : Read Unit := fun s =>
  match s.dump with
  | none => .ok () s
  | some dump =>
    match dump.write (dumpLine fields) with
    | (dump, true) => .ok () { s with dump := some dump }
    | (dump, false) => .error (.io ⟨.shortWrite, .nothing⟩) { s with dump := some dump }

/-- Takes the next line as a record, with the selected fields deciphered. -/
def line (selection : Selection) : Read Record := do
  let fields := Text.wordsOf (← takeLine)
  let fields ← decipherAt (selection.indices fields.length) fields
  -- the dump does not keep the blanks of the line: the fields stand one blank apart
  emit fields
  return fields

/-- Takes lines as records, numbered from the given number on, up to the first that passes the test.
The unread lines bound the search: past the last of them taking a line fails. -/
def scanLines (stop : Record → Bool) : List Text.Line → Nat → Read (List Record)
  | [], record => do
    setRecord record
    -- no line is left, and asking for one says so
    return [← line (.only [0])]
  | _ :: unread, record => do
    setRecord record
    let fields ← line (.only [0])
    if stop fields then return [fields]
    else return fields :: (← scanLines stop unread (record + 1))

/-- Takes lines, with their first fields deciphered, up to the first that passes the test. -/
def scan (stop : Record → Bool) : Read (List Record) := fun s => scanLines stop s.lines 0 s

end Reading

end ChipAtlas
