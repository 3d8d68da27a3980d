import ChipAtlas.Cipher.KeyStream
import ChipAtlas.Text.Quoted

/-!
# What can be wrong with a file

A chip database either has the prescribed form or violates it at a definite place: a section, a
record counted within the section, and a line counted from one. `Cause` lists every way to violate
the form, `Violation` adds the place, and `Failure` joins the violations with the failures of the
input and output around the reader.
-/

namespace ChipAtlas

/-- The fields of a line. -/
abbrev Record := List String

/-! ### Places -/

/-- The sections of a chip database, in file order. -/
inductive Section where
  | header
  | architecture
  | routing
  | legacyRouting
  | models
  | names
  | constraints
  | pack
  | timing
  | serdes
  | bits
  | tiles
  | trailer
  deriving DecidableEq, Repr

/-- The name of a section in messages. -/
def Section.name : Section → String
  | .header => "header"
  | .architecture => "architecture"
  | .routing => "routing"
  | .legacyRouting => "legacy routing"
  | .models => "models"
  | .names => "names"
  | .constraints => "constraints"
  | .pack => "pack"
  | .timing => "TimingLib"
  | .serdes => "serdes"
  | .bits => "bcc_info"
  | .tiles => "bil_info"
  | .trailer => "trailer"

/-- All sections, in file order. -/
def Section.all : List Section :=
  [.header, .architecture, .routing, .legacyRouting, .models, .names, .constraints, .pack, .timing,
    .serdes, .bits, .tiles, .trailer]

/-- The section with a name. -/
def Section.ofName? (name : String) : Option Section :=
  Section.all.find? (·.name = name)

/-- A place in a file: the section, the record within it, and the line, counted from one. -/
structure Place where
  part : Section
  record : Nat
  line : Nat
  deriving DecidableEq, Repr

/-! ### Causes -/

/-- The ways in which a file can violate the prescribed form. -/
inductive Cause where
  | unexpectedEnd
  | missingField (index len : Nat)
  | cipher (fault : Cipher.Fault)
  | badNumber (index : Nat) (value : String)
  | wrongTag (expected found : String)
  | notZero (index : Nat) (value : String)
  | indexEcho (expected found : String)
  | notEmpty (fields : Nat)
  | countMismatch (expected found : Nat)
  | totalMismatch (declared counted : Nat)
  | badFlag (name value : String)
  | remapKind (remap : Bool) (kind : String)
  | badSelector (selector : UInt32)
  | outsideGrid (x y : UInt32)
  | duplicateCell (x y : UInt32)
  | placeholderExtent
  deriving DecidableEq, Repr

/-- The wording of a cause. -/
def Cause.message : Cause → String
  | .unexpectedEnd => "unexpected end of file"
  | .missingField index len => s!"field {index} missing from a {len}-field line"
  | .cipher fault => fault.message
  | .badNumber index value => s!"field {index} is not a number: {Text.quoted value}"
  | .wrongTag expected found =>
    s!"expected tag {Text.quoted expected}, found {Text.quoted found}"
  | .notZero index value => s!"field {index} must be zero, found {Text.quoted value}"
  | .indexEcho expected found => s!"index echo mismatch: expected {expected}, found {found}"
  | .notEmpty fields => s!"expected empty sentinel line, found {fields} fields"
  | .countMismatch expected found => s!"expected {expected} fields, found {found}"
  | .totalMismatch declared counted => s!"declared {declared} instances, counted {counted}"
  | .badFlag name value => s!"flag {name} must be 0 or 1, found {Text.quoted value}"
  | .remapKind remap kind => s!"remap={remap.toNat} inconsistent with type {Text.quoted kind}"
  | .badSelector selector => s!"unknown model selector {selector.toNat}"
  | .outsideGrid x y => s!"cell x{x.toNat}y{y.toNat} outside the grid"
  | .duplicateCell x y => s!"cell x{x.toNat}y{y.toNat} listed twice"
  | .placeholderExtent => "placeholder instance with non-zero extent or address"

/-- A cause at a place. -/
structure Violation where
  cause : Cause
  place : Place
  deriving DecidableEq, Repr

/-- The wording of a violation. -/
def Violation.message (v : Violation) : String :=
  s!"line {v.place.line}: {v.place.part.name} record {v.place.record}: {v.cause.message}"

/-! ### Failures -/

/-- The failures of files, directories and output sinks. -/
inductive IoCause where
  /-- A line of the input is not UTF-8. -/
  | unreadableText
  /-- A sink took less than it was given. -/
  | shortWrite
  | notFound
  | alreadyExists
  | notADirectory
  | isADirectory
  /-- A directory stands where an output file is to be published. -/
  | directoryInTheWay
  | directoryNotEmpty
  | nameTooLong
  | nulInName
  /-- A move onto a directory that is in use as such. -/
  | busy
  | invalidArgument
  /-- Another failure, in the words of the system. -/
  | other (message : String)
  deriving DecidableEq, Repr

/-- The wording of a failure of input or output. -/
def IoCause.message : IoCause → String
  | .unreadableText => "stream did not contain valid UTF-8"
  | .shortWrite => "failed to write whole buffer"
  | .notFound => "No such file or directory (os error 2)"
  | .alreadyExists => "File exists (os error 17)"
  | .notADirectory => "Not a directory (os error 20)"
  | .isADirectory => "Is a directory (os error 21)"
  | .directoryInTheWay => "is a directory"
  | .directoryNotEmpty => "Directory not empty (os error 39)"
  | .nameTooLong => "File name too long (os error 36)"
  | .nulInName => "file name contained an unexpected NUL byte"
  | .busy => "Device or resource busy (os error 16)"
  | .invalidArgument => "Invalid argument (os error 22)"
  | .other message => message

/-- What the message of a failure names beside its cause. -/
inductive IoSubject where
  | nothing
  /-- The path of an output. -/
  | output (path : String)
  /-- A temporary file, by its path. The end of its name is random. -/
  | temporary (path : String)
  deriving DecidableEq, Repr

/-- A failure of input or output. -/
structure IoError where
  cause : IoCause
  subject : IoSubject := .nothing
  deriving DecidableEq, Repr

/-- The wording of a failure. -/
def IoError.message (e : IoError) : String :=
  match e.subject with
  | .nothing => e.cause.message
  | .output path => s!"{path}: {e.cause.message}"
  | .temporary path => s!"{e.cause.message} at path {Text.quoted path}"

/-- A position that its table does not have: a field of a record, a cell of a grid, a tile by its
number. -/
inductive OutOfRange where
  | field (index : Nat)
  | cell (x y : Nat)
  | tile (id : Nat)
  deriving DecidableEq, Repr

/-- A result that is looked up in tables, or a look-up that went past one of them. -/
abbrev Checked := Except OutOfRange

/-- Why a file was not decoded. -/
inductive Failure where
  | violation (v : Violation)
  | io (e : IoError)
  /-- A look-up went past its table. No file leads here. -/
  | breach (index : OutOfRange)
  deriving DecidableEq, Repr

/-- The wording of a failure without the words that introduce a violation. -/
def Failure.reason : Failure → String
  | .violation v => v.message
  | .io e => e.message
  | .breach _ => "index out of range"

/-- The wording of a failure. -/
def Failure.message : Failure → String
  | .violation v => s!"format violation at {v.message}"
  | f => f.reason

end ChipAtlas
