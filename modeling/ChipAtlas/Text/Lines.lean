/-!
# The lines of a file

A file is a sequence of bytes; a line feed ends a line, and the last line may lack it. Each line is
UTF-8 text of its own: a line that is not valid UTF-8 is unreadable and leaves the lines around it
as they are.

* `splitLines` — the byte lines of a file;
* `Line` — a line as text, or the fact that it is no text;
* `linesOf` — the lines of a file, in order.
-/

namespace ChipAtlas.Text

/-- The byte that ends a line. -/
def lineFeed : UInt8 := 10

/-- Puts one more byte in front of a file that is already split. -/
def addByte (b : UInt8) (lines : List (List UInt8)) : List (List UInt8) :=
  if b = lineFeed then [] :: lines
  else
    match lines with
    -- the last line may lack its line feed
    | [] => [[b]]
    | l :: ls => (b :: l) :: ls

/-- The lines of a file without their line feeds. An empty file has no line, and a line feed at the
very end opens no further line. -/
def splitLines (bytes : List UInt8) : List (List UInt8) :=
  bytes.foldr addByte []

@[simp] theorem splitLines_nil : splitLines [] = [] := rfl

theorem splitLines_cons (b : UInt8) (bytes : List UInt8) :
    splitLines (b :: bytes) = addByte b (splitLines bytes) := rfl

/-- A line of a file: its text, or nothing readable. -/
inductive Line where
  | text (line : String)
  | unreadable
  deriving DecidableEq, Repr

/-- A byte line as text. -/
def Line.ofBytes (bytes : List UInt8) : Line :=
  match String.fromUTF8? ⟨bytes.toArray⟩ with
  | some line => .text line
  | none => .unreadable

/-- The lines of a file, in order. -/
def linesOf (bytes : List UInt8) : List Line :=
  (splitLines bytes).map Line.ofBytes

end ChipAtlas.Text
