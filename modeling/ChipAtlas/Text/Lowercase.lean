import ChipAtlas.Text.Property.CaseIgnorable
import ChipAtlas.Text.Property.Cased
import ChipAtlas.Text.Property.CodeRange
import ChipAtlas.Text.Property.LowerMapping

/-!
# Lower case

Tile kinds are compared in lower case. A letter is replaced by its simple lower-case mapping, with
the two exceptions of the Unicode standard that do not depend on a language: a capital I with a dot
keeps the dot as a combining mark, and a capital sigma at the end of a word becomes a final sigma.
-/

namespace ChipAtlas.Text

/-- Whether the first character that is not passed over is a cased letter. -/
def meetsCased (cs : List Char) : Bool :=
  match cs.dropWhile (Property.inRanges Property.caseIgnorableRanges) with
  | c :: _ => Property.inRanges Property.casedRanges c
  | [] => false

/-- The lower case of a character, given what stands before it, nearest first, and after it. -/
def lowerAt (before : List Char) (c : Char) (after : List Char) : List Char :=
  match c with
  | 'İ' => ['i', '\u0307']
  | 'Σ' => if meetsCased before && !meetsCased after then ['ς'] else ['σ']
  | _ => [Property.lowerChar c]

/-- The lower case of a run of characters, given what stands before it, nearest first. -/
def lowerFrom (before : List Char) : List Char → List Char
  | [] => []
  | c :: after => lowerAt before c after ++ lowerFrom (c :: before) after

/-- A text in lower case. -/
def lowercase (s : String) : String := String.ofList (lowerFrom [] s.toList)

end ChipAtlas.Text
