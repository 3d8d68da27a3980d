import ChipAtlas.Bits.Catalog
import ChipAtlas.Reading.Script

/-!
# The table of configuration bits

The table is a row of blocks, one after the other and closed by a blank line. A block opens with the
name of a tile kind and the number of its bits, and is closed by a blank line, as is each bit. A bit
is a line of twelve fields, its expression in infix and in postfix order, and a line for each
variable.
-/

namespace ChipAtlas

namespace ConfigBit

/-- The number of fields in the first line of a bit. -/
def headFields : Nat := 12

/-- The kind of a bit that is not relocated. -/
def noKind : String := "NONE"

/-- A line of symbol codes of a given length. -/
def tokensScript (length : Nat) : Script (List Token) := do
  let line ← Script.fields []
  Script.expectLength line length
  Script.forEach line.length fun i => do
    return Token.ofCode (← Script.number Text.uint32? line i)

/-- A number of lines that each describe a variable. -/
def varsScript (n : Nat) : Script (OrderedMap UInt32 Operand) :=
  Script.foldTimes n (fun _ vars => do
    let line ← Script.fields [1]
    let id ← Script.number Text.uint32? line 0
    let raw ← Script.field line 1
    -- a variable that is described twice keeps the later description
    return vars.insert id (.ofText raw)) ∅

/-- One bit. It is relocated exactly if it names a kind. -/
def script : Script ConfigBit := do
  let head ← Script.fields [0, 1]
  Script.expectLength head headFields
  let name ← Script.fieldAt head 0
  let kind ← Script.fieldAt head 1
  let frame ← Script.number Text.uint32? head 2
  let bit ← Script.number Text.uint32? head 3
  let xoff ← Script.number Text.int32? head 4
  let yoff ← Script.number Text.int32? head 5
  let usesWireOrArc ← Script.flag head 6 "usesWireOrArc"
  let remap ← Script.flag head 7 "remap"
  let pllInfo ← Script.flag head 8 "pllInfo"
  -- the flag repeats what the kind says, and the two have to agree
  if remap ≠ (kind ≠ noKind) then .refuse (.remapKind remap kind)
  -- the sizes of the rows come first, then the rows
  let infixCount ← Script.count head 9
  let postfixCount ← Script.count head 10
  let varCount ← Script.count head 11
  let infixTokens ← tokensScript infixCount
  let postfixTokens ← tokensScript postfixCount
  let vars ← varsScript varCount
  Script.blankLine
  return { name, kind, frame, bit, xoff, yoff, usesWireOrArc, remap, pllInfo, infixTokens,
           postfixTokens, vars }

end ConfigBit

namespace Catalogs

/-- One block: its header and its bits. -/
def blockScript : Script (String × Record × List ConfigBit) := do
  let header ← Script.fields [0]
  let kind ← Script.field header 0
  let n ← Script.count header 1
  let bits ← Script.times n ConfigBit.script
  Script.blankLine
  return (kind, header, bits)

/-- The table of configuration bits. -/
def script : Script Catalogs := do
  .enter .bits (.done ())
  let tag ← Script.fields [0]
  Script.expectTag tag "bcc_info"
  let n ← Script.count tag 1
  -- blocks of the same kind are joined as they come
  let catalogs ← Script.foldTimes n (fun i (catalogs : Catalogs) => do
    .setRecord i (.done ())
    let (kind, header, bits) ← blockScript
    return catalogs.addBlock kind [header] bits) ∅
  Script.blankLine
  .note (.catalogsRead catalogs.size) (.done ())
  return catalogs

end Catalogs

end ChipAtlas
