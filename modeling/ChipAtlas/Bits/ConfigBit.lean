import ChipAtlas.Bits.Token
import ChipAtlas.Data.OrderedMap
import ChipAtlas.Json

/-!
# Configuration bits

A configuration bit belongs to every tile of a kind. It has a frame and a bit offset inside the
tile, and, if it is relocated, the offset and the kind of the tile that holds it instead. Its value
is a Boolean expression, kept in infix and in postfix order over the same variables.
-/

namespace ChipAtlas

/-- One configuration bit of a tile kind. -/
structure ConfigBit where
  name : String
  kind : String
  frame : UInt32
  bit : UInt32
  xoff : Int32
  yoff : Int32
  usesWireOrArc : Bool
  remap : Bool
  pllInfo : Bool
  infixTokens : List Token
  postfixTokens : List Token
  vars : OrderedMap UInt32 Operand
  deriving DecidableEq, Repr

namespace ConfigBit

/-- A symbol of the expression: a variable that is described shows its raw text. -/
def tokenText (b : ConfigBit) : Token → String
  | .var id =>
    match b.vars.get? id with
    | some operand => operand.raw
    | none => (Token.var id).text
  | token => token.text

/-- The infix expression, with the raw texts of its variables. -/
def expression (b : ConfigBit) : String := String.join (b.infixTokens.map b.tokenText)

/-- The codes of a row of symbols. -/
def codes (tokens : List Token) : Json := .list (tokens.map fun t => .ofUInt32 t.code)

/-- A configuration bit as it is exported. -/
def toJson (b : ConfigBit) : Json :=
  .object [
    ("name", .text b.name),
    ("type", .text b.kind),
    ("frame", .ofUInt32 b.frame),
    ("bit", .ofUInt32 b.bit),
    ("xoff", .ofInt32 b.xoff),
    ("yoff", .ofInt32 b.yoff),
    ("uses_wire_or_arc", .flag b.usesWireOrArc),
    ("remap", .flag b.remap),
    ("pll_info", .flag b.pllInfo),
    ("infix", codes b.infixTokens),
    ("rpn", codes b.postfixTokens),
    ("vars", .object (b.vars.entries.map fun (id, operand) =>
      (toString id.toNat, .text operand.raw))),
    ("expression", .text b.expression)]

end ConfigBit

end ChipAtlas
