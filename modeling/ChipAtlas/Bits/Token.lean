/-!
# Symbols of bit expressions

A configuration bit is a Boolean expression over variables of the tile configuration. The file
spells it as a row of numeric codes: ten fixed symbols, and from ten on one code per variable.

* `Token.ofCode` and `Token.code` — a symbol is found by its code, `code_ofCode`;
* `Operand` — a variable: its raw text and the kind of property that the text names.
-/

namespace ChipAtlas

/-- One symbol of a bit expression. -/
inductive Token where
  | falseConst
  | trueConst
  /-- A code from two to four, whose meaning is unknown. -/
  | unknown (code : UInt8)
  | leftParen
  | rightParen
  | orOp
  | andOp
  | notOp
  | var (id : UInt32)
  deriving DecidableEq, Repr

namespace Token

/-- The symbol of a code. -/
def ofCode (code : UInt32) : Token :=
  if code = 0 then falseConst
  else if code = 1 then trueConst
  else if code ≤ 4 then unknown code.toUInt8
  else if code = 5 then leftParen
  else if code = 6 then rightParen
  else if code = 7 then orOp
  else if code = 8 then andOp
  else if code = 9 then notOp
  else var code

/-- The code of a symbol. -/
def code : Token → UInt32
  | falseConst => 0
  | trueConst => 1
  | unknown code => code.toUInt32
  | leftParen => 5
  | rightParen => 6
  | orOp => 7
  | andOp => 8
  | notOp => 9
  | var id => id

/-- The text of a symbol in an expression. -/
def text : Token → String
  | falseConst => "0"
  | trueConst => "1"
  | unknown code => s!"?{code.toNat}"
  | leftParen => "("
  | rightParen => ")"
  | orOp => "+"
  | andOp => "*"
  | notOp => "~"
  | var id => s!"v{id.toNat}"

/-- A symbol keeps the code that it was found by. -/
@[simp] theorem code_ofCode (c : UInt32) : (ofCode c).code = c := by
  unfold ofCode
  repeat' split
  all_goals try (simp_all [code]; done)
  -- the symbols without a meaning keep their codes in a byte, which is wide enough
  next h =>
    have : c.toNat ≤ 4 := by simpa [UInt32.le_iff_toNat_le] using h
    simp only [code]
    apply UInt32.toNat.inj
    simp only [UInt8.toNat_toUInt32, UInt32.toNat_toUInt8]
    omega

end Token

/-! ### Variables -/

/-- The kinds of tile property that a variable can stand for. -/
inductive OperandKind where
  | property
  | arcVal
  | comp
  | memory
  | selector
  | wire
  | ports
  | other
  deriving DecidableEq, Repr

/-- The kind that is named in front of the first opening parenthesis of a raw text. -/
def OperandKind.ofText (raw : String) : OperandKind :=
  match String.ofList (raw.toList.takeWhile (· ≠ '(')) with
  | "PROPERTY" => .property
  | "ARCVAL" => .arcVal
  | "COMP" => .comp
  | "MEMORY" => .memory
  | "SELECTOR" => .selector
  | "WIRE" => .wire
  | "PORTS" => .ports
  | _ => .other

/-- A variable of a bit expression. -/
structure Operand where
  kind : OperandKind
  raw : String
  deriving DecidableEq, Repr

/-- The variable that a raw text describes. -/
def Operand.ofText (raw : String) : Operand := ⟨.ofText raw, raw⟩

end ChipAtlas
