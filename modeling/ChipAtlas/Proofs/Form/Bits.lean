import ChipAtlas.Format.BitTable
import ChipAtlas.Proofs.Bits.Catalog
import ChipAtlas.Proofs.Script.Walk

/-!
# The form of the table of configuration bits

A bit is read from texts: numbers and flags by their numerals, expressions by the codes of their
symbols. The table joins the catalogs of its blocks by name, so that what is kept are the blocks
grouped by name.

* `BitText`, `BlockText`, `BitTableText` — a bit, a block and the table as they are written;
* `BitTableText.accepts` — the table.
-/

namespace ChipAtlas

open Script

/-! ### Expressions -/

/-- The symbols of a line of codes. -/
def Token.rowOf (line : Record) : List Token :=
  line.filterMap fun text => (Text.uint32? text).map Token.ofCode

/-- A row of numbers that are in their places has the values of the numerals. -/
theorem forall_numberAt_iff {α : Type} {read? : String → Option α} {line : Record}
    {values : List α} :
    (values.length = line.length ∧ ∀ i a, values[i]? = some a → numberAt read? line i = some a) ↔
      line.filterMap read? = values ∧ ∀ text ∈ line, (read? text).isSome := by
  induction line generalizing values with
  | nil =>
    refine ⟨?_, ?_⟩
    · rintro ⟨hlen, -⟩
      exact ⟨(List.length_eq_zero_iff.1 hlen).symm, fun _ h => absurd h List.not_mem_nil⟩
    · rintro ⟨rfl, -⟩
      exact ⟨rfl, fun i a h => absurd h (by simp)⟩
  | cons text line ih =>
    refine ⟨?_, ?_⟩
    · rintro ⟨hlen, hall⟩
      -- there is a value for the first numeral
      obtain ⟨value, values, rfl⟩ := List.exists_cons_of_length_eq_add_one hlen
      have htext : read? text = some value := hall 0 value rfl
      obtain ⟨rfl, hsome⟩ := ih.1 ⟨Nat.succ.inj hlen, fun i a hi => hall (i + 1) a hi⟩
      refine ⟨List.filterMap_cons_some htext, fun other hother => ?_⟩
      rcases List.mem_cons.1 hother with rfl | hother
      · rw [htext]
        rfl
      · exact hsome other hother
    · rintro ⟨rfl, hsome⟩
      obtain ⟨value, htext⟩ := Option.isSome_iff_exists.1 (hsome text List.mem_cons_self)
      obtain ⟨hlen, hall⟩ := ih.2 ⟨rfl, fun other h => hsome other (List.mem_cons_of_mem _ h)⟩
      rw [List.filterMap_cons_some htext]
      refine ⟨by rw [List.length_cons, hlen, List.length_cons], fun i a hi => ?_⟩
      -- the first numeral is the first value, the others are those behind it
      cases i with
      | zero => exact Option.some.inj hi ▸ htext
      | succ i => exact hall i a hi

/-- A line of codes is read as the row of its symbols. -/
theorem ConfigBit.tokensScript_accepts (length : Nat) :
    (ConfigBit.tokensScript length).Accepts (fun line => [.line (.only []) line])
      fun line tokens => Token.rowOf line = tokens ∧ line.length = length ∧
        ∀ text ∈ line, (Text.uint32? text).isSome := by
  -- a code takes no call of its own: the line has been taken before
  have hcode : ∀ line i, Script.Accepts
      (do return Token.ofCode (← Script.number Text.uint32? line i))
      (fun _ => []) fun code token => Token.ofCode code = token ∧
        numberAt Text.uint32? line i = some code := by
    intro line i row rest token
    simp only [walk_bind_eq_ok, walk_number, walk_pure]
    refine ⟨?_, ?_⟩
    · rintro ⟨code, _, ⟨hcode, rfl⟩, rfl, rfl⟩
      exact ⟨code, ⟨rfl, hcode⟩, rfl⟩
    · rintro ⟨code, ⟨rfl, hcode⟩, rfl⟩
      exact ⟨code, _, ⟨hcode, rfl⟩, rfl, rfl⟩
  -- so the codes leave nothing in the row but the line
  have hnil : ∀ codes : List UInt32, codes.flatMap (fun _ => ([] : List Call)) = [] := by simp
  intro row rest tokens
  simp only [ConfigBit.tokensScript, walk_bind_eq_ok, walk_fields, walk_expectLength,
    Accepts.forEach (hcode _) _ _ _, forall_numberAt_iff, hnil, List.nil_append]
  refine ⟨?_, ?_⟩
  · rintro ⟨line, _, rfl, _, _, ⟨hlen, rfl⟩, codes, ⟨rfl, rfl, hsome⟩, rfl⟩
    exact ⟨line, ⟨by rw [Token.rowOf, List.map_filterMap], hlen, hsome⟩, rfl⟩
  · rintro ⟨line, ⟨rfl, hlen, hsome⟩, rfl⟩
    exact ⟨line, _, rfl, (), _, ⟨hlen, rfl⟩, line.filterMap Text.uint32?,
      ⟨by rw [Token.rowOf, List.map_filterMap], rfl, hsome⟩, rfl⟩

/-- The number and the raw text of a variable line. -/
def Operand.entry (fields : Record) : UInt32 × Operand :=
  ((numberAt Text.uint32? fields 0).getD 0, .ofText (fields[1]?.getD ""))

/-- A variable line has a number and a raw text. -/
@[mk_iff]
structure Operand.IsEntry (fields : Record) : Prop where
  id : (numberAt Text.uint32? fields 0).isSome
  raw : fields[1]?.isSome

instance (fields : Record) : Decidable (Operand.IsEntry fields) :=
  decidable_of_iff' _ (Operand.isEntry_iff ..)

/-- The variables of a row of lines. Where a number stands twice, the last text counts. -/
def Operand.mapOf (lines : List Record) : OrderedMap UInt32 Operand := .ofList (lines.map entry)

theorem ConfigBit.varsScript_accepts (n : Nat) :
    (ConfigBit.varsScript n).Accepts (·.map (.line (.only [1]))) fun lines vars =>
      Operand.mapOf lines = vars ∧ lines.length = n ∧ ∀ line ∈ lines, Operand.IsEntry line := by
  -- one variable, which may replace an earlier one of its number
  have hline : ∀ (_ : Nat) (vars : OrderedMap UInt32 Operand), Script.Accepts
      (do
        let line ← Script.fields [1]
        let id ← Script.number Text.uint32? line 0
        let raw ← Script.field line 1
        return vars.insert id (.ofText raw))
      (fun line => [.line (.only [1]) line]) fun line vars' =>
        vars.insert (Operand.entry line).1 (Operand.entry line).2 = vars' ∧
          Operand.IsEntry line := by
    intro _ vars row rest vars'
    simp only [walk_bind_eq_ok, walk_fields, walk_number, walk_field, walk_pure]
    refine ⟨?_, ?_⟩
    · rintro ⟨line, _, rfl, id, _, ⟨hid, rfl⟩, raw, _, ⟨hraw, rfl⟩, rfl, rfl⟩
      exact ⟨line, ⟨by simp [Operand.entry, hid, hraw], by simp [hid], by simp [hraw]⟩, rfl⟩
    · rintro ⟨line, ⟨rfl, hentry⟩, rfl⟩
      obtain ⟨id, hid⟩ := Option.isSome_iff_exists.1 hentry.id
      obtain ⟨raw, hraw⟩ := Option.isSome_iff_exists.1 hentry.raw
      exact ⟨line, _, rfl, id, _, ⟨hid, rfl⟩, raw, _, ⟨hraw, rfl⟩, by
        simp [Operand.entry, hid, hraw], rfl⟩
  intro row rest vars
  rw [ConfigBit.varsScript,
    Accepts.foldTimes (g := fun vars (e : UInt32 × Operand) => vars.insert e.1 e.2) hline]
  simp only [← List.map_eq_flatMap]
  rfl

/-! ### Bits -/

/-- A bit as it is written. -/
structure BitText where
  head : Record
  infixLine : Record
  postfixLine : Record
  vars : List Record
  deriving DecidableEq, Repr

namespace BitText

/-- The calls of the bit. -/
def calls (t : BitText) : List Call :=
  .line (.only [0, 1]) t.head :: .line (.only []) t.infixLine :: .line (.only []) t.postfixLine ::
    (t.vars.map (.line (.only [1])) ++ [blankCall])

/-- The kind that the bit names. -/
def kind (t : BitText) : String := t.head[1]?.getD ""

/-- What the head and the other lines have to be like. -/
@[mk_iff]
structure WellFormed (t : BitText) : Prop where
  length : t.head.length = ConfigBit.headFields
  frame : (numberAt Text.uint32? t.head 2).isSome
  bit : (numberAt Text.uint32? t.head 3).isSome
  xoff : (numberAt Text.int32? t.head 4).isSome
  yoff : (numberAt Text.int32? t.head 5).isSome
  usesWireOrArc : ∃ b, t.head[6]? = some (flagText b)
  remap : t.head[7]? = some (flagText (t.kind ≠ ConfigBit.noKind))
  pllInfo : ∃ b, t.head[8]? = some (flagText b)
  infixCount : numberAt Text.count? t.head 9 = some t.infixLine.length
  postfixCount : numberAt Text.count? t.head 10 = some t.postfixLine.length
  varCount : numberAt Text.count? t.head 11 = some t.vars.length
  infixCodes : ∀ text ∈ t.infixLine, (Text.uint32? text).isSome
  postfixCodes : ∀ text ∈ t.postfixLine, (Text.uint32? text).isSome
  varLines : ∀ line ∈ t.vars, Operand.IsEntry line

instance (t : BitText) : Decidable t.WellFormed := decidable_of_iff' _ (wellFormed_iff ..)

/-- The bit that the text describes. -/
def value (t : BitText) : ConfigBit where
  name := t.head[0]?.getD ""
  kind := t.kind
  frame := (numberAt Text.uint32? t.head 2).getD 0
  bit := (numberAt Text.uint32? t.head 3).getD 0
  xoff := (numberAt Text.int32? t.head 4).getD 0
  yoff := (numberAt Text.int32? t.head 5).getD 0
  usesWireOrArc := t.head[6]? = some (flagText true)
  remap := t.head[7]? = some (flagText true)
  pllInfo := t.head[8]? = some (flagText true)
  infixTokens := Token.rowOf t.infixLine
  postfixTokens := Token.rowOf t.postfixLine
  vars := Operand.mapOf t.vars

theorem decide_flagText (b : Bool) : decide (some (flagText b) = some (flagText true)) = b := by
  cases b <;> decide

theorem accepts : ConfigBit.script.Accepts calls fun t b => t.value = b ∧ t.WellFormed := by
  intro row rest b
  simp only [ConfigBit.script, walk_bind_eq_ok, walk_fields, walk_expectLength, walk_fieldAt,
    walk_number, walk_flag]
  refine ⟨?_, ?_⟩
  · rintro ⟨head, _, rfl, _, _, ⟨hlength, rfl⟩, name, _, ⟨hname, rfl⟩, kind, _, ⟨hkind, rfl⟩,
      frame, _, ⟨hframe, rfl⟩, bit, _, ⟨hbit, rfl⟩, xoff, _, ⟨hxoff, rfl⟩, yoff, _, ⟨hyoff, rfl⟩,
      uses, _, ⟨huses, rfl⟩, remap, _, ⟨hremap, rfl⟩, pll, _, ⟨hpll, rfl⟩, h⟩
    split at h
    · obtain ⟨_, _, h, -⟩ := walk_bind_eq_ok.1 h
      exact absurd h walk_refuse
    · next hagree =>
      simp only [walk_bind_eq_ok, walk_count, walk_blankLine, walk_pure,
        ConfigBit.tokensScript_accepts _ _ _ _, ConfigBit.varsScript_accepts _ _ _ _] at h
      obtain ⟨_, _, ⟨hinfixCount, rfl⟩, _, _, ⟨hpostfixCount, rfl⟩, _, _, ⟨hvarCount, rfl⟩,
        _, _, ⟨infixLine, ⟨rfl, rfl, hinfix⟩, rfl⟩, _, _, ⟨postfixLine, ⟨rfl, rfl, hpostfix⟩, rfl⟩,
        _, _, ⟨vars, ⟨rfl, rfl, hvars⟩, rfl⟩, _, _, rfl, rfl, rfl⟩ := h
      -- the flag is no information of its own: it follows from the kind
      have hiff : remap = true ↔ kind ≠ ConfigBit.noKind := iff_of_eq (Classical.not_not.1 hagree)
      obtain rfl : remap = decide (kind ≠ ConfigBit.noKind) :=
        Bool.eq_iff_iff.2 (hiff.trans decide_eq_true_iff.symm)
      refine ⟨⟨head, infixLine, postfixLine, vars⟩, ⟨?_, ?_⟩, by simp [calls]⟩
      · simp only [value, BitText.kind, hname, hkind, hframe, hbit, hxoff, hyoff, huses, hremap,
          hpll, decide_flagText, Option.getD_some]
      · exact ⟨hlength, by simp [hframe], by simp [hbit], by simp [hxoff], by simp [hyoff],
          ⟨uses, huses⟩, by simpa [BitText.kind, hkind] using hremap, ⟨pll, hpll⟩, hinfixCount,
          hpostfixCount, hvarCount, hinfix, hpostfix, hvars⟩
  · rintro ⟨t, ⟨rfl, h⟩, rfl⟩
    -- with all fields there, the look-ups stay inside the head
    have hfield : ∀ i < 12, t.head[i]? = some (t.head[i]?.getD "") := fun i hi => by
      rw [List.getElem?_eq_getElem (h.length ▸ hi)]
      rfl
    obtain ⟨frame, hframe⟩ := Option.isSome_iff_exists.1 h.frame
    obtain ⟨bit, hbit⟩ := Option.isSome_iff_exists.1 h.bit
    obtain ⟨xoff, hxoff⟩ := Option.isSome_iff_exists.1 h.xoff
    obtain ⟨yoff, hyoff⟩ := Option.isSome_iff_exists.1 h.yoff
    obtain ⟨uses, huses⟩ := h.usesWireOrArc
    obtain ⟨pll, hpll⟩ := h.pllInfo
    refine ⟨t.head, _, rfl, (), _, ⟨h.length, rfl⟩, _, _, ⟨hfield 0 (by omega), rfl⟩,
      t.kind, _, ⟨hfield 1 (by omega), rfl⟩, frame, _, ⟨hframe, rfl⟩, bit, _, ⟨hbit, rfl⟩,
      xoff, _, ⟨hxoff, rfl⟩, yoff, _, ⟨hyoff, rfl⟩, uses, _, ⟨huses, rfl⟩,
      _, _, ⟨h.remap, rfl⟩, pll, _, ⟨hpll, rfl⟩, ?_⟩
    -- the flag has been written as the kind wants it
    rw [if_neg (by simp)]
    simp only [walk_bind_eq_ok, walk_count, walk_blankLine, walk_pure,
      ConfigBit.tokensScript_accepts _ _ _ _, ConfigBit.varsScript_accepts _ _ _ _]
    refine ⟨_, _, ⟨h.infixCount, rfl⟩, _, _, ⟨h.postfixCount, rfl⟩, _, _, ⟨h.varCount, rfl⟩,
      _, _, ⟨t.infixLine, ⟨rfl, rfl, h.infixCodes⟩, rfl⟩,
      _, _, ⟨t.postfixLine, ⟨rfl, rfl, h.postfixCodes⟩, rfl⟩,
      _, _, ⟨t.vars, ⟨rfl, rfl, h.varLines⟩, ?_⟩, (), rest, rfl, ?_, rfl⟩
    · simp
    · simp only [value, hframe, hbit, hxoff, hyoff, huses, h.remap, hpll, decide_flagText,
        Option.getD_some]

end BitText

/-! ### Blocks and the table -/

/-- A block as it is written. -/
structure BlockText where
  header : Record
  bits : List BitText
  deriving DecidableEq, Repr

namespace BlockText

/-- The calls of the block. -/
def calls (t : BlockText) : List Call :=
  .line (.only [0]) t.header :: (t.bits.flatMap BitText.calls ++ [blankCall])

/-- The header names the block and counts its bits. -/
@[mk_iff]
structure WellFormed (t : BlockText) : Prop where
  kind : t.header[0]?.isSome
  bitCount : numberAt Text.count? t.header 1 = some t.bits.length
  bits : ∀ b ∈ t.bits, b.WellFormed

instance (t : BlockText) : Decidable t.WellFormed := decidable_of_iff' _ (wellFormed_iff ..)

/-- The block that the text describes. -/
def value (t : BlockText) : CatalogBlock where
  kind := t.header[0]?.getD ""
  header := t.header
  bits := t.bits.map BitText.value

theorem accepts : Catalogs.blockScript.Accepts calls fun t b =>
    (t.value.kind, t.value.header, t.value.bits) = b ∧ t.WellFormed := by
  intro row rest b
  simp only [Catalogs.blockScript, walk_bind_eq_ok, walk_fields, walk_field, walk_count,
    walk_blankLine, walk_pure, BitText.accepts.times _ _ _]
  refine ⟨?_, ?_⟩
  · rintro ⟨header, _, rfl, kind, _, ⟨hkind, rfl⟩, _, _, ⟨hn, rfl⟩, _, _,
      ⟨bits, ⟨rfl, rfl, hbits⟩, rfl⟩, _, _, rfl, rfl, rfl⟩
    exact ⟨⟨header, bits⟩, ⟨by simp [value, hkind], by simp [hkind], hn, hbits⟩, by simp [calls]⟩
  · rintro ⟨t, ⟨rfl, h⟩, rfl⟩
    obtain ⟨kind, hkind⟩ := Option.isSome_iff_exists.1 h.kind
    refine ⟨t.header, _, rfl, kind, _, ⟨hkind, rfl⟩, _, _, ⟨h.bitCount, rfl⟩, _, _,
      ⟨t.bits, ⟨rfl, rfl, h.bits⟩, ?_⟩, (), rest, rfl, ?_, rfl⟩
    · simp
    · simp [value, hkind]

end BlockText

/-- The table of configuration bits as it is written. -/
structure BitTableText where
  tag : Record
  blocks : List BlockText
  deriving DecidableEq, Repr

namespace BitTableText

/-- The calls of the table. -/
def calls (t : BitTableText) : List Call :=
  .line (.only [0]) t.tag :: (t.blocks.flatMap BlockText.calls ++ [blankCall])

/-- The tag line counts the blocks. -/
@[mk_iff]
structure WellFormed (t : BitTableText) : Prop where
  tag : t.tag.headD "" = "bcc_info"
  blockCount : numberAt Text.count? t.tag 1 = some t.blocks.length
  blocks : ∀ b ∈ t.blocks, b.WellFormed

instance (t : BitTableText) : Decidable t.WellFormed := decidable_of_iff' _ (wellFormed_iff ..)

/-- The catalogs: the blocks grouped by name. -/
def value (t : BitTableText) : Catalogs := .ofBlocks (t.blocks.map BlockText.value)

theorem accepts : Catalogs.script.Accepts calls fun t c => t.value = c ∧ t.WellFormed := by
  -- one block, joined to what its catalog has so far
  have hblock : ∀ (i : Nat) (catalogs : Catalogs), Script.Accepts
      (do
        .setRecord i (.done ())
        let block ← Catalogs.blockScript
        return catalogs.addBlock block.1 [block.2.1] block.2.2)
      BlockText.calls fun t catalogs' =>
        catalogs.addBlock t.value.kind [t.value.header] t.value.bits = catalogs' ∧
          t.WellFormed := by
    intro i catalogs row rest catalogs'
    simp only [walk_setRecord_bind, walk_bind_eq_ok, walk_pure, BlockText.accepts _ _ _]
    refine ⟨?_, ?_⟩
    · rintro ⟨_, _, ⟨t, ⟨rfl, ht⟩, rfl⟩, rfl, rfl⟩
      exact ⟨t, ⟨rfl, ht⟩, rfl⟩
    · rintro ⟨t, ⟨rfl, ht⟩, rfl⟩
      exact ⟨_, rest, ⟨t, ⟨rfl, ht⟩, rfl⟩, rfl, rfl⟩
  -- the loop folds the blocks into the catalogs, in file order
  have hblocks := fun n => Accepts.foldTimes (n := n) (s := (∅ : Catalogs)) (g := fun catalogs
    (b : CatalogBlock) => catalogs.addBlock b.kind [b.header] b.bits) hblock
  intro row rest c
  simp only [Catalogs.script, walk_enter_bind, walk_note_bind, walk_bind_eq_ok, walk_fields,
    walk_expectTag, walk_count, walk_blankLine, walk_pure, hblocks _ _ _ _, Catalogs.foldl_addBlock]
  refine ⟨?_, ?_⟩
  · rintro ⟨tag, _, rfl, _, _, ⟨htag, rfl⟩, _, _, ⟨hn, rfl⟩, _, _, ⟨blocks, ⟨rfl, rfl, hall⟩, rfl⟩,
      _, _, rfl, rfl, rfl⟩
    exact ⟨⟨tag, blocks⟩, ⟨rfl, htag, hn, hall⟩, by simp [calls]⟩
  · rintro ⟨t, ⟨rfl, h⟩, rfl⟩
    refine ⟨t.tag, _, rfl, (), _, ⟨h.tag, rfl⟩, _, _, ⟨h.blockCount, rfl⟩, _, _,
      ⟨t.blocks, ⟨rfl, rfl, h.blocks⟩, ?_⟩, (), rest, rfl, rfl, rfl⟩
    simp

end BitTableText

end ChipAtlas
