import ChipAtlas.Proofs.Form.Bits
import ChipAtlas.Proofs.Script.Attentive
import Mathlib.Data.List.Forall2

/-!
# What is kept of a table of configuration bits

A table is a row of blocks, and a block is a row of bits; the blocks of a name are joined, and the
variables of a bit that have the same number replace each other. Nothing else happens between the
lines of an accepted table and its catalogs: every block, bit, symbol and variable line has its part
in them, in file order, and there are no other parts.

What a bit has of its lines is said by relations on single values, `BitText.Gives` for a bit and
`BlockText.Gives` for a block. They leave open how the values are computed.

* `BitText.WellFormed.gives`, `BlockText.WellFormed.gives` — the bit and the block that a text
  describes;
* `Catalogs.exists_blocks_of_run` — what the catalogs of an accepted table are made of.
-/

namespace ChipAtlas

open Script

/-! ### Bits -/

/-- The symbols are those that the codes of a line stand for, one by one. -/
def Token.AreOf (line : Record) (tokens : List Token) : Prop :=
  List.Forall₂ (fun text token => ∃ code, Text.uint32? text = some code ∧ Token.ofCode code = token)
    line tokens

/-- A map has the variables of a row of lines: their numbers in the order in which they first
appear, each with the text of the last line that has it. -/
def Operand.AreOf (lines : List Record) (vars : OrderedMap UInt32 Operand) : Prop :=
  ∃ entries : List (UInt32 × String),
    List.Forall₂ (fun fields e => numberAt Text.uint32? fields 0 = some e.1 ∧ fields[1]? = some e.2)
      lines entries ∧
    vars.keys = (entries.map Prod.fst).eraseDups ∧
    ∀ id, vars.get? id = (entries.filter (·.1 = id)).getLast?.map fun e => ⟨.ofText e.2, e.2⟩

/-- What a bit has of its lines. -/
structure BitText.Gives (t : BitText) (b : ConfigBit) : Prop where
  name : t.head[0]? = some b.name
  kind : t.head[1]? = some b.kind
  frame : numberAt Text.uint32? t.head 2 = some b.frame
  bit : numberAt Text.uint32? t.head 3 = some b.bit
  xoff : numberAt Text.int32? t.head 4 = some b.xoff
  yoff : numberAt Text.int32? t.head 5 = some b.yoff
  usesWireOrArc : t.head[6]? = some (flagText b.usesWireOrArc)
  remap : t.head[7]? = some (flagText b.remap)
  pllInfo : t.head[8]? = some (flagText b.pllInfo)
  /-- A bit is relocated exactly if it names a kind. -/
  remap_iff : b.remap ↔ b.kind ≠ "NONE"
  /-- The rows of symbols are as long as announced. -/
  infixCount : numberAt Text.count? t.head 9 = some b.infixTokens.length
  postfixCount : numberAt Text.count? t.head 10 = some b.postfixTokens.length
  infixTokens : Token.AreOf t.infixLine b.infixTokens
  postfixTokens : Token.AreOf t.postfixLine b.postfixTokens
  /-- There are as many variable lines as announced. -/
  varCount : numberAt Text.count? t.head 11 = some t.vars.length
  vars : Operand.AreOf t.vars b.vars

theorem Token.areOf_rowOf {line : Record} (h : ∀ text ∈ line, (Text.uint32? text).isSome) :
    Token.AreOf line (rowOf line) := by
  induction line with
  | nil => exact .nil
  | cons text line ih =>
    obtain ⟨code, hcode⟩ := Option.isSome_iff_exists.1 (h text List.mem_cons_self)
    have hrow : rowOf (text :: line) = ofCode code :: rowOf line :=
      List.filterMap_cons_some (by rw [hcode]; rfl)
    rw [hrow]
    exact .cons ⟨code, hcode, rfl⟩ (ih fun other hother => h other (List.mem_cons_of_mem _ hother))

theorem Operand.areOf_mapOf {lines : List Record} (h : ∀ line ∈ lines, Operand.IsEntry line) :
    Operand.AreOf lines (mapOf lines) := by
  -- the entries with the raw texts instead of what they describe
  refine ⟨lines.map fun line => ((entry line).1, (entry line).2.raw), ?_, ?_, fun id => ?_⟩
  · rw [List.forall₂_map_right_iff, List.forall₂_same]
    intro line hline
    obtain ⟨id, hid⟩ := Option.isSome_iff_exists.1 (h line hline).id
    obtain ⟨raw, hraw⟩ := Option.isSome_iff_exists.1 (h line hline).raw
    simp [entry, ofText, hid, hraw]
  · rw [mapOf, OrderedMap.keys_ofList, List.map_map, List.map_map]
    rfl
  · rw [mapOf, OrderedMap.get?_ofList, List.filter_map, List.filter_map, List.getLast?_map,
      List.getLast?_map, Option.map_map, Option.map_map]
    rfl

/-- **A bit and its lines.** The bit that a well-formed text describes has all its lines say. -/
theorem BitText.WellFormed.gives {t : BitText} (h : t.WellFormed) : t.Gives t.value := by
  have hfield : ∀ i < 12, t.head[i]? = some (t.head[i]?.getD "") := fun i hi => by
    rw [List.getElem?_eq_getElem (h.length ▸ hi)]
    rfl
  obtain ⟨frame, hframe⟩ := Option.isSome_iff_exists.1 h.frame
  obtain ⟨bit, hbit⟩ := Option.isSome_iff_exists.1 h.bit
  obtain ⟨xoff, hxoff⟩ := Option.isSome_iff_exists.1 h.xoff
  obtain ⟨yoff, hyoff⟩ := Option.isSome_iff_exists.1 h.yoff
  obtain ⟨uses, huses⟩ := h.usesWireOrArc
  obtain ⟨pll, hpll⟩ := h.pllInfo
  have hremap : t.value.remap = decide (t.kind ≠ ConfigBit.noKind) := by
    rw [value, h.remap, decide_flagText]
  have hinfix := Token.areOf_rowOf h.infixCodes
  have hpostfix := Token.areOf_rowOf h.postfixCodes
  exact
    { name := hfield 0 (by omega)
      kind := hfield 1 (by omega)
      frame := by simp [value, hframe]
      bit := by simp [value, hbit]
      xoff := by simp [value, hxoff]
      yoff := by simp [value, hyoff]
      usesWireOrArc := by rw [value, huses, decide_flagText]
      remap := by rw [hremap, h.remap]
      pllInfo := by rw [value, hpll, decide_flagText]
      remap_iff := by
        rw [hremap]
        exact decide_eq_true_iff
      infixCount := h.infixCount.trans (congrArg some hinfix.length_eq)
      postfixCount := h.postfixCount.trans (congrArg some hpostfix.length_eq)
      infixTokens := hinfix
      postfixTokens := hpostfix
      varCount := h.varCount
      vars := Operand.areOf_mapOf h.varLines }

/-! ### Blocks -/

/-- What a block has of its lines: its name and its header, and one bit after the other, as many as
announced. -/
structure BlockText.Gives (t : BlockText) (block : CatalogBlock) : Prop where
  kind : t.header[0]? = some block.kind
  header : block.header = t.header
  bitCount : numberAt Text.count? t.header 1 = some block.bits.length
  bits : List.Forall₂ BitText.Gives t.bits block.bits

theorem BlockText.WellFormed.gives {t : BlockText} (h : t.WellFormed) : t.Gives t.value where
  kind := by
    obtain ⟨kind, hkind⟩ := Option.isSome_iff_exists.1 h.kind
    simp [value, hkind]
  header := rfl
  bitCount := by rw [h.bitCount, value, List.length_map]
  bits := by
    rw [value, List.forall₂_map_right_iff, List.forall₂_same]
    exact fun b hb => (h.bits b hb).gives

/-- Grouped blocks have no bits but those of the blocks. -/
theorem Catalogs.mem_bits_ofBlocks {blocks : List CatalogBlock} {e : String × Catalog}
    {b : ConfigBit} (he : e ∈ (ofBlocks blocks).entries) (hb : b ∈ e.2.bits) :
    ∃ block ∈ blocks, b ∈ block.bits := by
  have hget := OrderedMap.get?_of_mem he
  rw [ofBlocks, OrderedMap.get?_ofKeys] at hget
  split at hget
  · rw [← Option.some.inj hget] at hb
    obtain ⟨block, hblock, hb⟩ := List.mem_flatMap.1 hb
    exact ⟨block, (List.mem_filter.1 hblock).1, hb⟩
  · exact absurd hget.symm (Option.some_ne_none _)

namespace Catalogs

open Reading

/-- **Accepted tables.** A reading on which the script succeeds has shown a row of as many blocks as
declared. The catalogs have the names of the blocks, in the order in which they first appear, and
under each name the headers and the bits of the blocks that have it, in file order; and every bit
of theirs has been shown. -/
theorem exists_blocks_of_run {s s' : Reading} {c : Catalogs} (h : script.run s = .ok c s') :
    ∃ (t : BitTableText) (blocks : List CatalogBlock) (final : Reading),
      s.Shows t.calls final ∧ s'.Agrees final ∧
      numberAt Text.count? t.tag 1 = some blocks.length ∧
      List.Forall₂ BlockText.Gives t.blocks blocks ∧
      c.keys = (blocks.map (·.kind)).eraseDups ∧
      (∀ kind ∈ c.keys, c.get? kind = some
        { headers := (blocks.filter (·.kind = kind)).map (·.header)
          bits := (blocks.filter (·.kind = kind)).flatMap (·.bits) }) ∧
      ∀ e ∈ c.entries, ∀ b ∈ e.2.bits,
        ∃ block ∈ t.blocks, ∃ text ∈ block.bits, text.Gives b := by
  obtain ⟨row, final, hwalk, hshows, hfinal⟩ := exists_walk_of_run attentive_script h
  obtain ⟨t, ⟨rfl, ht⟩, rfl⟩ := (BitTableText.accepts row [] c).1 hwalk
  rw [List.append_nil] at hshows
  have hgives : List.Forall₂ BlockText.Gives t.blocks (t.blocks.map BlockText.value) := by
    rw [List.forall₂_map_right_iff, List.forall₂_same]
    exact fun block hblock => (ht.blocks block hblock).gives
  have hkeys : t.value.keys = ((t.blocks.map BlockText.value).map (·.kind)).eraseDups :=
    OrderedMap.keys_ofKeys _ _
  refine ⟨t, t.blocks.map BlockText.value, final, hshows, hfinal, ?_, hgives, hkeys,
    fun kind hkind => ?_, fun e he b hb => ?_⟩
  · rw [List.length_map, ht.blockCount]
  · rw [hkeys, List.mem_eraseDups] at hkind
    rw [BitTableText.value, ofBlocks, OrderedMap.get?_ofKeys, if_pos hkind]
    rfl
  · -- a bit of a catalog is a bit of a block, and that one has its lines
    obtain ⟨value, hvalue, hb⟩ := mem_bits_ofBlocks he hb
    obtain ⟨block, hblock, rfl⟩ := List.mem_map.1 hvalue
    obtain ⟨text, htext, rfl⟩ := List.mem_map.1 hb
    exact ⟨block, hblock, text, htext, ((ht.blocks block hblock).bits text htext).gives⟩

/-- Three blocks, the last of which belongs to the first. Its bit is relocated, and describes one of
its variables twice. -/
def splitCatalog : BitTableText where
  tag := ["bcc_info", "3"]
  blocks := [
    ⟨["plb", "1", "0"], [⟨["A", "NONE", "3", "7", "0", "0", "1", "0", "0", "1", "1", "0"],
      ["1"], ["1"], []⟩]⟩,
    ⟨["iol", "0", "0"], []⟩,
    ⟨["plb", "1", "1"], [⟨["B", "PIB", "4", "8", "1", "-1", "0", "1", "0", "3", "3", "3"],
      ["10", "8", "11"], ["10", "11", "8"],
      [["10", "WIRE(X)"], ["11", "ARCVAL(Y)"], ["10", "MEMORY(Z)"]]⟩]⟩]

theorem exists_blocks_of_run_splitCatalog :
    ∃ trace w c s', perform splitCatalog.calls { keys := some mixedStart } = .ok trace w ∧
      script.run { Reading.ofBytes (Text.utf8 w.text) with keys := some mixedStart } = .ok c s' ∧
      c.keys = ["plb", "iol"] ∧
      c.entries.map (fun e => e.2.bits.map fun b => b.vars.entries) =
        [[[], [(10, ⟨.memory, "MEMORY(Z)"⟩), (11, ⟨.arcVal, "ARCVAL(Y)"⟩)]], []] ∧
      ∃ (t : BitTableText) (blocks : List CatalogBlock),
        numberAt Text.count? t.tag 1 = some blocks.length ∧
        List.Forall₂ BlockText.Gives t.blocks blocks ∧
        c.keys = (blocks.map (·.kind)).eraseDups := by
  have hform : splitCatalog.WellFormed := by decide +kernel
  have hadm : ∀ call ∈ splitCatalog.calls, call.Admissible := by decide +kernel
  have hwritable : ∀ call ∈ splitCatalog.calls, call.Writable := by decide +kernel
  obtain ⟨trace, w, hperform⟩ :=
    exists_perform hadm hwritable (w := { keys := some mixedStart }) rfl
  obtain ⟨final, hshows, -⟩ := shows_of_perform hadm hperform (nofun : Roomy none)
  obtain ⟨s', hrun, -⟩ := exists_run_of_shows BitTableText.accepts ⟨rfl, hform⟩ hshows
  obtain ⟨t, blocks, -, -, -, hnumber, hgives, hkeys, -⟩ := exists_blocks_of_run hrun
  exact ⟨trace, w, splitCatalog.value, s', hperform, hrun, by decide +kernel, by decide +kernel,
    t, blocks, hnumber, hgives, hkeys⟩

end Catalogs

end ChipAtlas
