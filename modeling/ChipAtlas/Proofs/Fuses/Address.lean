import ChipAtlas.Fuses.Address
import ChipAtlas.Proofs.Tiles.Indices

/-!
# Fuse addresses told from the tiles

A grid finds the holder of a relocated bit through its index of templates. Here the address is told
from the row of the inserted tiles alone, with exact integers for the position and numbers modulo
2^32 for the address: `TileGrid.addressIn`. Offsets may lead across any of the four edges of the
grid. No tile lies there, so the row of tiles needs no test for it, and the two meet in
`TileGrid.Indexed.template_eq`.

* `Text.lowercase_of_ascii` — in ASCII, the lower case of a text is that of its letters;
* `TileGrid.lastTemplate` — the last of the templates of a kind at a position;
* `TileGrid.Indexed.resolve_eq` — a grid resolves a bit to the address that its tiles tell;
* `TileGrid.exists_foldlM_addressed` — every bit of every tile, in every grid made by insertions.
-/

namespace ChipAtlas

/-! ### Tile kinds in lower case -/

namespace Text

/-- The table of small letters holds those of ASCII. -/
theorem lowerChar_of_ascii {c : Char} (hc : c.toNat < 128) : Property.lowerChar c = c.toLower := by
  have hall : ∀ n < 128, Property.lowerChar (Char.ofNat n) = (Char.ofNat n).toLower := by
    decide +kernel
  have := hall c.toNat hc
  rwa [Char.ofNat_toNat] at this

/-- The two letters whose small form is a case of its own are not in ASCII. -/
theorem lowerAt_of_ascii {c : Char} (hc : c.toNat < 128) (before after : List Char) :
    lowerAt before c after = [c.toLower] := by
  unfold lowerAt
  split
  · exact absurd hc (by decide)
  · exact absurd hc (by decide)
  · rw [lowerChar_of_ascii hc]

theorem lowerFrom_of_ascii {cs : List Char} (hcs : ∀ c ∈ cs, c.toNat < 128) (before : List Char) :
    lowerFrom before cs = cs.map Char.toLower := by
  induction cs generalizing before with
  | nil => rfl
  | cons c after ih =>
    obtain ⟨hc, hafter⟩ := List.forall_mem_cons.1 hcs
    rw [lowerFrom, lowerAt_of_ascii hc, ih hafter, List.map_cons, List.singleton_append]

/-- **The lower case of an ASCII text** is that of its letters, one by one. -/
theorem lowercase_of_ascii {s : String} (hs : ∀ c ∈ s.toList, c.toNat < 128) :
    lowercase s = s.toLower :=
  calc lowercase s = String.ofList (s.toList.map Char.toLower) := by
        rw [lowercase, lowerFrom_of_ascii hs]
    _ = s.toLower := by
        rw [← String.toList_map, String.ofList_toList]
        rfl

end Text

/-! ### Templates -/

/-- The tile is a template of a kind at a position, which may lie outside every grid. -/
def Tile.IsTemplateAt (x y : Int) (kind : String) (t : Tile) : Prop :=
  (t.x.toNat : Int) = x ∧ (t.y.toNat : Int) = y ∧ t.kind = kind ∧ t.flag = .template

instance (x y : Int) (kind : String) (t : Tile) : Decidable (t.IsTemplateAt x y kind) :=
  inferInstanceAs (Decidable (_ ∧ _))

theorem Tile.isTemplateAt_iff {x y : Nat} {kind : String} {t : Tile} :
    t.IsTemplateAt x y kind ↔ t.IsTemplate x y kind := by
  rw [IsTemplateAt, IsTemplate, At, Int.ofNat_inj, Int.ofNat_inj, and_assoc]

/-! ### Where a bit is looked for -/

namespace ConfigBit

/-- The column where a relocated bit of a tile is looked for. It may lie left or right of the
grid. -/
def remapX (b : ConfigBit) (owner : Tile) : Int := owner.x.toNat + b.xoff.toInt

/-- The row where a relocated bit of a tile is looked for. It may lie above or below the grid. -/
def remapY (b : ConfigBit) (owner : Tile) : Int := owner.y.toNat + b.yoff.toInt

/-- The resolution is the fuse of a bit that a tile holds: the address of the tile and the offset of
the bit, added modulo 2^32. -/
def StoredIn (b : ConfigBit) (holder : Tile) (r : Resolution) : Prop :=
  ∃ row col, r = .fuse row col ∧
    row.toNat = (holder.frameBase.toNat + b.frame.toNat) % UInt32.size ∧
    col.toNat = (holder.bitBase.toNat + b.bit.toNat) % UInt32.size

theorem storedIn_fuseIn (b : ConfigBit) (holder : Tile) : b.StoredIn holder (b.fuseIn holder) :=
  ⟨_, _, rfl, UInt32.toNat_add _ _, UInt32.toNat_add _ _⟩

end ConfigBit

namespace TileGrid

/-- The last of the templates of a kind at a position. -/
def lastTemplate (tiles : List Tile) (x y : Int) (kind : String) : Option Tile :=
  (tiles.filter (·.IsTemplateAt x y kind)).getLast?

variable {g : TileGrid} {maxCol maxRow : UInt32} {header : Record} {tiles : List Tile}
  {x y : Int} {kind : String}

theorem lastTemplate_eq_none_iff :
    lastTemplate tiles x y kind = none ↔ ∀ t ∈ tiles, ¬ t.IsTemplateAt x y kind := by
  rw [lastTemplate, List.getLast?_eq_none_iff, List.filter_eq_nil_iff]
  simp only [decide_eq_true_eq]

/-- Outside the grid there is no tile, hence no template. -/
theorem lastTemplate_outside
    (hin : ∀ t ∈ tiles, t.x.toNat < maxCol.toNat ∧ t.y.toNat < maxRow.toNat)
    (houtside : ¬ (0 ≤ x ∧ x < maxCol.toNat ∧ 0 ≤ y ∧ y < maxRow.toNat)) :
    lastTemplate tiles x y kind = none := by
  rw [lastTemplate_eq_none_iff]
  rintro t ht ⟨rfl, rfl, -⟩
  have := hin t ht
  omega

/-- **A template is looked up as the last one**, wherever it is looked for. -/
theorem Indexed.template_eq (h : g.Indexed maxCol maxRow header tiles)
    (hin : ∀ t ∈ tiles, t.x.toNat < maxCol.toNat ∧ t.y.toNat < maxRow.toNat) (x y : Int)
    (kind : String) : g.template x y kind = .ok (lastTemplate tiles x y kind) := by
  by_cases hsigns : 0 ≤ x ∧ 0 ≤ y
  · -- positions with natural coordinates are those of the index
    obtain ⟨x, rfl⟩ := Int.eq_ofNat_of_zero_le hsigns.1
    obtain ⟨y, rfl⟩ := Int.eq_ofNat_of_zero_le hsigns.2
    rw [h.template hin, lastTemplate]
    simp only [Tile.isTemplateAt_iff]
  · have hcontains : g.contains x y = false := by
      simp only [contains, Bool.and_eq_false_iff, decide_eq_false_iff_not]
      omega
    rw [template_of_not_contains hcontains, lastTemplate_outside hin (by omega)]

/-! ### Addresses -/

/-- Where a bit of a tile is stored, told from the inserted tiles. -/
def addressIn (tiles : List Tile) (b : ConfigBit) (owner : Tile) : Resolution :=
  if b.pllInfo then .notApplicable
  else if b.remap then
    let kind := Text.lowercase b.kind
    match lastTemplate tiles (b.remapX owner) (b.remapY owner) kind with
    | some holder => b.fuseIn holder
    | none => .unresolved ⟨b.name, owner.name, b.remapX owner, b.remapY owner, kind⟩
  else b.fuseIn owner

/-- **A grid resolves a bit to the address that its tiles tell.** -/
theorem Indexed.resolve_eq (h : g.Indexed maxCol maxRow header tiles)
    (hin : ∀ t ∈ tiles, t.x.toNat < maxCol.toNat ∧ t.y.toNat < maxRow.toNat) (b : ConfigBit)
    (owner : Tile) : g.resolve b owner = .ok (addressIn tiles b owner) := by
  unfold resolve addressIn
  split
  · rfl
  · split
    · dsimp only
      rw [h.template_eq hin, ← ConfigBit.remapX, ← ConfigBit.remapY]
      cases lastTemplate tiles (b.remapX owner) (b.remapY owner) (Text.lowercase b.kind) <;> rfl
    · rfl

/-- What a bit of a tile is resolved to, once tiles have been inserted. The kind that is looked for
is that of the bit in lower case. -/
structure Addressed (maxCol maxRow : UInt32) (tiles : List Tile) (b : ConfigBit) (owner : Tile)
    (r : Resolution) : Prop where
  /-- Bits of the phase-locked loops have no fuse, relocated or not, and all others are asked
  for one. -/
  notApplicable : r = .notApplicable ↔ b.pllInfo = true
  /-- A bit that is not relocated is stored in its own tile. -/
  own : b.pllInfo = false → b.remap = false → b.StoredIn owner r
  /-- A relocated bit is stored in the last template of its kind at the offset position. -/
  relocated : b.pllInfo = false → b.remap = true → ∀ holder,
    (tiles.filter (·.IsTemplateAt (b.remapX owner) (b.remapY owner) b.kind.toLower)).getLast? =
      some holder → b.StoredIn holder r
  /-- A relocated bit is unresolved if and only if there is no template, and is reported with the
  position and the kind that were looked for. -/
  unresolved : ∀ e, r = .unresolved e ↔ b.pllInfo = false ∧ b.remap = true ∧
    (∀ t ∈ tiles, ¬ t.IsTemplateAt (b.remapX owner) (b.remapY owner) b.kind.toLower) ∧
    e = ⟨b.name, owner.name, b.remapX owner, b.remapY owner, b.kind.toLower⟩
  /-- Outside the grid there is no template, whichever edge the offset leads across. Inside it there
  may be none either. -/
  outside : b.pllInfo = false → b.remap = true →
    ¬ (0 ≤ b.remapX owner ∧ b.remapX owner < maxCol.toNat ∧
      0 ≤ b.remapY owner ∧ b.remapY owner < maxRow.toNat) →
    r = .unresolved ⟨b.name, owner.name, b.remapX owner, b.remapY owner, b.kind.toLower⟩

/-- The address that the tiles tell, for a bit whose kind is ASCII. -/
theorem addressed_addressIn
    (hin : ∀ t ∈ tiles, t.x.toNat < maxCol.toNat ∧ t.y.toNat < maxRow.toNat) {b : ConfigBit}
    (hkind : ∀ c ∈ b.kind.toList, c.toNat < 128) (owner : Tile) :
    Addressed maxCol maxRow tiles b owner (addressIn tiles b owner) := by
  rw [addressIn, Text.lowercase_of_ascii hkind]
  dsimp only
  cases hpll : b.pllInfo with
  | true => constructor <;> simp [hpll]
  | false =>
    cases hremap : b.remap with
    | false =>
      have hown := b.storedIn_fuseIn owner
      exact ⟨by simp [hpll, ConfigBit.fuseIn], fun _ _ => hown, by simp [hremap],
        by simp [hremap, ConfigBit.fuseIn], by simp [hremap]⟩
    | true =>
      cases hlast : lastTemplate tiles (b.remapX owner) (b.remapY owner) b.kind.toLower with
      | none =>
        have hnone := lastTemplate_eq_none_iff.1 hlast
        refine ⟨by simp [hpll], by simp [hremap], fun _ _ holder hholder => ?_, fun e => ?_,
          fun _ _ _ => rfl⟩
        · exact absurd (hlast.symm.trans hholder) nofun
        · refine ⟨fun h => ⟨hpll, hremap, hnone, (Resolution.unresolved.inj h).symm⟩, ?_⟩
          rintro ⟨-, -, -, rfl⟩
          rfl
      | some holder =>
        -- a bit that is found is not reported, and it is found inside the grid
        have hsome : lastTemplate tiles (b.remapX owner) (b.remapY owner) b.kind.toLower ≠ none :=
          hlast ▸ nofun
        refine ⟨by simp [hpll, ConfigBit.fuseIn], by simp [hremap], fun _ _ other hother => ?_,
          fun e => ⟨nofun, ?_⟩, fun _ _ houtside => ?_⟩
        · obtain rfl := Option.some.inj (hlast.symm.trans hother)
          exact b.storedIn_fuseIn holder
        · rintro ⟨-, -, hnone, -⟩
          exact absurd (lastTemplate_eq_none_iff.2 hnone) hsome
        · exact absurd (lastTemplate_outside hin houtside) hsome

/-- **Addresses in a grid made by insertions.** Every bit of every tile is resolved, and to what the
row of the inserted tiles tells, whichever templates were replaced on the way. -/
theorem exists_foldlM_addressed (maxCol maxRow : UInt32) (header : Record) (tiles : List Tile)
    (hin : ∀ t ∈ tiles, t.x.toNat < maxCol.toNat ∧ t.y.toNat < maxRow.toNat) :
    ∃ g, tiles.foldlM TileGrid.insert (create maxCol maxRow header) = .ok g ∧
      ∀ b : ConfigBit, (∀ c ∈ b.kind.toList, c.toNat < 128) → ∀ owner : Tile,
        ∃ r, g.resolve b owner = .ok r ∧ Addressed maxCol maxRow tiles b owner r := by
  obtain ⟨g, hinsert, hindexed⟩ := exists_foldlM_indexed maxCol maxRow header hin
  refine ⟨g, hinsert, fun b hkind owner => ?_⟩
  exact ⟨_, hindexed.resolve_eq hin b owner, addressed_addressIn hin hkind owner⟩

/-- A tile in the second column. -/
def neighbour : Tile := ⟨"d", "pib", 1, 0, 4, 54, 101, 200, .located 3⟩

/-- Three tiles of a kind in one cell, the last of which is no template, and a tile next to them. -/
def neighbourTiles : List Tile := [
  ⟨"a", "plb", 0, 0, 4, 54, 100, 200, .template⟩,
  ⟨"b", "plb", 0, 0, 4, 54, 300, 400, .template⟩,
  ⟨"c", "plb", 0, 0, 4, 54, 500, 600, .located 3⟩,
  neighbour]

/-- A bit that is stored one column to the left, in the frame before the first one. -/
def neighbourBit (yoff : Int32) : ConfigBit where
  name := "p"
  kind := "PLB"
  frame := 0xFFFFFFFF
  bit := 5
  xoff := -1
  yoff
  usesWireOrArc := false
  remap := true
  pllInfo := false
  infixTokens := []
  postfixTokens := []
  vars := ∅

theorem exists_foldlM_addressed_neighbour :
    (∀ t ∈ neighbourTiles, t.x.toNat < (2 : UInt32).toNat ∧ t.y.toNat < (1 : UInt32).toNat) ∧
      ∃ g, neighbourTiles.foldlM TileGrid.insert (create 2 1 ["bil_info"]) = .ok g ∧
        g.resolve (neighbourBit 0) neighbour = .ok (.fuse 299 405) ∧
        g.resolve (neighbourBit (-1)) neighbour = .ok (.unresolved ⟨"p", "d", 0, -1, "plb"⟩) := by
  have hin : ∀ t ∈ neighbourTiles,
      t.x.toNat < (2 : UInt32).toNat ∧ t.y.toNat < (1 : UInt32).toNat := by decide
  have hascii (yoff : Int32) : ∀ c ∈ (neighbourBit yoff).kind.toList, c.toNat < 128 := by
    change ∀ c ∈ "PLB".toList, c.toNat < 128
    decide
  have hlower (yoff : Int32) : (neighbourBit yoff).kind.toLower = "plb" := by
    change "PLB".toLower = "plb"
    decide +kernel
  obtain ⟨g, hinsert, hg⟩ := exists_foldlM_addressed 2 1 ["bil_info"] neighbourTiles hin
  refine ⟨hin, g, hinsert, ?_, ?_⟩
  · obtain ⟨r, hr, haddressed⟩ := hg (neighbourBit 0) (hascii 0) neighbour
    -- the second template has taken the place of the first
    obtain ⟨row, col, rfl, hrow, hcol⟩ := haddressed.relocated rfl rfl
      ⟨"b", "plb", 0, 0, 4, 54, 300, 400, .template⟩ (by rw [hlower]; decide)
    have hrow : row = 299 := UInt32.toNat_inj.1 hrow
    have hcol : col = 405 := UInt32.toNat_inj.1 hcol
    rw [hr, hrow, hcol]
  · obtain ⟨r, hr, haddressed⟩ := hg (neighbourBit (-1)) (hascii (-1)) neighbour
    rw [hr, haddressed.outside rfl rfl (by decide), hlower]
    rfl

end TileGrid

end ChipAtlas
