import ChipAtlas.Format.Routing
import ChipAtlas.Proofs.Form.Counted

/-!
# The form of the routing sections

A wire region, and with it the whole routing section, keeps every line that is written, so a section
is its own text. The second section of a legacy file loses the lines of its two counts.

* `WireRegion.script_copies`, `Routing.script_copies` — the regions and the section;
* `LegacyRoutingText.accepts` — the second section.
-/

namespace ChipAtlas

open Script

/-! ### Regions -/

namespace WireRegion

/-- A region as it is written. -/
def calls (r : WireRegion) : List Call :=
  .line (.only []) r.header :: r.entries.map (.line (.allBut [1]))

/-- The header of a region is four zeros and the number of its entries. -/
@[mk_iff]
structure WellFormed (r : WireRegion) : Prop where
  zeros : ∀ i < 4, numberAt Text.int64? r.header i = some 0
  entryCount : numberAt Text.count? r.header 4 = some r.entries.length

instance (r : WireRegion) : Decidable r.WellFormed := decidable_of_iff' _ (wellFormed_iff ..)

theorem script_copies : script.Copies calls WellFormed := by
  intro row rest r
  simp only [script, walk_bind_eq_ok, walk_fields, walk_count, walk_pure, walk_times_fieldsBut,
    walk_forEach_check fun i row rest u => walk_expectZero]
  refine ⟨?_, ?_⟩
  · rintro ⟨header, _, rfl, _, _, ⟨-, hzeros, rfl⟩, n, _, ⟨hn, rfl⟩, entries, _, ⟨rfl, rfl⟩,
      rfl, rfl⟩
    exact ⟨⟨hzeros, hn⟩, rfl⟩
  -- the four checks have no result but that they pass
  · rintro ⟨⟨hzeros, hn⟩, rfl⟩
    exact ⟨r.header, _, rfl, List.replicate 4 (), _, ⟨rfl, hzeros, rfl⟩, _, _, ⟨hn, rfl⟩,
      r.entries, rest, ⟨rfl, rfl⟩, rfl, rfl⟩

theorem scripts_copies (n first : Nat) :
    (scripts n first).Copies (·.flatMap calls) fun rs =>
      rs.length = n ∧ ∀ r ∈ rs, r.WellFormed :=
  Copies.rounds fun _ => script_copies

end WireRegion

namespace IndexedRegion

/-- A region behind an index line, as it is written. -/
def calls (r : IndexedRegion) : List Call := .line (.only []) r.index :: r.region.calls

/-- The index line carries the position, counted from zero or from one. -/
@[mk_iff]
structure WellFormed (position : Nat) (r : IndexedRegion) : Prop where
  index : numberAt Text.count? r.index 0 = some (position + 1) ∨
    numberAt Text.count? r.index 0 = some position
  region : r.region.WellFormed

instance (position : Nat) (r : IndexedRegion) : Decidable (r.WellFormed position) :=
  decidable_of_iff' _ (wellFormed_iff ..)

theorem script_copies (position : Nat) : (script position).Copies calls (WellFormed position) := by
  intro row rest r
  simp only [script, walk_bind_eq_ok, walk_fields, walk_count]
  refine ⟨?_, ?_⟩
  · rintro ⟨index, _, rfl, found, _, ⟨hfound, rfl⟩, h⟩
    split at h
    · obtain ⟨_, _, h, -⟩ := walk_bind_eq_ok.1 h
      exact absurd h walk_refuse
    · next hposition =>
      simp only [walk_bind_eq_ok, walk_pure, WireRegion.script_copies _ _ _] at h
      obtain ⟨region, _, ⟨hregion, rfl⟩, rfl, rfl⟩ := h
      -- both ways of counting pass the check
      have heq : found = position + 1 ∨ found = position := by omega
      have hindex := heq.imp (fun heq => hfound.trans (congrArg some heq))
        fun heq => hfound.trans (congrArg some heq)
      exact ⟨⟨hindex, hregion⟩, rfl⟩
  · rintro ⟨⟨hindex, hregion⟩, rfl⟩
    obtain ⟨found, hfound, hposition⟩ : ∃ found, numberAt Text.count? r.index 0 = some found ∧
        (found = position + 1 ∨ found = position) :=
      hindex.elim (⟨_, ·, .inl rfl⟩) (⟨_, ·, .inr rfl⟩)
    refine ⟨r.index, _, rfl, found, _, ⟨hfound, rfl⟩, ?_⟩
    -- either of the two numbers passes
    rw [if_neg (by omega)]
    simp only [walk_bind_eq_ok, walk_pure, WireRegion.script_copies _ _ _]
    exact ⟨r.region, rest, ⟨hregion, rfl⟩, rfl, rfl⟩

end IndexedRegion

/-! ### Sections -/

namespace Routing

/-- The routing section as it is written. -/
def calls (r : Routing) : List Call :=
  .line (.only []) r.counts :: (r.leading.flatMap WireRegion.calls ++
    (r.fixed.flatMap WireRegion.calls ++ (r.indexed.flatMap IndexedRegion.calls ++
      r.trailing.flatMap WireRegion.calls)))

/-- The first line counts the leading and the indexed regions. The numbers of the others are fixed
for the variant. -/
@[mk_iff]
structure WellFormed (variant : Variant) (r : Routing) : Prop where
  leadingCount : numberAt Text.count? r.counts 0 = some r.leading.length
  indexedCount : numberAt Text.count? r.counts 1 = some r.indexed.length
  fixedCount : r.fixed.length = fixedRegions
  trailingCount : r.trailing.length = trailingRegions variant
  leading : ∀ region ∈ r.leading, region.WellFormed
  fixed : ∀ region ∈ r.fixed, region.WellFormed
  indexed : ∀ i (region : IndexedRegion), r.indexed[i]? = some region → region.WellFormed i
  trailing : ∀ region ∈ r.trailing, region.WellFormed

instance (variant : Variant) (r : Routing) : Decidable (r.WellFormed variant) :=
  decidable_of_iff' _ (wellFormed_iff ..)

theorem script_copies (variant : Variant) :
    (script variant).Copies calls (WellFormed variant) := by
  intro row rest r
  -- to number the region takes no call
  have hrounds : ∀ first n, (Script.forEach n fun i => do
      .setRecord (first + i) (.done ())
      IndexedRegion.script i).Copies (·.flatMap IndexedRegion.calls) fun rs =>
        rs.length = n ∧ ∀ i (r : IndexedRegion), rs[i]? = some r → r.WellFormed i :=
    fun _ _ => Copies.forEach IndexedRegion.script_copies
  simp only [script, walk_bind_eq_ok, walk_enter_bind, walk_note_bind, walk_fields, walk_count,
    walk_pure, WireRegion.scripts_copies _ _ _ _ _, hrounds _ _ _ _ _]
  refine ⟨?_, ?_⟩
  · rintro ⟨counts, _, rfl, _, _, ⟨hleadingCount, rfl⟩, _, _, ⟨hindexedCount, rfl⟩,
      leading, _, ⟨⟨rfl, hleading⟩, rfl⟩, fixed, _, ⟨⟨hfixedCount, hfixed⟩, rfl⟩,
      indexed, _, ⟨⟨rfl, hindexed⟩, rfl⟩, trailing, _, ⟨⟨htrailingCount, htrailing⟩, rfl⟩,
      rfl, rfl⟩
    exact ⟨⟨hleadingCount, hindexedCount, hfixedCount, htrailingCount, hleading, hfixed, hindexed,
      htrailing⟩, by simp [calls]⟩
  · rintro ⟨h, rfl⟩
    refine ⟨r.counts, _, rfl, _, _, ⟨h.leadingCount, rfl⟩, _, _, ⟨h.indexedCount, rfl⟩,
      r.leading, _, ⟨⟨rfl, h.leading⟩, ?_⟩, r.fixed, _, ⟨⟨h.fixedCount, h.fixed⟩, rfl⟩,
      r.indexed, _, ⟨⟨rfl, h.indexed⟩, rfl⟩, r.trailing, rest,
      ⟨⟨h.trailingCount, h.trailing⟩, rfl⟩, rfl, rfl⟩
    simp

end Routing

/-- The second routing section as it is written. -/
structure LegacyRoutingText where
  regions : Counted WireRegion
  extra : Counted Record
  deriving DecidableEq, Repr

namespace LegacyRoutingText

/-- The calls of the second routing section. -/
def calls (t : LegacyRoutingText) : List Call :=
  t.regions.calls WireRegion.calls ++ t.extra.calls fun record => [.line (.only [0]) record]

/-- Both lists are as long as they say, and the regions are well formed. -/
@[mk_iff]
structure WellFormed (t : LegacyRoutingText) : Prop where
  regions : t.regions.WellFormed WireRegion.WellFormed
  extra : t.extra.WellFormed fun _ => True

instance (t : LegacyRoutingText) : Decidable t.WellFormed := decidable_of_iff' _ (wellFormed_iff ..)

/-- What is kept of the text. -/
def value (t : LegacyRoutingText) : LegacyRouting := ⟨t.regions.items, t.extra.items⟩

theorem accepts : LegacyRouting.script.Accepts calls fun t r => t.value = r ∧ t.WellFormed := by
  intro row rest r
  simp only [LegacyRouting.script, walk_bind_eq_ok, walk_enter_bind, walk_setRecord_bind, walk_pure,
    walk_fields, walk_count, WireRegion.scripts_copies _ _ _ _ _,
    Counted.accepts_countedLines _ _ _ _]
  refine ⟨?_, ?_⟩
  · rintro ⟨countLine, _, rfl, _, _, ⟨hn, rfl⟩, regions, _, ⟨⟨rfl, hregions⟩, rfl⟩,
      _, _, ⟨extra, ⟨rfl, hextra⟩, rfl⟩, rfl, rfl⟩
    exact ⟨⟨⟨countLine, regions⟩, extra⟩, ⟨rfl, ⟨hn, hregions⟩, hextra⟩, by
      simp [calls, Counted.calls]⟩
  · rintro ⟨⟨⟨countLine, regions⟩, extra⟩, ⟨rfl, ⟨hn, hregions⟩, hextra⟩, rfl⟩
    refine ⟨countLine, _, rfl, _, _, ⟨hn, rfl⟩, regions, _, ⟨⟨rfl, hregions⟩, ?_⟩,
      _, rest, ⟨extra, ⟨rfl, hextra⟩, rfl⟩, rfl, rfl⟩
    simp

end LegacyRoutingText

end ChipAtlas
