import ChipAtlas.Format.Trailer
import ChipAtlas.Proofs.Script.Walk

/-!
# The form of the trailer

The trailer is framed by two blank lines, the count in the header of the tile table, and the footer
word, which stands in the last line but one and in none before it.
-/

namespace ChipAtlas

open Script

/-- The trailer as it is written. -/
structure TrailerText where
  belTypes : List Record
  skipped : List Record
  footer : Record
  last : Record
  deriving DecidableEq, Repr

namespace TrailerText

/-- The calls of the trailer. -/
def calls (t : TrailerText) : List Call :=
  blankCall :: (t.belTypes.map (.line (.only [0])) ++ (blankCall ::
    ((t.skipped ++ [t.footer]).map (.line (.only [0])) ++ [.line (.only []) t.last])))

/-- The header of the tile table counts the types, and the first footer word stands in its place. -/
@[mk_iff]
structure WellFormed (tileHeader : Record) (t : TrailerText) : Prop where
  belTypeCount : numberAt Text.count? tileHeader 8 = some t.belTypes.length
  skipped : ∀ r ∈ t.skipped, Trailer.isFooter r = false
  footer : Trailer.isFooter t.footer = true

instance (tileHeader : Record) (t : TrailerText) : Decidable (t.WellFormed tileHeader) :=
  decidable_of_iff' _ (wellFormed_iff ..)

/-- What is kept of the trailer. -/
def value (t : TrailerText) : Trailer where
  belTypes := t.belTypes
  tail := t.skipped ++ [t.footer] ++ [t.last]

theorem accepts (tileHeader : Record) :
    (Trailer.script tileHeader).Accepts calls fun t r =>
      t.value = r ∧ t.WellFormed tileHeader := by
  intro row rest r
  simp only [Trailer.script, walk_enter_bind, walk_bind_eq_ok, walk_blankLine, walk_count,
    walk_times_fields, walk_scan, walk_fields, walk_pure]
  refine ⟨?_, ?_⟩
  · rintro ⟨_, _, rfl, _, _, ⟨hn, rfl⟩, belTypes, _, ⟨rfl, rfl⟩, _, _, rfl,
      _, _, ⟨skipped, footer, rfl, hskipped, hfooter, rfl⟩, last, _, rfl, rfl, rfl⟩
    exact ⟨⟨belTypes, skipped, footer, last⟩, ⟨rfl, hn, hskipped, hfooter⟩, by simp [calls]⟩
  · rintro ⟨t, ⟨rfl, h⟩, rfl⟩
    refine ⟨(), _, rfl, _, _, ⟨h.belTypeCount, rfl⟩, t.belTypes, _, ⟨rfl, ?_⟩, (), _, rfl,
      _, _, ⟨t.skipped, t.footer, rfl, h.skipped, h.footer, rfl⟩, t.last, rest, rfl, rfl, rfl⟩
    simp

end TrailerText

end ChipAtlas
