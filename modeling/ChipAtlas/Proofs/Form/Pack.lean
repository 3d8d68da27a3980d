import ChipAtlas.Format.Pack
import ChipAtlas.Proofs.Form.Counted

/-!
# The form of the names, the constraints and the packing rules
-/

namespace ChipAtlas

open Script

/-! ### Names and constraints -/

theorem namesScript_accepts :
    namesScript.Accepts (Counted.calls fun record => [.line (.only [0]) record])
      fun t records => t.items = records ∧ t.WellFormed fun _ => True :=
  Counted.accepts_countedLines [0]

theorem constraintsScript_accepts :
    constraintsScript.Accepts (Counted.calls fun record => [.line (.allBut [0]) record])
      fun t records => t.items = records ∧ t.WellFormed fun _ => True :=
  Counted.accepts fun _ => Copies.rounds fun _ => line_copies (.allBut [0])

/-! ### Packing rules -/

namespace Pack

/-- The packing rules as they are written. -/
def calls (p : Pack) : List Call :=
  .line (.only []) p.header ::
    (p.entries.map (.line (.only [0])) ++ [.line (.only []) p.kcap])

/-- The header and the last line carry their tags, and the header counts the entries. -/
@[mk_iff]
structure WellFormed (p : Pack) : Prop where
  tag : p.header.headD "" = "pack"
  entryCount : numberAt Text.count? p.header 1 = some p.entries.length
  lastTag : p.kcap.headD "" = "kcap"

instance (p : Pack) : Decidable p.WellFormed := decidable_of_iff' _ (wellFormed_iff ..)

theorem script_copies : script.Copies calls WellFormed := by
  intro row rest p
  simp only [script, walk_bind_eq_ok, walk_enter_bind, walk_pure, walk_fields, walk_expectTag,
    walk_count, walk_times_fields]
  refine ⟨?_, ?_⟩
  · rintro ⟨header, _, rfl, _, _, ⟨htag, rfl⟩, _, _, ⟨hn, rfl⟩, entries, _, ⟨rfl, rfl⟩,
      kcap, _, rfl, _, _, ⟨hlast, rfl⟩, rfl, rfl⟩
    exact ⟨⟨htag, hn, hlast⟩, by simp [calls]⟩
  · rintro ⟨h, rfl⟩
    refine ⟨p.header, _, rfl, (), _, ⟨h.tag, rfl⟩, _, _, ⟨h.entryCount, rfl⟩, p.entries, _,
      ⟨rfl, ?_⟩, p.kcap, rest, rfl, (), _, ⟨h.lastTag, rfl⟩, rfl, rfl⟩
    simp

end Pack

end ChipAtlas
