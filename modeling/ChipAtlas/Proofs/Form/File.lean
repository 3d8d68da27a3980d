import ChipAtlas.Database
import ChipAtlas.Proofs.Form.Architecture
import ChipAtlas.Proofs.Form.Bits
import ChipAtlas.Proofs.Form.Header
import ChipAtlas.Proofs.Form.Model
import ChipAtlas.Proofs.Form.Pack
import ChipAtlas.Proofs.Form.Routing
import ChipAtlas.Proofs.Form.Tiles
import ChipAtlas.Proofs.Form.Timing
import ChipAtlas.Proofs.Form.Trailer

/-!
# The form of a whole file

A file is the texts of its sections, one after the other. The sections depend on each other in three
places: the header names the architectures, its key tells the variant, and the header of the tile
table counts the primitive types.

* `FileText` — the sections of a file, as they are written;
* `FileText.accepts` — the script of the whole file accepts exactly the well-formed ones.
-/

namespace ChipAtlas

open Script

/-- The sections of a file, as they are written. -/
structure FileText where
  header : HeaderText
  architectures : List ArchitectureText
  routing : Routing
  legacyRouting : Option LegacyRoutingText
  models : Counted Model
  names : Counted Record
  constraints : Counted Record
  pack : Pack
  timing : TimingLib
  serdes : SerdesText
  bits : BitTableText
  tiles : TileTableText
  trailer : TrailerText

namespace FileText

/-- The variant that the key tells. -/
def variant (t : FileText) : Variant := .ofKey t.header.key

/-- The sections behind the header. -/
def bodyCalls (t : FileText) : List Call :=
  t.architectures.flatMap ArchitectureText.calls ++ (t.routing.calls ++
    (t.legacyRouting.toList.flatMap LegacyRoutingText.calls ++
      (t.models.calls Model.calls ++ (t.names.calls (fun r => [.line (.only [0]) r]) ++
        (t.constraints.calls (fun r => [.line (.allBut [0]) r]) ++ (t.pack.calls ++
          (t.timing.calls ++ (t.serdes.calls ++ (t.bits.calls ++ (t.tiles.calls ++
            t.trailer.calls))))))))))

/-- The file, line by line. -/
def calls (t : FileText) : List Call := t.header.calls ++ t.bodyCalls

/-- Every section is well formed, and the sections agree with each other. -/
@[mk_iff]
structure WellFormed (t : FileText) : Prop where
  header : t.header.WellFormed
  names_agree : t.architectures.map (·.nameLine) = t.header.architectures
  architectures : ∀ a ∈ t.architectures, a.WellFormed
  routing : t.routing.WellFormed t.variant
  legacy_agrees : t.legacyRouting.isSome = decide (t.variant = .legacy)
  legacyRouting : ∀ r ∈ t.legacyRouting, r.WellFormed
  models : t.models.WellFormed Model.WellFormed
  names : t.names.WellFormed fun _ => True
  constraints : t.constraints.WellFormed fun _ => True
  pack : t.pack.WellFormed
  timing : t.timing.WellFormed
  serdes : t.serdes.WellFormed
  bits : t.bits.WellFormed
  tiles : t.tiles.WellFormed
  complete : t.tiles.Complete
  trailer : t.trailer.WellFormed t.tiles.header

instance (t : FileText) : Decidable t.WellFormed := decidable_of_iff' _ (wellFormed_iff ..)

/-- The database with the records of the file and a grid. -/
def value (t : FileText) (grid : TileGrid) : Database where
  banner := t.header.banner
  magic := t.header.value.magic
  key := t.header.key
  variant := t.variant
  architectures := t.architectures.map ArchitectureText.value
  routing := t.routing
  legacyRouting := t.legacyRouting.map LegacyRoutingText.value
  models := t.models.items
  names := t.names.items
  constraints := t.constraints.items
  pack := t.pack
  timing := t.timing
  serdes := t.serdes.value
  catalogs := t.bits.value
  grid
  belTypes := t.trailer.value.belTypes
  trailer := t.trailer.value.tail

/-- The grid that inserting the tiles in file order makes of the empty grid. -/
def GivesGrid (t : FileText) (grid : TileGrid) : Prop :=
  t.tiles.tiles.foldlM TileGrid.insert (.create t.tiles.maxCol t.tiles.maxRow t.tiles.header) =
    .ok grid

end FileText

theorem LegacyRoutingText.accepts_of_variant (variant : Variant) :
    (Database.legacyRoutingScript variant).Accepts
      (fun (t : Option LegacyRoutingText) => t.toList.flatMap calls) fun t r =>
        t.map value = r ∧ t.isSome = decide (variant = .legacy) ∧ ∀ u ∈ t, u.WellFormed := by
  intro row rest r
  cases variant with
  -- only a legacy file has the section
  | current =>
    rw [Database.legacyRoutingScript, walk_pure]
    refine ⟨?_, ?_⟩
    · rintro ⟨rfl, rfl⟩
      exact ⟨none, ⟨rfl, rfl, nofun⟩, rfl⟩
    · rintro ⟨t, ⟨rfl, hnone, -⟩, rfl⟩
      obtain rfl : t = none := by simpa using hnone
      exact ⟨rfl, rfl⟩
  | legacy =>
    rw [Database.legacyRoutingScript, walk_map_eq_ok]
    simp only [accepts _ _ _]
    refine ⟨?_, ?_⟩
    · rintro ⟨_, ⟨t, ⟨rfl, ht⟩, rfl⟩, rfl⟩
      refine ⟨some t, ⟨rfl, rfl, fun u hu => Option.some.inj hu ▸ ht⟩, by simp⟩
    · rintro ⟨t, ⟨rfl, hsome, hall⟩, rfl⟩
      obtain ⟨u, rfl⟩ := Option.isSome_iff_exists.1 hsome
      exact ⟨u.value, ⟨u, ⟨rfl, hall u rfl⟩, by simp⟩, rfl⟩

namespace FileText

/-- **The form of a file.** A row of calls is accepted exactly if it is a well-formed file, and
gives the records of the file with the grid of its tiles. -/
theorem accepts : Database.script.Accepts calls fun t db =>
    t.WellFormed ∧ ∃ grid, t.GivesGrid grid ∧ t.value grid = db := by
  intro row rest db
  simp only [Database.script, walk_bind_eq_ok, walk_note_bind, walk_noteLines_bind, walk_pure,
    HeaderText.accepts _ _ _, ArchitectureText.allScript_accepts _ _ _ _,
    Routing.script_copies _ _ _ _, LegacyRoutingText.accepts_of_variant _ _ _ _,
    Model.allScript_accepts _ _ _, namesScript_accepts _ _ _, constraintsScript_accepts _ _ _,
    Pack.script_copies _ _ _, TimingLib.script_copies _ _ _, SerdesText.accepts _ _ _,
    BitTableText.accepts _ _ _, TileGrid.script_accepts _ _ _, TrailerText.accepts _ _ _ _]
  refine ⟨?_, ?_⟩
  · rintro ⟨_, _, ⟨header, ⟨rfl, hheader⟩, rfl⟩, _, _, ⟨architectures, ⟨rfl, hagree, harch⟩, rfl⟩,
      routing, _, ⟨hrouting, rfl⟩, _, _, ⟨legacy, ⟨rfl, hlegacy, hlegacy'⟩, rfl⟩,
      _, _, ⟨models, ⟨rfl, hmodels⟩, rfl⟩, _, _, ⟨names, ⟨rfl, hnames⟩, rfl⟩,
      _, _, ⟨constraints, ⟨rfl, hconstraints⟩, rfl⟩, pack, _, ⟨hpack, rfl⟩,
      timing, _, ⟨htiming, rfl⟩, _, _, ⟨serdes, ⟨rfl, hserdes⟩, rfl⟩,
      _, _, ⟨bits, ⟨rfl, hbits⟩, rfl⟩, grid, _, ⟨tiles, ⟨hgrid, htiles, hcomplete⟩, rfl⟩,
      _, _, ⟨trailer, ⟨rfl, htrailer⟩, rfl⟩, rfl, rfl⟩
    -- the trailer is counted by the header that the grid has kept
    rw [TileGrid.header_of_foldlM hgrid] at htrailer
    exact ⟨⟨header, architectures, routing, legacy, models, names, constraints, pack, timing,
      serdes, bits, tiles, trailer⟩,
      ⟨⟨hheader, hagree, harch, hrouting, hlegacy, hlegacy', hmodels, hnames, hconstraints, hpack,
        htiming, hserdes, hbits, htiles, hcomplete, htrailer⟩, grid, hgrid, rfl⟩,
      by simp [calls, bodyCalls]⟩
  · rintro ⟨t, ⟨h, grid, hgrid, rfl⟩, rfl⟩
    -- the insertions keep the header, by which the trailer is counted
    have hheader : grid.header = t.tiles.header := TileGrid.header_of_foldlM hgrid
    rw [calls, bodyCalls]
    simp only [List.append_assoc]
    exact ⟨_, _, ⟨t.header, ⟨rfl, h.header⟩, rfl⟩,
      _, _, ⟨t.architectures, ⟨rfl, h.names_agree, h.architectures⟩, rfl⟩,
      t.routing, _, ⟨h.routing, rfl⟩,
      _, _, ⟨t.legacyRouting, ⟨rfl, h.legacy_agrees, h.legacyRouting⟩, rfl⟩,
      _, _, ⟨t.models, ⟨rfl, h.models⟩, rfl⟩, _, _, ⟨t.names, ⟨rfl, h.names⟩, rfl⟩,
      _, _, ⟨t.constraints, ⟨rfl, h.constraints⟩, rfl⟩, t.pack, _, ⟨h.pack, rfl⟩,
      t.timing, _, ⟨h.timing, rfl⟩, _, _, ⟨t.serdes, ⟨rfl, h.serdes⟩, rfl⟩,
      _, _, ⟨t.bits, ⟨rfl, h.bits⟩, rfl⟩, grid, _, ⟨t.tiles, ⟨hgrid, h.tiles, h.complete⟩, rfl⟩,
      _, rest, ⟨t.trailer, ⟨rfl, hheader ▸ h.trailer⟩, rfl⟩, rfl, rfl⟩

end FileText

end ChipAtlas
