import ChipAtlas.Proofs.Script.Modular
import ChipAtlas.Proofs.Script.Shows

/-!
# The form is attentive

No section of the form looks at a line that it does not take next. All sections but that of the
serial transceivers do not look at lines at all, and that one takes the line in either case. Nor
does a section ever say that the file has ended: its checks are about lines that are there.
-/

namespace ChipAtlas

open Script

namespace Script

/-- Requests are attentive, and so is what is built from them without a look at a line. -/
theorem attentive_modular : Modular @Attentive where
  done _ := trivial
  refuse h := h
  bind := Attentive.bind
  line _ _ := trivial
  scan _ _ := trivial
  enter _ := trivial
  setRecord _ := trivial
  setKey _ := trivial
  note _ := trivial
  noteLines _ := trivial

theorem attentive_checked {α : Type} (value : Checked α) : (checked value).Attentive := by
  cases value <;> trivial

end Script

/-- The section that looks at a line: blank or not, the line is taken next. -/
theorem Serdes.attentive_script : script.Attentive := by
  intro blank
  cases blank with
  | true => exact ⟨trivial, attentive_modular.serdesAbsent⟩
  | false => exact ⟨trivial, attentive_modular.serdesLists⟩

theorem Catalogs.attentive_script : script.Attentive := attentive_modular.catalogs

/-! ### The table of tiles -/

namespace TileGrid

theorem attentive_insertScript (g : TileGrid) (t : Tile) : (g.insertScript t).Attentive := by
  refine (attentive_checked _).bind fun grown => ?_
  split <;> trivial

theorem attentive_cellScript (s : Listing) : (cellScript s).Attentive := by
  have h := attentive_modular
  have htiles (n : Nat) (x y : UInt32) :
      (foldTimes n (fun _ g => do g.insertScript (← Tile.script x y)) s.grid).Attentive :=
    h.foldTimes (fun _ g => (h.tile x y).bind g.attentive_insertScript) n s.grid
  exact (h.fields []).bind fun line => (h.number line 0 _).bind fun x =>
    (h.number line 1 _).bind fun y => (h.count line 2).bind fun n =>
    h.check_bind nofun <| (attentive_checked _).bind fun _ =>
    h.check_bind nofun <| (attentive_checked _).bind fun _ => (htiles n x y).bind fun _ => trivial

theorem attentive_script : script.Attentive := by
  have h := attentive_modular
  exact (h.enter .tiles).bind fun _ => (h.fields [0]).bind fun header =>
    (h.expectTag header "bil_info").bind fun _ => (h.number header 1 _).bind fun maxCol =>
    (h.number header 2 _).bind fun maxRow => (h.count header 7).bind fun _ =>
    (h.count header 8).bind fun _ =>
    (h.foldTimes (fun i s => (h.setRecord i).bind fun _ => attentive_cellScript s) _ _).bind
    fun _ => h.check_bind nofun <| (h.note _).bind fun _ => trivial

end TileGrid

/-- **The form is attentive.** -/
theorem Database.attentive_script : script.Attentive :=
  attentive_modular.header.bind fun header =>
    (attentive_modular.note _).bind fun _ =>
    (attentive_modular.architectures header.architectures).bind fun _ =>
    (attentive_modular.routing header.variant).bind fun _ =>
    (attentive_modular.legacyRouting header.variant).bind fun _ =>
    attentive_modular.models.bind fun _ =>
    attentive_modular.names.bind fun _ =>
    attentive_modular.constraints.bind fun _ =>
    attentive_modular.pack.bind fun _ =>
    attentive_modular.timing.bind fun _ =>
    Serdes.attentive_script.bind fun _ =>
    attentive_modular.catalogs.bind fun _ =>
    TileGrid.attentive_script.bind fun grid =>
    (attentive_modular.trailer grid.header).bind fun _ => trivial

end ChipAtlas
