import ChipAtlas.Cache.Database
import ChipAtlas.Proofs.Cache.Codec

/-!
# Cached databases are read back

Each record of a database is written field by field and read in the same order, so a record is kept
if its fields are. From the lines at the bottom to the whole database there is one lemma for each
record, and both halves of its proof name the fields in the order in which they are written: what
each is read from, and what is known of each that is read.

What can be read back is everything there is in a database: the order in its lists, the order in
which the names of catalogs, of tiles and of variables were first inserted, and the shape of both
tables of the grid.

* `Codec.keeps_database` — the codec of databases keeps them;
* `Database.fits_iff` — a database fits exactly if it is read back from its payload;
* `Database.ofPayload?_toPayload` — a payload is read back in front of anything, and not if it is
  cut short.
-/

namespace ChipAtlas

namespace Codec

theorem keeps_record : record.Keeps := keeps_text.list

theorem keeps_records : records.Keeps := keeps_record.list

/-! ### Sections -/

instance : Bounded IndexedRecord where
  Fits r := Fits r.body ∧ Fits r.lists
  decidableFits _ := inferInstance

theorem keeps_indexedRecord : indexedRecord.Keeps where
  reads r := by
    rintro ⟨hbody, hlists⟩
    -- the bytes are put together from the left, and taken apart from the left
    simp only [indexedRecord, List.append_assoc]
    refine (keeps_uint32.reads _ trivial).bind ?_
    refine (keeps_records.reads _ hbody).bind ?_
    exact (keeps_records.list.reads _ hlists).last _
  fits := by
    refine keeps_uint32.fits.bind fun _ _ => ?_
    refine keeps_records.fits.bind fun _ hbody => ?_
    exact keeps_records.list.fits.last fun _ hlists => ⟨hbody, hlists⟩

instance : Bounded Architecture where
  Fits a := Fits a.name ∧ Fits a.nameLine ∧ Fits a.head ∧ Fits a.lists ∧ Fits a.dims ∧
    Fits a.table ∧ Fits a.pairs ∧ Fits a.elements ∧ Fits a.misc ∧ Fits a.indexed
  decidableFits _ := inferInstance

theorem keeps_architecture : architecture.Keeps where
  reads a := by
    rintro ⟨hname, hnameLine, hhead, hlists, hdims, htable, hpairs, helements, hmisc, hindexed⟩
    simp only [architecture, List.append_assoc]
    refine (keeps_text.reads _ hname).bind ?_
    refine (keeps_record.reads _ hnameLine).bind ?_
    refine (keeps_record.reads _ hhead).bind ?_
    refine (keeps_records.list.reads _ hlists).bind ?_
    refine (keeps_record.reads _ hdims).bind ?_
    refine (keeps_record.reads _ htable).bind ?_
    refine (keeps_records.reads _ hpairs).bind ?_
    refine (keeps_record.reads _ helements).bind ?_
    refine (keeps_records.reads _ hmisc).bind ?_
    exact (keeps_indexedRecord.list.reads _ hindexed).last _
  fits := by
    refine keeps_text.fits.bind fun _ hname => ?_
    refine keeps_record.fits.bind fun _ hnameLine => ?_
    refine keeps_record.fits.bind fun _ hhead => ?_
    refine keeps_records.list.fits.bind fun _ hlists => ?_
    refine keeps_record.fits.bind fun _ hdims => ?_
    refine keeps_record.fits.bind fun _ htable => ?_
    refine keeps_records.fits.bind fun _ hpairs => ?_
    refine keeps_record.fits.bind fun _ helements => ?_
    refine keeps_records.fits.bind fun _ hmisc => ?_
    exact keeps_indexedRecord.list.fits.last fun _ hindexed =>
      ⟨hname, hnameLine, hhead, hlists, hdims, htable, hpairs, helements, hmisc, hindexed⟩

instance : Bounded WireRegion where
  Fits r := Fits r.header ∧ Fits r.entries
  decidableFits _ := inferInstance

theorem keeps_wireRegion : wireRegion.Keeps where
  reads r := by
    rintro ⟨hheader, hentries⟩
    refine (keeps_record.reads _ hheader).bind ?_
    exact (keeps_records.reads _ hentries).last _
  fits := by
    refine keeps_record.fits.bind fun _ hheader => ?_
    exact keeps_records.fits.last fun _ hentries => ⟨hheader, hentries⟩

instance : Bounded IndexedRegion where
  Fits r := Fits r.index ∧ Fits r.region
  decidableFits _ := inferInstance

theorem keeps_indexedRegion : indexedRegion.Keeps where
  reads r := by
    rintro ⟨hindex, hregion⟩
    refine (keeps_record.reads _ hindex).bind ?_
    exact (keeps_wireRegion.reads _ hregion).last _
  fits := by
    refine keeps_record.fits.bind fun _ hindex => ?_
    exact keeps_wireRegion.fits.last fun _ hregion => ⟨hindex, hregion⟩

instance : Bounded Routing where
  Fits r := Fits r.counts ∧ Fits r.leading ∧ Fits r.fixed ∧ Fits r.indexed ∧ Fits r.trailing
  decidableFits _ := inferInstance

theorem keeps_routing : routing.Keeps where
  reads r := by
    rintro ⟨hcounts, hleading, hfixed, hindexed, htrailing⟩
    simp only [routing, List.append_assoc]
    refine (keeps_record.reads _ hcounts).bind ?_
    refine (keeps_wireRegion.list.reads _ hleading).bind ?_
    refine (keeps_wireRegion.list.reads _ hfixed).bind ?_
    refine (keeps_indexedRegion.list.reads _ hindexed).bind ?_
    exact (keeps_wireRegion.list.reads _ htrailing).last _
  fits := by
    refine keeps_record.fits.bind fun _ hcounts => ?_
    refine keeps_wireRegion.list.fits.bind fun _ hleading => ?_
    refine keeps_wireRegion.list.fits.bind fun _ hfixed => ?_
    refine keeps_indexedRegion.list.fits.bind fun _ hindexed => ?_
    exact keeps_wireRegion.list.fits.last fun _ htrailing =>
      ⟨hcounts, hleading, hfixed, hindexed, htrailing⟩

instance : Bounded LegacyRouting where
  Fits r := Fits r.regions ∧ Fits r.extra
  decidableFits _ := inferInstance

theorem keeps_legacyRouting : legacyRouting.Keeps where
  reads r := by
    rintro ⟨hregions, hextra⟩
    refine (keeps_wireRegion.list.reads _ hregions).bind ?_
    exact (keeps_records.reads _ hextra).last _
  fits := by
    refine keeps_wireRegion.list.fits.bind fun _ hregions => ?_
    exact keeps_records.fits.last fun _ hextra => ⟨hregions, hextra⟩

instance : Bounded ModelLeaf where
  Fits l := Fits l.head ∧ Fits l.body
  decidableFits _ := inferInstance

theorem keeps_modelLeaf : modelLeaf.Keeps where
  reads l := by
    rintro ⟨hhead, hbody⟩
    refine (keeps_record.reads _ hhead).bind ?_
    exact (keeps_record.reads _ hbody).last _
  fits := by
    refine keeps_record.fits.bind fun _ hhead => ?_
    exact keeps_record.fits.last fun _ hbody => ⟨hhead, hbody⟩

instance : Bounded Model where
  Fits m := Fits m.header ∧ Fits m.groups
  decidableFits _ := inferInstance

theorem keeps_model : model.Keeps where
  reads m := by
    rintro ⟨hheader, hgroups⟩
    refine (keeps_record.reads _ hheader).bind ?_
    exact (keeps_modelLeaf.list.list.reads _ hgroups).last _
  fits := by
    refine keeps_record.fits.bind fun _ hheader => ?_
    exact keeps_modelLeaf.list.list.fits.last fun _ hgroups => ⟨hheader, hgroups⟩

instance : Bounded Pack where
  Fits p := Fits p.header ∧ Fits p.entries ∧ Fits p.kcap
  decidableFits _ := inferInstance

theorem keeps_pack : pack.Keeps where
  reads p := by
    rintro ⟨hheader, hentries, hkcap⟩
    simp only [pack, List.append_assoc]
    refine (keeps_record.reads _ hheader).bind ?_
    refine (keeps_records.reads _ hentries).bind ?_
    exact (keeps_record.reads _ hkcap).last _
  fits := by
    refine keeps_record.fits.bind fun _ hheader => ?_
    refine keeps_records.fits.bind fun _ hentries => ?_
    exact keeps_record.fits.last fun _ hkcap => ⟨hheader, hentries, hkcap⟩

instance : Bounded TimingGroup where
  Fits g := Fits g.head ∧ Fits g.body
  decidableFits _ := inferInstance

theorem keeps_timingGroup : timingGroup.Keeps where
  reads g := by
    rintro ⟨hhead, hbody⟩
    refine (keeps_record.reads _ hhead).bind ?_
    exact (keeps_records.reads _ hbody).last _
  fits := by
    refine keeps_record.fits.bind fun _ hhead => ?_
    exact keeps_records.fits.last fun _ hbody => ⟨hhead, hbody⟩

instance : Bounded TimingNest where
  Fits n := Fits n.head ∧ Fits n.body ∧ Fits n.items
  decidableFits _ := inferInstance

theorem keeps_timingNest : timingNest.Keeps where
  reads n := by
    rintro ⟨hhead, hbody, hitems⟩
    simp only [timingNest, List.append_assoc]
    refine (keeps_record.reads _ hhead).bind ?_
    refine (keeps_records.reads _ hbody).bind ?_
    exact ((keeps_record.pair keeps_record).list.reads _ hitems).last _
  fits := by
    refine keeps_record.fits.bind fun _ hhead => ?_
    refine keeps_records.fits.bind fun _ hbody => ?_
    exact (keeps_record.pair keeps_record).list.fits.last fun _ hitems => ⟨hhead, hbody, hitems⟩

instance : Bounded TimingLib where
  Fits t := Fits t.tag ∧ Fits t.pairs ∧ Fits t.twoLine ∧ Fits t.threeLine ∧ Fits t.nests
  decidableFits _ := inferInstance

theorem keeps_timingLib : timingLib.Keeps where
  reads t := by
    rintro ⟨htag, hpairs, htwoLine, hthreeLine, hnests⟩
    simp only [timingLib, List.append_assoc]
    refine (keeps_record.reads _ htag).bind ?_
    refine (keeps_records.reads _ hpairs).bind ?_
    refine (keeps_timingGroup.list.reads _ htwoLine).bind ?_
    refine (keeps_timingGroup.list.reads _ hthreeLine).bind ?_
    exact (keeps_timingNest.list.reads _ hnests).last _
  fits := by
    refine keeps_record.fits.bind fun _ htag => ?_
    refine keeps_records.fits.bind fun _ hpairs => ?_
    refine keeps_timingGroup.list.fits.bind fun _ htwoLine => ?_
    refine keeps_timingGroup.list.fits.bind fun _ hthreeLine => ?_
    exact keeps_timingNest.list.fits.last fun _ hnests =>
      ⟨htag, hpairs, htwoLine, hthreeLine, hnests⟩

instance : Bounded Serdes where
  Fits s := Fits s.pcie ∧ Fits s.serdes
  decidableFits _ := inferInstance

theorem keeps_serdes : serdes.Keeps where
  reads s := by
    rintro ⟨hpcie, hserdes⟩
    refine (keeps_records.reads _ hpcie).bind ?_
    exact (keeps_records.reads _ hserdes).last _
  fits := by
    refine keeps_records.fits.bind fun _ hpcie => ?_
    exact keeps_records.fits.last fun _ hserdes => ⟨hpcie, hserdes⟩

/-! ### Configuration bits -/

instance : Bounded Token := .all

theorem keeps_token : token.Keeps where
  reads t _ := by
    cases t with
    | unknown code =>
      exact .bind (reads_case (by decide)) ((keeps_byte.reads code trivial).last Token.unknown)
    | var id =>
      exact .bind (reads_case (by decide)) ((keeps_uint32.reads id trivial).last Token.var)
    | _ =>
      -- a case that is nothing but its number
      simp only [token]
      exact .bind_nil (reads_case (by decide)) (.pure _)
  fits := by
    refine (yields_takeNat (by decide)).bind fun n _ => ?_
    split
    -- two cases carry a value, the others are their numbers alone
    case h_3 => exact keeps_byte.fits.last fun _ _ => trivial
    case h_9 => exact keeps_uint32.fits.last fun _ _ => trivial
    case h_10 => exact .failure
    all_goals exact .pure trivial

instance : Bounded OperandKind := .all

theorem keeps_operandKind : operand.operandKind.Keeps :=
  keeps_oneOf (fun kind => by cases kind <;> decide) (by decide) fun _ => trivial

instance : Bounded Operand where
  Fits o := Fits o.raw
  decidableFits _ := inferInstance

theorem keeps_operand : operand.Keeps where
  reads _ hraw := (keeps_operandKind.reads _ trivial).bind <| (keeps_text.reads _ hraw).last _
  fits := by
    refine keeps_operandKind.fits.bind fun _ _ => ?_
    exact keeps_text.fits.last fun _ hraw => hraw

instance : Bounded ConfigBit where
  Fits b := Fits b.name ∧ Fits b.kind ∧ Fits b.infixTokens ∧ Fits b.postfixTokens ∧ Fits b.vars
  decidableFits _ := inferInstance

theorem keeps_configBit : configBit.Keeps where
  reads b := by
    rintro ⟨hname, hkind, hinfix, hpostfix, hvars⟩
    simp only [configBit, List.append_assoc]
    refine (keeps_text.reads _ hname).bind ?_
    refine (keeps_text.reads _ hkind).bind ?_
    refine (keeps_uint32.reads _ trivial).bind ?_
    refine (keeps_uint32.reads _ trivial).bind ?_
    refine (keeps_int32.reads _ trivial).bind ?_
    refine (keeps_int32.reads _ trivial).bind ?_
    refine (keeps_flag.reads _ trivial).bind ?_
    refine (keeps_flag.reads _ trivial).bind ?_
    refine (keeps_flag.reads _ trivial).bind ?_
    refine (keeps_token.list.reads _ hinfix).bind ?_
    refine (keeps_token.list.reads _ hpostfix).bind ?_
    exact ((keeps_uint32.orderedMap keeps_operand).reads _ hvars).last _
  fits := by
    refine keeps_text.fits.bind fun _ hname => ?_
    refine keeps_text.fits.bind fun _ hkind => ?_
    refine keeps_uint32.fits.bind fun _ _ => ?_
    refine keeps_uint32.fits.bind fun _ _ => ?_
    refine keeps_int32.fits.bind fun _ _ => ?_
    refine keeps_int32.fits.bind fun _ _ => ?_
    refine keeps_flag.fits.bind fun _ _ => ?_
    refine keeps_flag.fits.bind fun _ _ => ?_
    refine keeps_flag.fits.bind fun _ _ => ?_
    refine keeps_token.list.fits.bind fun _ hinfix => ?_
    refine keeps_token.list.fits.bind fun _ hpostfix => ?_
    exact (keeps_uint32.orderedMap keeps_operand).fits.last fun _ hvars =>
      ⟨hname, hkind, hinfix, hpostfix, hvars⟩

instance : Bounded Catalog where
  Fits c := Fits c.headers ∧ Fits c.bits
  decidableFits _ := inferInstance

theorem keeps_catalog : catalog.Keeps where
  reads c := by
    rintro ⟨hheaders, hbits⟩
    refine (keeps_records.reads _ hheaders).bind ?_
    exact (keeps_configBit.list.reads _ hbits).last _
  fits := by
    refine keeps_records.fits.bind fun _ hheaders => ?_
    exact keeps_configBit.list.fits.last fun _ hbits => ⟨hheaders, hbits⟩

/-! ### Tiles -/

instance : Bounded TileFlag := .all

theorem keeps_tileFlag : tileFlag.Keeps where
  reads t _ := by
    cases t with
    | located raw =>
      exact .bind (reads_case (by decide)) ((keeps_int32.reads raw trivial).last TileFlag.located)
    | _ =>
      -- a case that is nothing but its number
      simp only [tileFlag]
      exact .bind_nil (reads_case (by decide)) (.pure _)
  fits := by
    refine (yields_takeNat (by decide)).bind fun n _ => ?_
    split
    -- the last of the three cases carries a value
    case h_3 => exact keeps_int32.fits.last fun _ _ => trivial
    case h_4 => exact .failure
    all_goals exact .pure trivial

instance : Bounded Tile where
  Fits t := Fits t.name ∧ Fits t.kind
  decidableFits _ := inferInstance

theorem keeps_tile : tile.Keeps where
  reads t := by
    rintro ⟨hname, hkind⟩
    simp only [tile, List.append_assoc]
    refine (keeps_text.reads _ hname).bind ?_
    refine (keeps_text.reads _ hkind).bind ?_
    refine (keeps_uint32.reads _ trivial).bind ?_
    refine (keeps_uint32.reads _ trivial).bind ?_
    refine (keeps_uint32.reads _ trivial).bind ?_
    refine (keeps_uint32.reads _ trivial).bind ?_
    refine (keeps_uint32.reads _ trivial).bind ?_
    refine (keeps_uint32.reads _ trivial).bind ?_
    exact (keeps_tileFlag.reads _ trivial).last _
  fits := by
    refine keeps_text.fits.bind fun _ hname => ?_
    refine keeps_text.fits.bind fun _ hkind => ?_
    refine keeps_uint32.fits.bind fun _ _ => ?_
    refine keeps_uint32.fits.bind fun _ _ => ?_
    refine keeps_uint32.fits.bind fun _ _ => ?_
    refine keeps_uint32.fits.bind fun _ _ => ?_
    refine keeps_uint32.fits.bind fun _ _ => ?_
    refine keeps_uint32.fits.bind fun _ _ => ?_
    exact keeps_tileFlag.fits.last fun _ _ => ⟨hname, hkind⟩

instance : Bounded TileGrid where
  Fits g := Fits g.header ∧ Fits g.tiles ∧ Fits g.cells ∧ Fits g.templates ∧ Fits g.byName
  decidableFits _ := inferInstance

theorem keeps_tileGrid : tileGrid.Keeps where
  reads g := by
    rintro ⟨hheader, htiles, hcells, htemplates, hbyName⟩
    simp only [tileGrid, List.append_assoc]
    refine (keeps_record.reads _ hheader).bind ?_
    refine (keeps_uint32.reads _ trivial).bind ?_
    refine (keeps_uint32.reads _ trivial).bind ?_
    refine (keeps_tile.array.reads _ htiles).bind ?_
    refine (keeps_nat32.list.table.reads _ hcells).bind ?_
    refine (keeps_nat32.sortedMap.table.reads _ htemplates).bind ?_
    exact ((keeps_text.orderedMap keeps_nat32).reads _ hbyName).last _
  fits := by
    refine keeps_record.fits.bind fun _ hheader => ?_
    refine keeps_uint32.fits.bind fun _ _ => ?_
    refine keeps_uint32.fits.bind fun _ _ => ?_
    refine keeps_tile.array.fits.bind fun _ htiles => ?_
    refine keeps_nat32.list.table.fits.bind fun _ hcells => ?_
    refine keeps_nat32.sortedMap.table.fits.bind fun _ htemplates => ?_
    exact (keeps_text.orderedMap keeps_nat32).fits.last fun _ hbyName =>
      ⟨hheader, htiles, hcells, htemplates, hbyName⟩

/-! ### The whole -/

instance : Bounded Variant := .all

theorem keeps_variant : database.variant.Keeps :=
  keeps_oneOf (fun variant => by cases variant <;> decide) (by decide) fun _ => trivial

instance : Bounded Database where
  Fits db := Fits db.banner ∧ Fits db.magic ∧ Fits db.key ∧ Fits db.architectures ∧
    Fits db.routing ∧ Fits db.legacyRouting ∧ Fits db.models ∧ Fits db.names ∧
    Fits db.constraints ∧ Fits db.pack ∧ Fits db.timing ∧ Fits db.serdes ∧ Fits db.catalogs ∧
    Fits db.grid ∧ Fits db.belTypes ∧ Fits db.trailer
  decidableFits _ := inferInstance

/-- **Databases are kept.** -/
theorem keeps_database : database.Keeps where
  reads db := by
    rintro ⟨hbanner, hmagic, hkey, harchitectures, hrouting, hlegacyRouting, hmodels, hnames,
      hconstraints, hpack, htiming, hserdes, hcatalogs, hgrid, hbelTypes, htrailer⟩
    simp only [database, List.append_assoc]
    refine (keeps_record.reads _ hbanner).bind ?_
    refine (keeps_text.reads _ hmagic).bind ?_
    refine (keeps_text.reads _ hkey).bind ?_
    refine (keeps_variant.reads _ trivial).bind ?_
    refine (keeps_architecture.list.reads _ harchitectures).bind ?_
    refine (keeps_routing.reads _ hrouting).bind ?_
    refine (keeps_legacyRouting.option.reads _ hlegacyRouting).bind ?_
    refine (keeps_model.list.reads _ hmodels).bind ?_
    refine (keeps_records.reads _ hnames).bind ?_
    refine (keeps_records.reads _ hconstraints).bind ?_
    refine (keeps_pack.reads _ hpack).bind ?_
    refine (keeps_timingLib.reads _ htiming).bind ?_
    refine (keeps_serdes.option.reads _ hserdes).bind ?_
    refine ((keeps_text.orderedMap keeps_catalog).reads _ hcatalogs).bind ?_
    refine (keeps_tileGrid.reads _ hgrid).bind ?_
    refine (keeps_records.reads _ hbelTypes).bind ?_
    exact (keeps_records.reads _ htrailer).last _
  fits := by
    refine keeps_record.fits.bind fun _ hbanner => ?_
    refine keeps_text.fits.bind fun _ hmagic => ?_
    refine keeps_text.fits.bind fun _ hkey => ?_
    refine keeps_variant.fits.bind fun _ _ => ?_
    refine keeps_architecture.list.fits.bind fun _ harchitectures => ?_
    refine keeps_routing.fits.bind fun _ hrouting => ?_
    refine keeps_legacyRouting.option.fits.bind fun _ hlegacyRouting => ?_
    refine keeps_model.list.fits.bind fun _ hmodels => ?_
    refine keeps_records.fits.bind fun _ hnames => ?_
    refine keeps_records.fits.bind fun _ hconstraints => ?_
    refine keeps_pack.fits.bind fun _ hpack => ?_
    refine keeps_timingLib.fits.bind fun _ htiming => ?_
    refine keeps_serdes.option.fits.bind fun _ hserdes => ?_
    refine (keeps_text.orderedMap keeps_catalog).fits.bind fun _ hcatalogs => ?_
    refine keeps_tileGrid.fits.bind fun _ hgrid => ?_
    refine keeps_records.fits.bind fun _ hbelTypes => ?_
    exact keeps_records.fits.last fun _ htrailer =>
      ⟨hbanner, hmagic, hkey, harchitectures, hrouting, hlegacyRouting, hmodels, hnames,
       hconstraints, hpack, htiming, hserdes, hcatalogs, hgrid, hbelTypes, htrailer⟩

end Codec

namespace Database

/-- **A database fits exactly if it is read back from its payload.** So the condition leaves out no
database that could be kept. -/
theorem fits_iff (db : Database) : Fits db ↔ ofPayload? db.toPayload = some db := by
  refine ⟨fun h => ?_, fun h => ?_⟩
  · have hwhole := (Codec.keeps_database.reads db h).whole []
    rw [List.append_nil] at hwhole
    exact congrArg (Option.map Prod.fst) hwhole
  · obtain ⟨⟨_, s⟩, hrun, rfl⟩ := Option.map_eq_some_iff.1 h
    exact (Codec.keeps_database.fits _ _ s hrun).2

/-- **A payload is read back.** A database, with lengths and tile numbers that a machine can hold,
is read from its payload as it was, whatever stands behind the payload: with the orders in its lists
and maps and the shapes of its tables. From a payload that is cut short, wherever the cut is, no
database is read. -/
theorem ofPayload?_toPayload (db : Database) (h : Fits db) :
    (∀ rest, ofPayload? (db.toPayload ++ rest) = some db) ∧
      ∀ front, front <+: db.toPayload → front ≠ db.toPayload → ofPayload? front = none := by
  have hreads := Codec.keeps_database.reads db h
  refine ⟨fun rest => ?_, fun front hfront hne => ?_⟩
  · exact congrArg (Option.map Prod.fst) (hreads.whole rest)
  · exact congrArg (Option.map Prod.fst) (hreads.cut front hfront hne)

/-- A small database: two catalogs, a bit with an offset and a variable, and two tiles in the first
of two cells. -/
def small : Database where
  banner := ["chip", "database"]
  magic := "m"
  key := "k"
  variant := .current
  architectures := [{
    name := "arch", nameLine := ["arch"], head := ["1"], lists := [[["a", "b"]], []], dims := [],
    table := ["2"], pairs := [["p", "q"]], elements := [], misc := [], indexed := [⟨300, [], []⟩] }]
  routing := ⟨["1"], [⟨["w"], [["e"]]⟩], [], [⟨["0"], ⟨["w"], []⟩⟩], []⟩
  legacyRouting := none
  models := [⟨["model"], [[⟨["leaf"], ["body"]⟩], []]⟩]
  names := [["z"], ["a"]]
  constraints := []
  pack := ⟨["0"], [], ["kcap"]⟩
  timing := ⟨["lib"], [], [⟨["g"], [["1"]]⟩], [], [⟨["n"], [], [(["x"], ["y"])]⟩]⟩
  serdes := some ⟨[["pcie"]], []⟩
  catalogs := .ofList [
    ("plb", ⟨[["plb", "1"]], [{
      name := "bit", kind := "plb", frame := 70000, bit := 251, xoff := -1, yoff := 2147483647,
      usesWireOrArc := true, remap := false, pllInfo := false,
      infixTokens := [.notOp, .var 65], postfixTokens := [.var 65, .notOp],
      vars := .ofList [(66, ⟨.other, "none"⟩), (65, ⟨.property, "PROPERTY(A)"⟩)] }]⟩),
    ("pad", ⟨[["pad", "0"]], []⟩)]
  grid := {
    header := ["1", "2"], maxCol := 2, maxRow := 1
    tiles := #[
      ⟨"p1", "plb", 0, 0, 1, 1, 0, 0, .located 65535⟩,
      ⟨"a1", "plb", 0, 0, 1, 1, 8, 8, .template⟩]
    cells := ⟨1, 2, #[[0, 1], []], rfl⟩
    templates := ⟨1, 2, #[.ofList [("plb", 1)], ∅], rfl⟩
    byName := .ofList [("p1", 0), ("a1", 1)] }
  belTypes := []
  trailer := [["end"]]

theorem ofPayload?_toPayload_small :
    Fits small ∧ (∀ rest, ofPayload? (small.toPayload ++ rest) = some small) ∧
      ∀ front, front <+: small.toPayload → front ≠ small.toPayload → ofPayload? front = none :=
  ⟨by decide +kernel, ofPayload?_toPayload small (by decide +kernel)⟩

end Database

end ChipAtlas
