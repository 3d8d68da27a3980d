import ChipAtlas.Proofs.RoundTrip

/-!
# The structure of a decoded database

The lists of a file stand behind counts, and which lists there are depends on the variant. A
database has lost the lines of some counts and keeps others, but whatever file it was decoded from,
its lists have the lengths that the form prescribes: the fixed numbers of the form, and for every
count that is kept, the number that it says. `Database.WellStructured` collects these facts section
by section, as statements on the database alone.

They follow from the form of the file, in which each list stands beside its count, but for one: that
the body of a leaf has the fields that its selector announces is checked nowhere. It holds because
these fields have been deciphered (`Reading.Shows.lt_length`).

* `IndexedText.WellFormed.index_toNat`, `ArchitectureText.WellFormed.wellStructured`,
  `ModelLeaf.covers_of_shows` — the sections that lose their counts;
* `Database.wellStructured_of_decode` — every decoded database.
-/

namespace ChipAtlas

open Script

/-! ### What the sections are like -/

/-- An architecture has five lists, at most four lines of pairs, four further lines, and the records
numbered from 3 to 41, each with two lines and five lists. -/
structure Architecture.WellStructured (a : Architecture) : Prop where
  lists : a.lists.length = 5
  pairs : a.pairs.length ≤ 4
  misc : a.misc.length = 4
  indices : a.indexed.map (·.index.toNat) = List.range' 3 39
  recordBody : ∀ r ∈ a.indexed, r.body.length = 2
  recordLists : ∀ r ∈ a.indexed, r.lists.length = 5

/-- The selector of a leaf is 1, 2 or 3, and the body has the fields that are ciphered then. -/
def ModelLeaf.Covers (l : ModelLeaf) : Prop :=
  (numberAt Text.uint32? l.head 2 = some 1 ∧ 1 < l.body.length) ∨
    (numberAt Text.uint32? l.head 2 = some 2 ∧ 5 < l.body.length) ∨
      (numberAt Text.uint32? l.head 2 = some 3 ∧ 9 < l.body.length)

namespace Database

/-- The wire regions of both routing sections. -/
def wireRegions (db : Database) : List WireRegion :=
  db.routing.regions ++ db.legacyRouting.toList.flatMap (·.regions)

/-- The lists of a database have the lengths that the form prescribes. -/
structure WellStructured (db : Database) : Prop where
  variant_iff : db.variant = .legacy ↔ db.key = "ph1_100"
  legacyRouting_iff : db.legacyRouting.isSome ↔ db.variant = .legacy
  /-- The first line of the routing section counts the leading and the indexed regions. -/
  leading : numberAt Text.count? db.routing.counts 0 = some db.routing.leading.length
  fixed : db.routing.fixed.length = 16
  indexed : numberAt Text.count? db.routing.counts 1 = some db.routing.indexed.length
  trailing : db.routing.trailing.length = if db.variant = .legacy then 19 else 9
  /-- An indexed region carries its position, counted from zero or from one. -/
  index : ∀ i (region : IndexedRegion), db.routing.indexed[i]? = some region →
    numberAt Text.count? region.index 0 = some i ∨
      numberAt Text.count? region.index 0 = some (i + 1)
  /-- The header of a wire region is four zeros and the number of its entries. -/
  zeros : ∀ region ∈ db.wireRegions, ∀ i < 4, numberAt Text.int64? region.header i = some 0
  entries : ∀ region ∈ db.wireRegions,
    numberAt Text.count? region.header 4 = some region.entries.length
  architectures : ∀ a ∈ db.architectures, a.WellStructured
  /-- The header of a model counts the groups and then the leaves of each. -/
  groups : ∀ m ∈ db.models, numberAt Text.count? m.header 0 = some m.groups.length
  leaves : ∀ m ∈ db.models, ∀ g (group : List ModelLeaf), m.groups[g]? = some group →
    numberAt Text.count? m.header (g + 1) = some group.length
  covers : ∀ m ∈ db.models, ∀ group ∈ m.groups, ∀ leaf ∈ group, leaf.Covers
  pack : numberAt Text.count? db.pack.header 1 = some db.pack.entries.length
  /-- The tag line of the timing library counts its four parts. -/
  timingPairs : numberAt Text.count? db.timing.tag 1 = some db.timing.pairs.length
  timingTwo : numberAt Text.count? db.timing.tag 2 = some db.timing.twoLine.length
  timingThree : numberAt Text.count? db.timing.tag 3 = some db.timing.threeLine.length
  timingNests : numberAt Text.count? db.timing.tag 4 = some db.timing.nests.length
  twoLines : ∀ g ∈ db.timing.twoLine, g.body.length = 2
  threeLines : ∀ g ∈ db.timing.threeLine, g.body.length = 3
  nestItems : ∀ n ∈ db.timing.nests, numberAt Text.count? n.head 2 = some n.items.length
  nestBody : ∀ n ∈ db.timing.nests, n.body.length = 2
  /-- The header of the tile table counts the tiles and the primitive types. -/
  tiles : numberAt Text.count? db.grid.header 7 = some db.grid.tiles.size
  belTypes : numberAt Text.count? db.grid.header 8 = some db.belTypes.length
  /-- The first footer word stands in the last line but one. -/
  trailer : ∃ skipped footer last, db.trailer = skipped ++ [footer, last] ∧
    (∀ r ∈ skipped, Trailer.isFooter r = false) ∧ Trailer.isFooter footer = true

end Database

/-! ### Sections that lose their counts -/

theorem IndexedText.WellFormed.index_toNat {index : Nat} {t : IndexedText}
    (h : t.WellFormed index) : t.value.index.toNat = index := by
  obtain ⟨found, hfound, rfl⟩ := Option.map_eq_some_iff.1 h.index
  rw [value, hfound]
  rfl

/-- At most one line of pairs stands for each count. -/
theorem PairsText.WellFormed.length_value_le {t : PairsText} (h : t.WellFormed) :
    t.value.length ≤ 4 := by
  rw [value, ← List.filterMap_eq_flatMap_toList, ← h.four]
  exact List.length_filterMap_le _ _

theorem ArchitectureText.WellFormed.wellStructured {t : ArchitectureText} (h : t.WellFormed) :
    t.value.WellStructured := by
  -- a numbered record of the description stands in some place
  have hrecord : ∀ r ∈ t.value.indexed, ∃ i u, u.WellFormed i ∧ IndexedText.value u = r := by
    intro r hr
    obtain ⟨u, hu, rfl⟩ := List.mem_map.1 hr
    obtain ⟨i, hi⟩ := List.mem_iff_getElem?.1 hu
    exact ⟨_, u, h.indexed i u hi, rfl⟩
  refine ⟨h.lists.five, h.pairs.length_value_le, h.miscLines, ?_, fun r hr => ?_, fun r hr => ?_⟩
  · have hcount : t.indexed.length = 39 := h.indexedCount
    refine List.ext_getElem (by simp [value, hcount]) fun i hi _ => ?_
    have hi : i < t.indexed.length := by simpa [value] using hi
    have hindex := (h.indexed i _ (List.getElem?_eq_getElem hi)).index_toNat
    simpa [value, Architecture.firstIndex] using hindex
  · obtain ⟨i, u, hu, rfl⟩ := hrecord r hr
    exact hu.bodyLines
  · obtain ⟨i, u, hu, rfl⟩ := hrecord r hr
    exact hu.lists.five

/-- The fields that a selector announces are those of three cases. -/
theorem ModelLeaf.cipheredFields_eq_some {selector : UInt32} {indices : List Nat}
    (h : cipheredFields selector = some indices) :
    (selector = 1 ∧ indices = [1]) ∨ (selector = 2 ∧ indices = [1, 5]) ∨
      (selector = 3 ∧ indices = [1, 5, 9]) := by
  unfold cipheredFields at h
  split_ifs at h with hone htwo hthree
  · exact .inl ⟨hone, (Option.some.inj h).symm⟩
  · exact .inr (.inl ⟨htwo, (Option.some.inj h).symm⟩)
  · exact .inr (.inr ⟨hthree, (Option.some.inj h).symm⟩)

/-- **A leaf that is shown** has the fields in its body that its selector announces. -/
theorem ModelLeaf.covers_of_shows {s final : Reading} {row : List Call} (hs : s.Shows row final)
    {l : ModelLeaf} (h : l.WellFormed) (hl : ∀ call ∈ l.calls, call ∈ row) : l.Covers := by
  obtain ⟨indices, hindices⟩ := Option.isSome_iff_exists.1 h
  obtain ⟨selector, hselector, hciphered⟩ := Option.bind_eq_some_iff.1 hindices
  have hbody : .line (.only indices) l.body ∈ row := hl _ (by simp [calls, hindices])
  have hlt : ∀ i ∈ indices, i < l.body.length := hs.lt_length hbody
  rcases cipheredFields_eq_some hciphered with ⟨rfl, rfl⟩ | ⟨rfl, rfl⟩ | ⟨rfl, rfl⟩
  · exact .inl ⟨hselector, hlt 1 (by simp)⟩
  · exact .inr (.inl ⟨hselector, hlt 5 (by simp)⟩)
  · exact .inr (.inr ⟨hselector, hlt 9 (by simp)⟩)

/-! ### The whole database -/

namespace FileText

/-- The calls of a leaf stand among the calls of the file. -/
theorem mem_calls_of_leaf {t : FileText} {m : Model} (hm : m ∈ t.models.items)
    {group : List ModelLeaf} (hgroup : group ∈ m.groups) {leaf : ModelLeaf} (hleaf : leaf ∈ group)
    {call : Call} (hcall : call ∈ leaf.calls) : call ∈ t.calls := by
  have hmodel : call ∈ m.calls :=
    List.mem_cons_of_mem _ (List.mem_flatMap.2 ⟨group, hgroup, List.mem_flatMap.2
      ⟨leaf, hleaf, hcall⟩⟩)
  have hmodels : call ∈ t.models.calls Model.calls :=
    List.mem_cons_of_mem _ (List.mem_flatMap.2 ⟨m, hm, hmodel⟩)
  simp only [calls, bodyCalls, List.mem_append, hmodels, true_or, or_true]

/-- Every wire region of the database is well formed. -/
theorem WellFormed.wireRegions {t : FileText} (h : t.WellFormed) {grid : TileGrid} :
    ∀ region ∈ (t.value grid).wireRegions, region.WellFormed := by
  intro region hregion
  simp only [Database.wireRegions, Routing.regions, value, List.mem_append, List.mem_map] at hregion
  obtain (((hleading | hfixed) | ⟨indexed, hindexed, rfl⟩) | htrailing) | hlegacy := hregion
  · exact h.routing.leading region hleading
  · exact h.routing.fixed region hfixed
  · obtain ⟨i, hi⟩ := List.mem_iff_getElem?.1 hindexed
    exact (h.routing.indexed i indexed hi).region
  · exact h.routing.trailing region htrailing
  · obtain ⟨legacy, hmem, hregion⟩ := List.mem_flatMap.1 hlegacy
    obtain ⟨r, hr, rfl⟩ := Option.map_eq_some_iff.1 (Option.mem_toList.1 hmem)
    exact (h.legacyRouting r hr).regions.items region hregion

theorem variant_eq_legacy_iff {t : FileText} : t.variant = .legacy ↔ t.header.key = "ph1_100" := by
  rw [variant, Variant.ofKey, legacyKey]
  split
  · next hkey => exact iff_of_true rfl hkey
  · next hkey => exact iff_of_false nofun hkey

end FileText

/-- **Every decoded database** has the structure of the form. -/
theorem Database.wellStructured_of_decode {bytes : List UInt8} {dump : Option Dump} {db : Database}
    {s : Reading} (h : decode bytes dump = .ok db s) : db.WellStructured := by
  obtain ⟨row, final, hwalk, hshows, -⟩ := Reading.exists_walk_of_run attentive_script h
  obtain ⟨t, ⟨ht, grid, hgrid, rfl⟩, rfl⟩ := (FileText.accepts row [] db).1 hwalk
  rw [List.append_nil] at hshows
  have hgrid' := ht.complete.gives ht.tiles hgrid
  have hheader : grid.header = t.tiles.header :=
    ((TileGrid.holds_create _ _ _).foldlM hgrid).header_eq
  exact
    { variant_iff := FileText.variant_eq_legacy_iff
      legacyRouting_iff := by
        rw [FileText.value, Option.isSome_map, ht.legacy_agrees, decide_eq_true_iff]
      leading := ht.routing.leadingCount
      fixed := ht.routing.fixedCount
      indexed := ht.routing.indexedCount
      trailing := by
        rw [FileText.value, ht.routing.trailingCount]
        cases t.variant <;> rfl
      index := fun i region hregion => (ht.routing.indexed i region hregion).index.symm
      zeros := fun region hregion => (ht.wireRegions region hregion).zeros
      entries := fun region hregion => (ht.wireRegions region hregion).entryCount
      architectures := fun a ha => by
        obtain ⟨u, hu, rfl⟩ := List.mem_map.1 ha
        exact (ht.architectures u hu).wellStructured
      groups := fun m hm => (ht.models.items m hm).groupCount
      leaves := fun m hm => (ht.models.items m hm).leafCount
      covers := fun m hm group hgroup leaf hleaf =>
        ModelLeaf.covers_of_shows hshows ((ht.models.items m hm).leaves group hgroup leaf hleaf)
          fun _ => FileText.mem_calls_of_leaf hm hgroup hleaf
      pack := ht.pack.entryCount
      timingPairs := ht.timing.pairCount
      timingTwo := ht.timing.twoLineCount
      timingThree := ht.timing.threeLineCount
      timingNests := ht.timing.nestCount
      twoLines := ht.timing.twoLine
      threeLines := ht.timing.threeLine
      nestItems := fun n hn => (ht.timing.nests n hn).itemCount
      nestBody := fun n hn => (ht.timing.nests n hn).bodyLines
      tiles := hheader ▸ hgrid'.size
      belTypes := hheader ▸ ht.trailer.belTypeCount
      trailer := ⟨t.trailer.skipped, t.trailer.footer, t.trailer.last, by
        simp [FileText.value, TrailerText.value], ht.trailer.skipped, ht.trailer.footer⟩ }

theorem Database.wellStructured_of_decode_smallFile :
    ∃ trace w grid s, perform FileText.smallFile.calls {} = .ok trace w ∧
      decode (Text.utf8 w.text) none = .ok (FileText.smallFile.value grid) s ∧
      (FileText.smallFile.value grid).WellStructured := by
  obtain ⟨trace, w, grid, s, hperform, hdecode⟩ := FileText.exists_decode_smallFile none nofun
  exact ⟨trace, w, grid, s, hperform, hdecode, wellStructured_of_decode hdecode⟩

end ChipAtlas
