import ChipAtlas.Bits.Catalog
import ChipAtlas.Proofs.Data.Maps

/-!
# Blocks joined under their names

A file gives the catalogs in blocks. Joining them one after the other comes to grouping them by
name: the names in the order in which they first appear, and under each the header lines and the
bits of its blocks in file order.

* `OrderedMap.ext_get?` — a map is known by its keys, in order, and its look-ups;
* `OrderedMap.keys_ofList`, `OrderedMap.get?_ofList` — a map of inserted entries: the first place
  and the last value of each key;
* `Catalogs.ofBlocks` — blocks grouped by name, and `Catalogs.foldl_addBlock` — that joining them
  one after the other comes to the same.
-/

namespace ChipAtlas

/-! ### Maps as rows of keys -/

namespace OrderedMap

variable {κ ν : Type} [DecidableEq κ]

/-- Every entry is found under its key, since no key stands twice. -/
theorem get?_of_mem {m : OrderedMap κ ν} {e : κ × ν} (h : e ∈ m.entries) :
    m.get? e.1 = some e.2 := by
  obtain ⟨entries, hnodup⟩ := m
  simp only [get?] at h ⊢
  induction entries with
  | nil => exact absurd h List.not_mem_nil
  | cons first entries ih =>
    rw [List.map_cons, List.nodup_cons] at hnodup
    rcases List.mem_cons.1 h with rfl | hmem
    · simp
    · -- the entry stands further behind, so the first one has another key
      have hne : first.1 ≠ e.1 := fun heq => hnodup.1 (heq ▸ List.mem_map_of_mem hmem)
      rw [List.find?_cons_of_neg (by simpa using hne)]
      exact ih hnodup.2 hmem

theorem mem_entries_iff {m : OrderedMap κ ν} {key : κ} {value : ν} :
    (key, value) ∈ m.entries ↔ m.get? key = some value := by
  refine ⟨get?_of_mem, fun h => ?_⟩
  obtain ⟨e, hfind, rfl⟩ := Option.map_eq_some_iff.1 h
  obtain rfl : e.1 = key := by simpa using List.find?_some hfind
  exact List.mem_of_find?_eq_some hfind

/-- No key stands twice, so the entries with a key are the first one, if there is one. -/
theorem filter_entries (m : OrderedMap κ ν) (key : κ) :
    m.entries.filter (·.1 = key) = (m.entries.find? (·.1 = key)).toList := by
  obtain ⟨entries, hnodup⟩ := m
  dsimp only
  induction entries with
  | nil => rfl
  | cons e entries ih =>
    rw [List.map_cons, List.nodup_cons] at hnodup
    by_cases hkey : e.1 = key
    · have hnone : entries.filter (·.1 = key) = [] := by
        refine List.filter_eq_nil_iff.2 fun other hother heq => hnodup.1 ?_
        exact hkey.trans (of_decide_eq_true heq).symm ▸ List.mem_map_of_mem hother
      rw [List.filter_cons_of_pos (by simpa using hkey), hnone,
        List.find?_cons_of_pos (by simpa using hkey), Option.toList_some]
    · rw [List.filter_cons_of_neg (by simpa using hkey),
        List.find?_cons_of_neg (by simpa using hkey), ih hnodup.2]

/-- **Maps are known by their keys and look-ups.** -/
theorem ext_get? {m m' : OrderedMap κ ν} (hkeys : m.keys = m'.keys)
    (hget : ∀ key, m.get? key = m'.get? key) : m = m' := by
  -- the entries can be told from the keys and the look-ups
  have hentries : ∀ m : OrderedMap κ ν,
      m.entries.map (fun e => (e.1, some e.2)) = m.keys.map fun key => (key, m.get? key) := by
    intro m
    rw [keys, List.map_map]
    exact List.map_congr_left fun e he => by rw [Function.comp, get?_of_mem he]
  have heq : m.entries.map (fun e => (e.1, some e.2)) =
      m'.entries.map fun e => (e.1, some e.2) := by
    rw [hentries, hentries, hkeys]
    exact List.map_congr_left fun key _ => by rw [hget]
  have : m.entries = m'.entries := (List.map_inj_right fun e e' h => by
    obtain ⟨h₁, h₂⟩ := Prod.mk.inj h
    exact Prod.ext h₁ (Option.some.inj h₂)).1 heq
  obtain ⟨entries, _⟩ := m
  obtain ⟨entries', _⟩ := m'
  obtain rfl : entries = entries' := this
  rfl

theorem nodup_eraseDups (row : List κ) : row.eraseDups.Nodup := by
  match row with
  | [] => simp
  | key :: row =>
    rw [List.eraseDups_cons, List.nodup_cons]
    refine ⟨fun hmem => ?_, nodup_eraseDups _⟩
    have := (List.mem_filter.1 (List.mem_eraseDups.1 hmem)).2
    simp at this
termination_by row.length
decreasing_by
  have := List.length_filter_le (fun other => !other == key) row
  simp only [List.length_cons]
  omega

/-- A key at the end of a row counts if it is not known yet. -/
theorem eraseDups_append_singleton (row : List κ) (key : κ) :
    (row ++ [key]).eraseDups = if key ∈ row then row.eraseDups else row.eraseDups ++ [key] := by
  rw [List.eraseDups_append]
  -- a key that is known is dropped; a new one goes to the end
  by_cases h : key ∈ row
  · rw [if_pos h, List.removeAll, List.filter_cons_of_neg (by simpa using h)]
    simp
  · rw [if_neg h, List.removeAll, List.filter_cons_of_pos (by simpa using h)]
    simp [List.eraseDups_cons]

/-- The map that has the keys of a row, each at its first place, with the values of a function. -/
def ofKeys (row : List κ) (value : κ → ν) : OrderedMap κ ν where
  entries := row.eraseDups.map fun key => (key, value key)
  nodup := by
    rw [List.map_map, show Prod.fst ∘ (fun key => (key, value key)) = id from rfl, List.map_id]
    exact nodup_eraseDups row

theorem keys_ofKeys (row : List κ) (value : κ → ν) : (ofKeys row value).keys = row.eraseDups := by
  simp [keys, ofKeys, Function.comp_def]

theorem get?_ofKeys (row : List κ) (value : κ → ν) (key : κ) :
    (ofKeys row value).get? key = if key ∈ row then some (value key) else none := by
  rw [get?, ofKeys, List.find?_map]
  split
  · next hmem =>
    cases hfind : row.eraseDups.find? ((fun e : κ × ν => decide (e.1 = key)) ∘
        fun key => (key, value key)) with
    | none =>
      have := List.find?_eq_none.1 hfind key (List.mem_eraseDups.2 hmem)
      simp at this
    | some found =>
      have hfound : found = key := by simpa using List.find?_some hfind
      rw [hfound]
      rfl
  · next hmem =>
    rw [List.find?_eq_none.2]
    · rfl
    · intro other hother
      have : other ≠ key := fun heq => hmem (heq ▸ List.mem_eraseDups.1 hother)
      simpa using this

/-- Inserted entries have the keys in the order in which they first appear. -/
theorem keys_ofList (entries : List (κ × ν)) :
    (ofList entries).keys = (entries.map Prod.fst).eraseDups := by
  induction entries using List.reverseRecOn with
  | nil => rfl
  | append_singleton entries e ih =>
    rw [ofList_append_singleton, keys_insert, ih, List.map_append, List.map_singleton,
      eraseDups_append_singleton]
    simp only [List.mem_eraseDups]

/-- Of the entries that are inserted under a key the last one is found. -/
theorem get?_ofList (entries : List (κ × ν)) (key : κ) :
    (ofList entries).get? key = (entries.filter (·.1 = key)).getLast?.map Prod.snd := by
  induction entries using List.reverseRecOn with
  | nil => rfl
  | append_singleton entries e ih =>
    rw [ofList_append_singleton, get?_insert, ih, List.filter_append]
    by_cases hkey : e.1 = key
    · simp [hkey]
    · simp [hkey]

end OrderedMap

/-! ### Blocks -/

/-- A block of a catalog: its name, its header line and its bits. -/
structure CatalogBlock where
  kind : String
  header : Record
  bits : List ConfigBit
  deriving DecidableEq, Repr

namespace Catalogs

/-- The catalog that the blocks of a name come to: their header lines and their bits, in order. -/
def grouped (blocks : List CatalogBlock) (kind : String) : Catalog where
  headers := (blocks.filter (·.kind = kind)).map (·.header)
  bits := (blocks.filter (·.kind = kind)).flatMap (·.bits)

/-- The blocks grouped by name, the names in the order in which they first appear. -/
def ofBlocks (blocks : List CatalogBlock) : Catalogs :=
  .ofKeys (blocks.map (·.kind)) (grouped blocks)

theorem grouped_append (blocks : List CatalogBlock) (b : CatalogBlock) (kind : String) :
    grouped (blocks ++ [b]) kind =
      if b.kind = kind then (grouped blocks kind).append [b.header] b.bits
      else grouped blocks kind := by
  split
  · next h => simp [grouped, Catalog.append, h]
  · next h => simp [grouped, h]

/-- A name that no block has stands for the catalog without lines and bits. -/
theorem grouped_of_not_mem {blocks : List CatalogBlock} {kind : String}
    (h : kind ∉ blocks.map (·.kind)) : grouped blocks kind = {} := by
  have hnil : blocks.filter (·.kind = kind) = [] := by
    refine List.filter_eq_nil_iff.2 fun b hb hkind => h ?_
    exact of_decide_eq_true hkind ▸ List.mem_map_of_mem hb
  rw [grouped, hnil]
  rfl

theorem addBlock_ofBlocks (blocks : List CatalogBlock) (b : CatalogBlock) :
    (ofBlocks blocks).addBlock b.kind [b.header] b.bits = ofBlocks (blocks ++ [b]) := by
  refine OrderedMap.ext_get? ?_ fun kind => ?_
  · rw [addBlock, OrderedMap.alter, OrderedMap.keys_insert, ofBlocks, ofBlocks,
      OrderedMap.keys_ofKeys, OrderedMap.keys_ofKeys, List.map_append, List.map_singleton,
      OrderedMap.eraseDups_append_singleton]
    simp only [List.mem_eraseDups]
  · rw [addBlock, OrderedMap.alter, OrderedMap.get?_insert]
    simp only [ofBlocks, OrderedMap.get?_ofKeys, grouped_append, List.map_append,
      List.map_singleton, List.mem_append, List.mem_singleton]
    by_cases hkind : b.kind = kind
    · subst hkind
      -- the catalog is extended, or it begins with the block
      by_cases hmem : b.kind ∈ blocks.map (·.kind)
      · simp only [hmem, if_true, true_or, Option.getD_some]
      · simp only [hmem, if_true, if_false, false_or, Option.getD_none, grouped_of_not_mem hmem]
    · simp only [if_neg hkind, Ne.symm hkind, or_false]

/-- **Joining blocks groups them.** Joined one after the other, blocks come to the catalogs that
they are grouped into by name. -/
theorem foldl_addBlock (blocks : List CatalogBlock) :
    blocks.foldl (fun catalogs b => catalogs.addBlock b.kind [b.header] b.bits) ∅ =
      ofBlocks blocks := by
  suffices h : ∀ before : List CatalogBlock,
      blocks.foldl (fun catalogs b => catalogs.addBlock b.kind [b.header] b.bits)
        (ofBlocks before) = ofBlocks (before ++ blocks) by
    exact h []
  induction blocks with
  | nil => simp
  | cons b blocks ih =>
    intro before
    rw [List.foldl_cons, addBlock_ofBlocks, ih, List.append_assoc, List.singleton_append]

end Catalogs

end ChipAtlas
