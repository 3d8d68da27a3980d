import ChipAtlas.Data.OrderedMap
import ChipAtlas.Data.SortedMap
import Mathlib.Data.List.Induction

/-!
# Maps from lists of entries

Both kinds of map are built by inserting entries one after the other. Inserting the entries of a map
in its own order builds the map again: each key is new, and belongs behind the ones before it.
Inserting any entries adds none to them.

* `OrderedMap.ofList_entries`, `SortedMap.ofList_entries` — a map from its own entries;
* `OrderedMap.mem_of_mem_ofList`, `SortedMap.mem_of_mem_ofList` — what is in a map was inserted;
* `OrderedMap.get?_erase` — a key is taken out.
-/

namespace ChipAtlas

/-! ### In order of first insertion -/

namespace OrderedMap

variable {κ ν : Type} [DecidableEq κ]

theorem entries_insert (m : OrderedMap κ ν) (key : κ) (value : ν) :
    (m.insert key value).entries = upsert key value m.entries := rfl

/-- A new key goes to the end. -/
theorem upsert_of_notMem {key : κ} {value : ν} {entries : List (κ × ν)}
    (h : key ∉ entries.map Prod.fst) : upsert key value entries = entries ++ [(key, value)] := by
  induction entries with
  | nil => rfl
  | cons e entries ih =>
    rw [List.map_cons, List.mem_cons, not_or] at h
    rw [upsert, if_neg (Ne.symm h.1), ih h.2, List.cons_append]

theorem mem_upsert {key : κ} {value : ν} {entries : List (κ × ν)} {e : κ × ν}
    (h : e ∈ upsert key value entries) : e = (key, value) ∨ e ∈ entries := by
  induction entries with
  | nil => exact .inl (List.mem_singleton.1 h)
  | cons first entries ih =>
    rw [upsert] at h
    split at h
    next heq =>
      subst heq
      exact (List.mem_cons.1 h).imp_right (List.mem_cons_of_mem first)
    next =>
      rcases List.mem_cons.1 h with rfl | hmem
      · exact .inr List.mem_cons_self
      · exact (ih hmem).imp_right (List.mem_cons_of_mem first)

theorem length_upsert_le (key : κ) (value : ν) (entries : List (κ × ν)) :
    (upsert key value entries).length ≤ entries.length + 1 := by
  induction entries with
  | nil => exact Nat.le.refl
  | cons first entries ih =>
    rw [upsert]
    split
    · exact Nat.le_succ _
    · exact Nat.succ_le_succ ih

theorem ofList_append_singleton (entries : List (κ × ν)) (e : κ × ν) :
    ofList (entries ++ [e]) = (ofList entries).insert e.1 e.2 := by
  rw [ofList, List.foldl_append]
  rfl

theorem entries_ofList {entries : List (κ × ν)} (h : (entries.map Prod.fst).Nodup) :
    (ofList entries).entries = entries := by
  induction entries using List.reverseRecOn with
  | nil => rfl
  | append_singleton entries e ih =>
    rw [List.map_append, List.map_singleton, List.nodup_append] at h
    obtain ⟨hnodup, -, hdisjoint⟩ := h
    have hnew : e.1 ∉ entries.map Prod.fst :=
      fun hmem => hdisjoint e.1 hmem e.1 (List.mem_singleton_self _) rfl
    rw [ofList_append_singleton, entries_insert, ih hnodup, upsert_of_notMem hnew]

/-- **A map is what its own entries build**, in their order. -/
theorem ofList_entries (m : OrderedMap κ ν) : ofList m.entries = m := by
  have h := entries_ofList m.nodup
  obtain ⟨entries, hnodup⟩ := m
  cases hm : ofList entries with
  | mk built _ =>
    rw [hm] at h
    subst h
    rfl

theorem mem_of_mem_ofList {entries : List (κ × ν)} {e : κ × ν}
    (h : e ∈ (ofList entries).entries) : e ∈ entries := by
  induction entries using List.reverseRecOn with
  | nil => exact nomatch h
  | append_singleton entries last ih =>
    rw [ofList_append_singleton] at h
    rcases mem_upsert h with rfl | hmem
    · exact List.mem_append_right entries (List.mem_singleton_self _)
    · exact List.mem_append_left _ (ih hmem)

theorem length_ofList_le (entries : List (κ × ν)) :
    (ofList entries).entries.length ≤ entries.length := by
  induction entries using List.reverseRecOn with
  | nil => exact Nat.le.refl
  | append_singleton entries e ih =>
    rw [ofList_append_singleton, List.length_append, List.length_singleton]
    exact Nat.le_trans (length_upsert_le e.1 e.2 _) (Nat.succ_le_succ ih)

/-- A key that is taken out is not found, and every other one is. -/
theorem get?_erase (m : OrderedMap κ ν) (key other : κ) :
    (m.erase key).get? other = if key = other then none else m.get? other := by
  simp only [get?, erase, List.find?_filter]
  by_cases h : key = other
  · subst h
    rw [if_pos rfl, Option.map_eq_none_iff, List.find?_eq_none]
    simp
  · rw [if_neg h]
    refine congrArg _ (congrArg (List.find? · m.entries) (funext fun e => ?_))
    by_cases he : e.1 = other
    · simp [he, Ne.symm h]
    · simp [he]

end OrderedMap

/-! ### In the order of names -/

namespace SortedMap

variable {ν : Type}

theorem entries_insert (m : SortedMap ν) (name : String) (value : ν) :
    (m.insert name value).entries = place name value m.entries := rfl

/-- A name above all others goes to the end. -/
theorem place_of_above {name : String} {value : ν} {entries : List (String × ν)}
    (h : ∀ e ∈ entries, e.1 < name) : place name value entries = entries ++ [(name, value)] := by
  induction entries with
  | nil => rfl
  | cons e entries ih =>
    obtain ⟨hfirst, hrest⟩ := List.forall_mem_cons.1 h
    have hnot : ¬name < e.1 := fun hlt => String.lt_irrefl name (String.lt_trans hlt hfirst)
    rw [place, if_neg hnot, if_pos hfirst, ih hrest, List.cons_append]

theorem length_place_le (name : String) (value : ν) (entries : List (String × ν)) :
    (place name value entries).length ≤ entries.length + 1 := by
  induction entries with
  | nil => exact Nat.le.refl
  | cons first entries ih =>
    rw [place]
    split
    · exact Nat.le.refl
    · split
      · exact Nat.succ_le_succ ih
      · exact Nat.le_succ _

theorem ofList_append_singleton (entries : List (String × ν)) (e : String × ν) :
    ofList (entries ++ [e]) = (ofList entries).insert e.1 e.2 := by
  rw [ofList, List.foldl_append]
  rfl

theorem entries_ofList {entries : List (String × ν)}
    (h : entries.Pairwise fun a b => a.1 < b.1) : (ofList entries).entries = entries := by
  induction entries using List.reverseRecOn with
  | nil => rfl
  | append_singleton entries e ih =>
    obtain ⟨hsorted, -, hbelow⟩ := List.pairwise_append.1 h
    have habove : ∀ d ∈ entries, d.1 < e.1 :=
      fun d hd => hbelow d hd e (List.mem_singleton_self e)
    rw [ofList_append_singleton, entries_insert, ih hsorted, place_of_above habove]

/-- **A map is what its own entries build.** -/
theorem ofList_entries (m : SortedMap ν) : ofList m.entries = m := by
  have h := entries_ofList m.sorted
  obtain ⟨entries, hsorted⟩ := m
  cases hm : ofList entries with
  | mk built _ =>
    rw [hm] at h
    subst h
    rfl

theorem mem_of_mem_ofList {entries : List (String × ν)} {e : String × ν}
    (h : e ∈ (ofList entries).entries) : e ∈ entries := by
  induction entries using List.reverseRecOn with
  | nil => exact nomatch h
  | append_singleton entries last ih =>
    rw [ofList_append_singleton] at h
    rcases mem_place h with rfl | hmem
    · exact List.mem_append_right entries (List.mem_singleton_self _)
    · exact List.mem_append_left _ (ih hmem)

theorem length_ofList_le (entries : List (String × ν)) :
    (ofList entries).entries.length ≤ entries.length := by
  induction entries using List.reverseRecOn with
  | nil => exact Nat.le.refl
  | append_singleton entries e ih =>
    rw [ofList_append_singleton, List.length_append, List.length_singleton]
    exact Nat.le_trans (length_place_le e.1 e.2 _) (Nat.succ_le_succ ih)

end SortedMap

end ChipAtlas
