/-!
# Maps in the order of their names

A finite map from names whose entries stand in the order of the names, code point by code point. The
order does not depend on how the map was built.
-/

namespace ChipAtlas

/-- A finite map from names, with its entries in increasing order of the names. -/
structure SortedMap (ν : Type) where
  entries : List (String × ν)
  sorted : entries.Pairwise fun a b => a.1 < b.1
  deriving DecidableEq, Repr

namespace SortedMap

variable {ν : Type}

/-- The map without entries. -/
def empty : SortedMap ν := ⟨[], List.Pairwise.nil⟩

instance : EmptyCollection (SortedMap ν) := ⟨empty⟩
instance : Inhabited (SortedMap ν) := ⟨empty⟩

/-- Puts an entry at its place in a sorted list, instead of an entry with the same name. -/
def place (name : String) (value : ν) : List (String × ν) → List (String × ν)
  | [] => [(name, value)]
  | (n, v) :: rest =>
    if name < n then (name, value) :: (n, v) :: rest
    else if n < name then (n, v) :: place name value rest
    else (name, value) :: rest

theorem mem_place {name : String} {value : ν} {entries : List (String × ν)} {e : String × ν}
    (h : e ∈ place name value entries) : e = (name, value) ∨ e ∈ entries := by
  induction entries with
  | nil => exact Or.inl (by simpa [place] using h)
  | cons d rest ih =>
    obtain ⟨n, v⟩ := d
    simp only [place] at h
    split at h
    · simpa using h
    · split at h <;> grind

theorem pairwise_place {name : String} {value : ν} {entries : List (String × ν)}
    (h : entries.Pairwise fun a b => a.1 < b.1) :
    (place name value entries).Pairwise fun a b => a.1 < b.1 := by
  induction entries with
  | nil => simp [place]
  | cons d rest ih =>
    obtain ⟨n, v⟩ := d
    have ⟨above, tail⟩ := List.pairwise_cons.1 h
    simp only [place]
    split
    next lt =>
      refine List.pairwise_cons.2 ⟨fun e he => ?_, h⟩
      rcases List.mem_cons.1 he with rfl | he
      · exact lt
      · exact String.lt_trans lt (above e he)
    next not_lt =>
      split
      next gt =>
        refine List.pairwise_cons.2 ⟨fun e he => ?_, ih tail⟩
        rcases mem_place he with rfl | he
        · exact gt
        · exact above e he
      next not_gt =>
        have eq : name = n := (Std.lt_trichotomy name n).resolve_left not_lt |>.resolve_right not_gt
        exact List.pairwise_cons.2 ⟨fun e he => eq ▸ above e he, tail⟩

/-- Gives a name a value. -/
def insert (m : SortedMap ν) (name : String) (value : ν) : SortedMap ν :=
  ⟨place name value m.entries, pairwise_place m.sorted⟩

/-- Inserts entries one after the other. -/
def ofList (entries : List (String × ν)) : SortedMap ν :=
  entries.foldl (fun m e => m.insert e.1 e.2) ∅

/-- The value of a name. -/
def get? (m : SortedMap ν) (name : String) : Option ν :=
  (m.entries.find? (·.1 = name)).map Prod.snd

@[simp] theorem get?_empty (name : String) : (∅ : SortedMap ν).get? name = none := rfl

theorem get?_insert (m : SortedMap ν) (name other : String) (value : ν) :
    (m.insert name value).get? other = if name = other then some value else m.get? other := by
  simp only [get?, insert]
  induction m.entries with
  | nil => by_cases h : name = other <;> simp [place, h]
  | cons d rest ih =>
    obtain ⟨n, v⟩ := d
    simp only [place]
    split
    · by_cases h : name = other <;> simp [h]
    next not_lt =>
      split
      next gt =>
        by_cases hn : n = other
        · subst hn
          have : name ≠ n := fun h => String.lt_irrefl n (h ▸ gt)
          simp [this]
        · simpa [hn] using ih
      next not_gt =>
        have eq : name = n := (Std.lt_trichotomy name n).resolve_left not_lt |>.resolve_right not_gt
        subst eq
        by_cases h : name = other <;> simp [h]

/-- An entry is what is found under its name, since no name stands twice. -/
theorem get?_eq_some_iff {m : SortedMap ν} {name : String} {value : ν} :
    m.get? name = some value ↔ (name, value) ∈ m.entries := by
  obtain ⟨entries, sorted⟩ := m
  simp only [get?]
  induction entries with
  | nil => simp
  | cons first entries ih =>
    obtain ⟨n, v⟩ := first
    obtain ⟨above, tail⟩ := List.pairwise_cons.1 sorted
    by_cases hfirst : n = name
    · subst hfirst
      -- the names behind the first one are above it
      have hbehind : (n, value) ∉ entries := fun hmem => String.lt_irrefl n (above _ hmem)
      simp [hbehind, eq_comm]
    · have hne : (name, value) ≠ (n, v) := fun h => hfirst (congrArg Prod.fst h).symm
      rw [List.find?_cons_of_neg (by simpa using hfirst), ih tail, List.mem_cons]
      exact ⟨Or.inr, fun h => h.resolve_left hne⟩

end SortedMap

end ChipAtlas
