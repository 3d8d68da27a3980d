/-!
# Maps in order of first insertion

A finite map that remembers the order in which its keys first appeared. Inserting a key again
replaces the value and leaves the key at its first position.

* `OrderedMap.insert`, with `keys_insert`: a known key keeps its place, a new one goes to the end;
* `OrderedMap.get?`, with `get?_insert`: the last value inserted under a key is found.
-/

namespace ChipAtlas

/-- A finite map whose entries stand in the order in which their keys were first inserted. -/
structure OrderedMap (κ ν : Type) where
  entries : List (κ × ν)
  nodup : (entries.map Prod.fst).Nodup
  deriving DecidableEq, Repr

namespace OrderedMap

variable {κ ν : Type}

/-- The map without entries. -/
def empty : OrderedMap κ ν := ⟨[], List.nodup_nil⟩

instance : EmptyCollection (OrderedMap κ ν) := ⟨empty⟩
instance : Inhabited (OrderedMap κ ν) := ⟨empty⟩

/-- The keys, in order. -/
def keys (m : OrderedMap κ ν) : List κ := m.entries.map Prod.fst

/-- The number of entries. -/
def size (m : OrderedMap κ ν) : Nat := m.entries.length

/-- Leaving entries out keeps the keys distinct. -/
theorem entries_nodup_filter (p : κ × ν → Bool) {entries : List (κ × ν)}
    (h : (entries.map Prod.fst).Nodup) : ((entries.filter p).map Prod.fst).Nodup :=
  h.sublist (List.Sublist.map _ List.filter_sublist)

variable [DecidableEq κ]

/-- Replaces the value of the first entry with the key, or puts a new entry at the end. -/
def upsert (key : κ) (value : ν) : List (κ × ν) → List (κ × ν)
  | [] => [(key, value)]
  | (k, v) :: rest => if k = key then (k, value) :: rest else (k, v) :: upsert key value rest

theorem map_fst_upsert (key : κ) (value : ν) (entries : List (κ × ν)) :
    (upsert key value entries).map Prod.fst =
      if key ∈ entries.map Prod.fst then entries.map Prod.fst
      else entries.map Prod.fst ++ [key] := by
  induction entries with
  | nil => rfl
  | cons e rest ih =>
    obtain ⟨k, v⟩ := e
    by_cases h : k = key
    · simp [upsert, h]
    · simp only [upsert, h, if_false, List.map_cons, ih, List.mem_cons, Ne.symm h, false_or]
      split <;> rfl

/-- The value of a key. -/
def get? (m : OrderedMap κ ν) (key : κ) : Option ν :=
  (m.entries.find? (·.1 = key)).map Prod.snd

/-- Whether a key has a value. -/
def contains (m : OrderedMap κ ν) (key : κ) : Bool := (m.get? key).isSome

/-- Gives a key a value. -/
def insert (m : OrderedMap κ ν) (key : κ) (value : ν) : OrderedMap κ ν where
  entries := upsert key value m.entries
  nodup := by
    rw [map_fst_upsert]
    split
    · exact m.nodup
    · exact List.nodup_append.2 ⟨m.nodup, by simp, by grind⟩

/-- Inserts entries one after the other. -/
def ofList (entries : List (κ × ν)) : OrderedMap κ ν :=
  entries.foldl (fun m e => m.insert e.1 e.2) ∅

/-- Gives a key the value that a function makes of the one it has. -/
def alter (m : OrderedMap κ ν) (key : κ) (f : Option ν → ν) : OrderedMap κ ν :=
  m.insert key (f (m.get? key))

/-- Takes a key out. -/
def erase (m : OrderedMap κ ν) (key : κ) : OrderedMap κ ν where
  entries := m.entries.filter (·.1 ≠ key)
  nodup := entries_nodup_filter _ m.nodup

/-! ### Keys and look-ups after an insertion -/

theorem keys_insert (m : OrderedMap κ ν) (key : κ) (value : ν) :
    (m.insert key value).keys = if key ∈ m.keys then m.keys else m.keys ++ [key] :=
  map_fst_upsert key value m.entries

@[simp] theorem get?_empty (key : κ) : (∅ : OrderedMap κ ν).get? key = none := rfl

theorem get?_insert (m : OrderedMap κ ν) (key other : κ) (value : ν) :
    (m.insert key value).get? other = if key = other then some value else m.get? other := by
  simp only [get?, insert]
  induction m.entries with
  | nil => by_cases h : key = other <;> simp [upsert, h]
  | cons e rest ih =>
    obtain ⟨k, v⟩ := e
    by_cases hk : k = key
    · subst hk
      by_cases h : k = other <;> simp [upsert, h]
    · by_cases h : k = other
      · subst h
        simp [upsert, hk, Ne.symm hk]
      · simpa [upsert, hk, h] using ih

end OrderedMap

end ChipAtlas
