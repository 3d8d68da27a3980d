import ChipAtlas.Proofs.Script.Walk

/-!
# Lists behind a count

Many lists of the form stand behind a line of their own that counts them. The count is not kept by
what is read.
-/

namespace ChipAtlas

open Script

/-- A list as it is written: the line that counts it, and its items. -/
structure Counted (α : Type) where
  countLine : Record
  items : List α
  deriving DecidableEq, Repr

namespace Counted

variable {α : Type}

/-- The line of the count, and the calls of each item. -/
def calls (item : α → List Call) (c : Counted α) : List Call :=
  .line (.only []) c.countLine :: c.items.flatMap item

/-- The count is the number of the items, each of which is well formed. -/
@[mk_iff]
structure WellFormed (P : α → Prop) (c : Counted α) : Prop where
  countLine : numberAt Text.count? c.countLine 0 = some c.items.length
  items : ∀ a ∈ c.items, P a

instance (P : α → Prop) [DecidablePred P] (c : Counted α) : Decidable (c.WellFormed P) :=
  decidable_of_iff' _ (wellFormed_iff ..)

/-- A list behind a count is read by a loop of as many rounds. -/
theorem accepts {loop : Nat → Script (List α)} {item : α → List Call} {P : α → Prop}
    (h : ∀ n, (loop n).Copies (·.flatMap item) fun as => as.length = n ∧ ∀ a ∈ as, P a) :
    Accepts (do loop (← Script.count (← fields []) 0)) (calls item)
      fun (c : Counted α) as => c.items = as ∧ c.WellFormed P := by
  intro row rest as
  simp only [walk_bind_eq_ok, walk_fields, walk_count, h _ _ _ _]
  refine ⟨?_, ?_⟩
  · rintro ⟨record, _, rfl, n, _, ⟨hn, rfl⟩, ⟨rfl, hitems⟩, rfl⟩
    exact ⟨⟨record, as⟩, ⟨rfl, hn, hitems⟩, rfl⟩
  · rintro ⟨⟨record, items⟩, ⟨rfl, hn, hitems⟩, rfl⟩
    exact ⟨record, _, rfl, items.length, _, ⟨hn, rfl⟩, ⟨rfl, hitems⟩, rfl⟩

/-- A list of lines behind a count. -/
theorem accepts_countedLines (indices : List Nat) :
    (countedLines indices).Accepts (calls fun record => [.line (.only indices) record])
      fun c records => c.items = records ∧ c.WellFormed fun _ => True :=
  accepts fun _ => (line_copies _).times

end Counted

end ChipAtlas
