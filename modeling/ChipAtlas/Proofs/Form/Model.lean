import ChipAtlas.Format.Model
import ChipAtlas.Proofs.Form.Counted

/-!
# The form of the model section

A model keeps every line that is written; the section loses the line that counts the models. How the
body of a leaf is ciphered is read off its head.
-/

namespace ChipAtlas

open Script

namespace ModelLeaf

/-- The ciphered fields of the body that a head announces. -/
def selected? (head : Record) : Option (List Nat) :=
  (numberAt Text.uint32? head 2).bind cipheredFields

/-- A leaf as it is written. -/
def calls (l : ModelLeaf) : List Call :=
  [.line (.only [0]) l.head, .line (.only ((selected? l.head).getD [])) l.body]

/-- The head carries a selector. -/
def WellFormed (l : ModelLeaf) : Prop := (selected? l.head).isSome

instance (l : ModelLeaf) : Decidable l.WellFormed := inferInstanceAs (Decidable (_ = _))

theorem script_copies : script.Copies calls WellFormed := by
  intro row rest l
  simp only [script, walk_bind_eq_ok, walk_fields, walk_number]
  refine ⟨?_, ?_⟩
  · rintro ⟨head, _, rfl, selector, _, ⟨hselector, rfl⟩, h⟩
    split at h
    · exact absurd h walk_refuse
    · next indices hindices =>
      simp only [walk_bind_eq_ok, walk_fields, walk_pure] at h
      obtain ⟨body, _, rfl, rfl, rfl⟩ := h
      -- the selector is read before the body, so the text of the leaf knows it too
      have hselected : selected? head = some indices := by rw [selected?, hselector]; exact hindices
      exact ⟨by rw [WellFormed, hselected]; rfl, by rw [calls, hselected]; rfl⟩
  · rintro ⟨hselected, rfl⟩
    obtain ⟨indices, hindices⟩ := Option.isSome_iff_exists.1 hselected
    -- the selector of the head tells how the body is ciphered
    obtain ⟨selector, hselector, hciphered⟩ := Option.bind_eq_some_iff.1 hindices
    refine ⟨l.head, _, rfl, selector, _, ⟨hselector, rfl⟩, ?_⟩
    rw [hciphered]
    simp only [walk_bind_eq_ok, walk_fields, walk_pure]
    exact ⟨l.body, rest, by rw [hindices]; rfl, rfl, rfl⟩

end ModelLeaf

namespace Model

/-- A model as it is written. -/
def calls (m : Model) : List Call :=
  .line (.only []) m.header :: m.groups.flatMap (·.flatMap ModelLeaf.calls)

/-- The header counts the groups and then the leaves of each. -/
@[mk_iff]
structure WellFormed (m : Model) : Prop where
  groupCount : numberAt Text.count? m.header 0 = some m.groups.length
  leafCount : ∀ g (leaves : List ModelLeaf), m.groups[g]? = some leaves →
    numberAt Text.count? m.header (g + 1) = some leaves.length
  leaves : ∀ leaves ∈ m.groups, ∀ leaf ∈ leaves, leaf.WellFormed

instance (m : Model) : Decidable m.WellFormed := decidable_of_iff' _ (wellFormed_iff ..)

theorem script_copies : script.Copies calls WellFormed := by
  -- one group, sized by the count in its place
  have hgroup : ∀ header g, Script.Copies
      (do
        let leaves ← Script.count header (g + 1)
        Script.times leaves ModelLeaf.script)
      (·.flatMap ModelLeaf.calls) fun leaves =>
        numberAt Text.count? header (g + 1) = some leaves.length ∧
          ∀ leaf ∈ leaves, leaf.WellFormed := by
    intro header g row rest leaves
    simp only [walk_bind_eq_ok, walk_count, ModelLeaf.script_copies.times _ _ _]
    refine ⟨?_, ?_⟩
    · rintro ⟨_, _, ⟨hn, rfl⟩, ⟨rfl, hleaves⟩, rfl⟩
      exact ⟨⟨hn, hleaves⟩, rfl⟩
    · rintro ⟨⟨hn, hleaves⟩, rfl⟩
      exact ⟨_, _, ⟨hn, rfl⟩, ⟨rfl, hleaves⟩, rfl⟩
  intro row rest m
  simp only [script, walk_bind_eq_ok, walk_fields, walk_count, walk_pure,
    Copies.forEach (hgroup _) _ _ _]
  refine ⟨?_, ?_⟩
  · rintro ⟨header, _, rfl, n, _, ⟨hn, rfl⟩, groups, _, ⟨⟨rfl, hgroups⟩, rfl⟩, rfl, rfl⟩
    refine ⟨⟨hn, fun g leaves hg => (hgroups g leaves hg).1, fun leaves hmem => ?_⟩, rfl⟩
    -- a group stands in some place, and there it has been read
    obtain ⟨g, hg⟩ := List.mem_iff_getElem?.1 hmem
    exact (hgroups g leaves hg).2
  · rintro ⟨h, rfl⟩
    exact ⟨m.header, _, rfl, _, _, ⟨h.groupCount, rfl⟩, m.groups, rest,
      ⟨⟨rfl, fun g leaves hg =>
        ⟨h.leafCount g leaves hg, h.leaves leaves (List.mem_of_getElem? hg)⟩⟩, rfl⟩, rfl, rfl⟩

theorem allScript_accepts :
    allScript.Accepts (Counted.calls calls) fun (t : Counted Model) ms =>
      t.items = ms ∧ t.WellFormed WellFormed := by
  -- to number the model takes no call
  have hrounds : ∀ n, (Script.forEach n fun i => do
      .setRecord i (.done ())
      script).Copies (·.flatMap calls) fun ms => ms.length = n ∧ ∀ m ∈ ms, m.WellFormed :=
    fun _ => Copies.rounds fun _ => script_copies
  intro row rest ms
  simp only [allScript, walk_bind_eq_ok, walk_enter_bind, walk_note_bind, walk_pure, walk_fields,
    walk_count, hrounds _ _ _ _]
  refine ⟨?_, ?_⟩
  · rintro ⟨countLine, _, rfl, _, _, ⟨hn, rfl⟩, models, _, ⟨⟨rfl, hmodels⟩, rfl⟩, rfl, rfl⟩
    exact ⟨⟨countLine, models⟩, ⟨rfl, hn, hmodels⟩, rfl⟩
  · rintro ⟨⟨countLine, models⟩, ⟨rfl, hn, hmodels⟩, rfl⟩
    exact ⟨countLine, _, rfl, _, _, ⟨hn, rfl⟩, models, rest, ⟨⟨rfl, hmodels⟩, rfl⟩, rfl, rfl⟩

end Model

end ChipAtlas
