import ChipAtlas.Format.Header
import ChipAtlas.Proofs.Script.Walk

/-!
# The form of the header

The header is plain up to the line of the key. The key is announced behind it, and the names of the
architectures are ciphered.
-/

namespace ChipAtlas

open Script

/-- The header as it is written. -/
structure HeaderText where
  banner : Record
  keyLine : Record
  architectures : List Record
  deriving DecidableEq, Repr

namespace HeaderText

/-- The key in the line of the key. -/
def key (t : HeaderText) : String := t.keyLine[1]?.getD ""

/-- The calls of the header. -/
def calls (t : HeaderText) : List Call :=
  .line (.only []) t.banner :: .line (.only []) t.keyLine :: .setKey t.key ::
    t.architectures.map (.line (.only [0]))

/-- The line of the key has a magic word and a key, and counts the architectures. -/
@[mk_iff]
structure WellFormed (t : HeaderText) : Prop where
  magic : t.keyLine[0]?.isSome
  key : t.keyLine[1]?.isSome
  count : numberAt Text.count? t.keyLine 2 = some t.architectures.length

instance (t : HeaderText) : Decidable t.WellFormed := decidable_of_iff' _ (wellFormed_iff ..)

/-- What the header says. -/
def value (t : HeaderText) : Header where
  banner := t.banner
  magic := t.keyLine[0]?.getD ""
  key := t.key
  variant := .ofKey t.key
  architectures := t.architectures

theorem accepts : Header.script.Accepts calls fun t h => t.value = h ∧ t.WellFormed := by
  -- the names are taken one by one; to number them takes no call
  have hrounds : ∀ n, (Script.forEach n fun i => do
      .setRecord i (.done ())
      Script.fields [0]).Copies (·.map (.line (.only [0]))) fun records => records.length = n :=
    fun _ => Copies.lines fun _ => line_copies _
  intro row rest h
  simp only [Header.script, walk_enter_bind, walk_setKey, walk_bind_eq_ok, walk_fields,
    walk_field, walk_count, walk_pure, hrounds _ _ _ _]
  refine ⟨?_, ?_⟩
  · rintro ⟨banner, _, rfl, keyLine, _, rfl, magic, _, ⟨hmagic, rfl⟩, key, _, ⟨hkey, rfl⟩,
      _, _, ⟨hn, rfl⟩, _, _, rfl, architectures, _, ⟨rfl, rfl⟩, rfl, rfl⟩
    refine ⟨⟨banner, keyLine, architectures⟩, ⟨?_, ?_, ?_, hn⟩, ?_⟩
    · simp [value, HeaderText.key, hmagic, hkey]
    · simp [hmagic]
    · simp [hkey]
    · simp [calls, HeaderText.key, hkey]
  · rintro ⟨t, ⟨rfl, ht⟩, rfl⟩
    obtain ⟨magic, hmagic⟩ := Option.isSome_iff_exists.1 ht.magic
    obtain ⟨key, hkey⟩ := Option.isSome_iff_exists.1 ht.key
    have hkey' : t.key = key := by rw [HeaderText.key, hkey]; rfl
    refine ⟨t.banner, _, rfl, t.keyLine, _, rfl, magic, _, ⟨hmagic, rfl⟩, key, _, ⟨hkey, rfl⟩,
      _, _, ⟨ht.count, rfl⟩, (), _, by rw [hkey']; rfl, t.architectures, rest, ⟨rfl, rfl⟩, ?_, rfl⟩
    simp [value, hmagic, hkey']

end HeaderText

end ChipAtlas
