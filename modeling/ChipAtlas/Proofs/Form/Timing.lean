import ChipAtlas.Format.Timing
import ChipAtlas.Proofs.Form.Counted

/-!
# The form of the timing library and of the transceiver lists
-/

namespace ChipAtlas

open Script

/-! ### The timing library -/

namespace TimingGroup

/-- A group as it is written. -/
def calls (g : TimingGroup) : List Call :=
  .line (.only [0, 1]) g.head :: g.body.map (.line (.only []))

theorem script_copies (lines : Nat) :
    (script lines).Copies calls fun g => g.body.length = lines := by
  intro row rest g
  simp only [script, walk_bind_eq_ok, walk_fields, walk_times_fields, walk_pure]
  refine ⟨?_, ?_⟩
  · rintro ⟨head, _, rfl, body, _, ⟨hlines, rfl⟩, rfl, rfl⟩
    exact ⟨hlines, rfl⟩
  · rintro ⟨hlines, rfl⟩
    exact ⟨g.head, _, rfl, g.body, rest, ⟨hlines, rfl⟩, rfl, rfl⟩

end TimingGroup

namespace TimingNest

/-- An item as it is written. -/
def itemCalls (item : Record × Record) : List Call :=
  [.line (.only [0]) item.1, .line (.only []) item.2]

/-- A nest as it is written. -/
def calls (n : TimingNest) : List Call :=
  .line (.only [0]) n.head ::
    (n.body.map (.line (.only [])) ++ (n.items.flatMap itemCalls ++ [blankCall]))

/-- A nest has two lines, and its head counts the items. -/
@[mk_iff]
structure WellFormed (n : TimingNest) : Prop where
  bodyLines : n.body.length = 2
  itemCount : numberAt Text.count? n.head 2 = some n.items.length

instance (n : TimingNest) : Decidable n.WellFormed := decidable_of_iff' _ (wellFormed_iff ..)

theorem itemScript_copies : itemScript.Copies itemCalls fun _ => True := by
  intro row rest item
  simp only [itemScript, walk_bind_eq_ok, walk_fields, walk_pure]
  refine ⟨?_, ?_⟩
  · rintro ⟨first, _, rfl, second, _, rfl, rfl, rfl⟩
    exact ⟨trivial, rfl⟩
  · rintro ⟨-, rfl⟩
    exact ⟨item.1, _, rfl, item.2, rest, rfl, rfl, rfl⟩

theorem script_copies : script.Copies calls WellFormed := by
  intro row rest n
  simp only [script, walk_bind_eq_ok, walk_fields, walk_count, walk_times_fields, walk_blankLine,
    walk_pure, itemScript_copies.times _ _ _]
  refine ⟨?_, ?_⟩
  · rintro ⟨head, _, rfl, _, _, ⟨hn, rfl⟩, body, _, ⟨hbody, rfl⟩, items, _, ⟨⟨rfl, -⟩, rfl⟩,
      _, _, rfl, rfl, rfl⟩
    exact ⟨⟨hbody, hn⟩, by simp [calls, blankCall]⟩
  · rintro ⟨h, rfl⟩
    refine ⟨n.head, _, rfl, _, _, ⟨h.itemCount, rfl⟩, n.body, _, ⟨h.bodyLines, ?_⟩, n.items, _,
      ⟨⟨rfl, fun _ _ => trivial⟩, rfl⟩, (), rest, rfl, rfl, rfl⟩
    simp [blankCall]

end TimingNest

namespace TimingLib

/-- The timing library as it is written. -/
def calls (t : TimingLib) : List Call :=
  .line (.only [0]) t.tag :: (t.pairs.map (.line (.only [0, 1])) ++
    (t.twoLine.flatMap TimingGroup.calls ++ (t.threeLine.flatMap TimingGroup.calls ++
      t.nests.flatMap TimingNest.calls)))

/-- The tag line counts the four parts. -/
@[mk_iff]
structure WellFormed (t : TimingLib) : Prop where
  tag : t.tag.headD "" = "TimingLib"
  pairCount : numberAt Text.count? t.tag 1 = some t.pairs.length
  twoLineCount : numberAt Text.count? t.tag 2 = some t.twoLine.length
  threeLineCount : numberAt Text.count? t.tag 3 = some t.threeLine.length
  nestCount : numberAt Text.count? t.tag 4 = some t.nests.length
  twoLine : ∀ g ∈ t.twoLine, g.body.length = 2
  threeLine : ∀ g ∈ t.threeLine, g.body.length = 3
  nests : ∀ n ∈ t.nests, n.WellFormed

instance (t : TimingLib) : Decidable t.WellFormed := decidable_of_iff' _ (wellFormed_iff ..)

theorem part_copies {α : Type} {m : Script α} {item : α → List Call} {P : α → Prop}
    (h : m.Copies item P) (n first : Nat) :
    (part n first m).Copies (·.flatMap item) fun as => as.length = n ∧ ∀ a ∈ as, P a :=
  Copies.rounds fun _ => h

theorem pairs_copies (n : Nat) :
    (part n 0 (fields [0, 1])).Copies (·.map (.line (.only [0, 1]))) fun pairs =>
      pairs.length = n :=
  Copies.lines fun _ => line_copies (.only [0, 1])

theorem script_copies : script.Copies calls WellFormed := by
  intro row rest t
  simp only [script, walk_bind_eq_ok, walk_enter_bind, walk_fields, walk_expectTag, walk_count,
    walk_pure, pairs_copies _ _ _ _, part_copies (TimingGroup.script_copies _) _ _ _ _ _,
    part_copies TimingNest.script_copies _ _ _ _ _]
  refine ⟨?_, ?_⟩
  · rintro ⟨tag, _, rfl, _, _, ⟨htag, rfl⟩, _, _, ⟨h₁, rfl⟩, _, _, ⟨h₂, rfl⟩, _, _, ⟨h₃, rfl⟩,
      _, _, ⟨h₄, rfl⟩, pairs, _, ⟨rfl, rfl⟩, twoLine, _, ⟨⟨rfl, htwo⟩, rfl⟩,
      threeLine, _, ⟨⟨rfl, hthree⟩, rfl⟩, nests, _, ⟨⟨rfl, hnests⟩, rfl⟩, rfl, rfl⟩
    exact ⟨⟨htag, h₁, h₂, h₃, h₄, htwo, hthree, hnests⟩, by simp [calls]⟩
  · rintro ⟨h, rfl⟩
    refine ⟨t.tag, _, rfl, (), _, ⟨h.tag, rfl⟩, _, _, ⟨h.pairCount, rfl⟩,
      _, _, ⟨h.twoLineCount, rfl⟩, _, _, ⟨h.threeLineCount, rfl⟩, _, _, ⟨h.nestCount, rfl⟩,
      t.pairs, _, ⟨rfl, ?_⟩, t.twoLine, _, ⟨⟨rfl, h.twoLine⟩, rfl⟩,
      t.threeLine, _, ⟨⟨rfl, h.threeLine⟩, rfl⟩, t.nests, rest, ⟨⟨rfl, h.nests⟩, rfl⟩, rfl, rfl⟩
    simp

end TimingLib

/-! ### The serial transceivers -/

/-- The section of the transceivers as it is written: two lists, or a blank line in their place. -/
inductive SerdesText where
  | absent
  | present (pcie serdes : Counted Record)
  deriving DecidableEq, Repr

namespace SerdesText

/-- The calls of the section. -/
def calls : SerdesText → List Call
  | absent => [blankCall]
  | present pcie serdes =>
    pcie.calls (fun record => [.line (.only [0]) record]) ++
      serdes.calls fun record => [.line (.only [0]) record]

/-- Both lists are as long as they say. -/
def WellFormed : SerdesText → Prop
  | absent => True
  | present pcie serdes =>
    (pcie.WellFormed fun _ => True) ∧ serdes.WellFormed fun _ => True

instance (t : SerdesText) : Decidable t.WellFormed :=
  match t with
  | absent => inferInstanceAs (Decidable True)
  | present _ _ => inferInstanceAs (Decidable (_ ∧ _))

/-- What is kept of the text. -/
def value : SerdesText → Option Serdes
  | absent => none
  | present pcie serdes => some ⟨pcie.items, serdes.items⟩

/-- The line of a count is not blank, since a count stands in its first field. -/
theorem isEmpty_countLine {t : Counted Record} {P : Record → Prop} (h : t.WellFormed P) :
    t.countLine.isEmpty = false := by
  obtain ⟨text, htext, -⟩ := Option.bind_eq_some_iff.1 h.countLine
  exact List.isEmpty_eq_false_iff.2 (List.ne_nil_of_mem (List.mem_of_getElem? htext))

theorem accepts : Serdes.script.Accepts calls fun t s => t.value = s ∧ t.WellFormed := by
  intro row rest s
  simp only [Serdes.script, walk_bind_eq_ok, walk_enter_bind, walk_peekBlank]
  refine ⟨?_, ?_⟩
  · rintro ⟨blank, _, ⟨rfl, selection, record, tail, rfl, hblank⟩, h⟩
    split at h
    -- the line is blank, and it is taken
    · simp only [walk_bind_eq_ok, walk_blankLine, walk_pure] at h
      obtain ⟨_, _, hrow, rfl, rfl⟩ := h
      exact ⟨absent, ⟨rfl, trivial⟩, hrow⟩
    -- the line counts the first of the two lists, and both are read
    · simp only [walk_bind_eq_ok, walk_setRecord_bind, walk_pure,
        Counted.accepts_countedLines _ _ _ _] at h
      obtain ⟨_, _, ⟨pcie, ⟨rfl, hpcie⟩, hrow⟩, _, _, ⟨serdes, ⟨rfl, hserdes⟩, rfl⟩, rfl, rfl⟩ := h
      exact ⟨present pcie serdes, ⟨rfl, hpcie, hserdes⟩, by rw [hrow, calls, List.append_assoc]⟩
  · rintro ⟨t, ⟨rfl, h⟩, rfl⟩
    cases t with
    | absent =>
      -- the blank line is looked at and then taken
      refine ⟨true, _, ⟨rfl, .only [], [], rest, rfl, rfl⟩, ?_⟩
      rw [if_pos rfl]
      simp only [walk_bind_eq_ok, walk_blankLine, walk_pure]
      exact ⟨(), rest, rfl, rfl, rfl⟩
    | present pcie serdes =>
      obtain ⟨hpcie, hserdes⟩ := h
      -- the look tells a count from the blank line of the other case
      refine ⟨false, _, ⟨rfl, .only [], pcie.countLine, _, rfl, isEmpty_countLine hpcie⟩, ?_⟩
      rw [if_neg Bool.false_ne_true]
      simp only [walk_bind_eq_ok, walk_setRecord_bind, walk_pure,
        Counted.accepts_countedLines _ _ _ _]
      exact ⟨_, _, ⟨pcie, ⟨rfl, hpcie⟩, List.append_assoc _ _ _⟩, _, rest,
        ⟨serdes, ⟨rfl, hserdes⟩, rfl⟩, rfl, rfl⟩

end SerdesText

end ChipAtlas
