import ChipAtlas.Format.Architecture
import ChipAtlas.Proofs.Script.Walk

/-!
# The form of the architectures

What is read of an architecture loses the lines of counts, so its text keeps them beside the lists
that they size.

* `ListsText`, `PairsText`, `ElementsText`, `IndexedText` — the parts of a description;
* `ArchitectureText` — a description, and `ArchitectureText.allScript_accepts` — the section.
-/

namespace ChipAtlas

open Script

/-! ### Parts -/

/-- A line of counts and the five lists that it sizes. -/
structure ListsText where
  counts : Record
  lists : List (List Record)
  deriving DecidableEq, Repr

namespace ListsText

/-- The calls of the lists. -/
def calls (t : ListsText) : List Call :=
  .line (.only []) t.counts :: t.lists.flatMap (·.map (.line (.only [0])))

/-- Each count is the length of its list. -/
@[mk_iff]
structure WellFormed (t : ListsText) : Prop where
  five : t.lists.length = 5
  sizes : ∀ j (list : List Record), t.lists[j]? = some list →
    numberAt Text.count? t.counts j = some list.length

instance (t : ListsText) : Decidable t.WellFormed := decidable_of_iff' _ (wellFormed_iff ..)

theorem accepts :
    Architecture.listsScript.Accepts calls fun t ls => t.lists = ls ∧ t.WellFormed := by
  -- one list, sized by the count in its place
  have hlist : ∀ counts j, Script.Copies
      (do
        let n ← Script.count counts j
        Script.times n (Script.fields [0]))
      (·.map (.line (.only [0]))) fun list => numberAt Text.count? counts j = some list.length := by
    intro counts j row rest list
    simp only [walk_bind_eq_ok, walk_count, walk_times_fields]
    refine ⟨?_, ?_⟩
    · rintro ⟨_, _, ⟨hn, rfl⟩, rfl, rfl⟩
      exact ⟨hn, rfl⟩
    · rintro ⟨hn, rfl⟩
      exact ⟨_, _, ⟨hn, rfl⟩, rfl, rfl⟩
  intro row rest ls
  simp only [Architecture.listsScript, walk_bind_eq_ok, walk_fields,
    Copies.forEach (hlist _) _ _ _]
  refine ⟨?_, ?_⟩
  · rintro ⟨counts, _, rfl, ⟨hlen, hsizes⟩, rfl⟩
    exact ⟨⟨counts, ls⟩, ⟨rfl, hlen, hsizes⟩, rfl⟩
  · rintro ⟨t, ⟨rfl, h⟩, rfl⟩
    exact ⟨t.counts, _, rfl, ⟨h.five, h.sizes⟩, rfl⟩

end ListsText

/-- A count of pairs, and the line of the pairs, which is there if the count is not zero. -/
structure PairLine where
  pairs : Nat
  line : Option Record
  deriving DecidableEq, Repr

/-- The line of the pairs as it is written. -/
def PairLine.calls (l : PairLine) : List Call :=
  l.line.toList.map (.line (.only (Architecture.pairFields l.pairs)))

/-- A line of four counts and the lines of pairs that it announces. -/
structure PairsText where
  counts : Record
  lines : List PairLine
  deriving DecidableEq, Repr

namespace PairsText

/-- The calls of the pairs. -/
def calls (t : PairsText) : List Call :=
  .line (.only []) t.counts :: t.lines.flatMap PairLine.calls

/-- A line stands for each of the four counts that is not zero. -/
@[mk_iff]
structure WellFormed (t : PairsText) : Prop where
  four : t.lines.length = 4
  sizes : ∀ j (l : PairLine), t.lines[j]? = some l →
    numberAt Text.count? t.counts j = some l.pairs ∧ l.line.isSome = decide (0 < l.pairs)

instance (t : PairsText) : Decidable t.WellFormed := decidable_of_iff' _ (wellFormed_iff ..)

/-- The lines of pairs. -/
def value (t : PairsText) : List Record := t.lines.flatMap (·.line.toList)

theorem accepts :
    Architecture.pairsScript.Accepts calls fun t ls => t.value = ls ∧ t.WellFormed := by
  -- one count, with the line that it announces
  have hline : ∀ counts j, Script.Accepts
      (do
        let n ← Script.count counts j
        if n > 0 then return [← Script.fields (Architecture.pairFields n)] else return [])
      PairLine.calls fun (l : PairLine) (ls : List Record) => l.line.toList = ls ∧
        numberAt Text.count? counts j = some l.pairs ∧ l.line.isSome = decide (0 < l.pairs) := by
    intro counts j row rest ls
    simp only [walk_bind_eq_ok, walk_count]
    refine ⟨?_, ?_⟩
    · rintro ⟨n, _, ⟨hn, rfl⟩, h⟩
      split at h
      · next hpos =>
        simp only [walk_bind_eq_ok, walk_fields, walk_pure] at h
        obtain ⟨record, _, rfl, rfl, rfl⟩ := h
        exact ⟨⟨n, some record⟩, ⟨rfl, hn, by simp [hpos]⟩, rfl⟩
      · next hzero =>
        obtain ⟨rfl, rfl⟩ := walk_pure.1 h
        exact ⟨⟨n, none⟩, ⟨rfl, hn, by simp [hzero]⟩, rfl⟩
    -- conversely, the line answers the request that its count makes
    · rintro ⟨⟨n, line⟩, ⟨rfl, hn, hline⟩, rfl⟩
      refine ⟨n, _, ⟨hn, rfl⟩, ?_⟩
      -- the line is there exactly if the script asks for it
      cases line with
      | some record =>
        rw [if_pos (by simpa using hline.symm)]
        simp only [walk_bind_eq_ok, walk_fields, walk_pure]
        exact ⟨record, rest, rfl, rfl, rfl⟩
      | none =>
        rw [if_neg (by simpa using hline.symm)]
        exact walk_pure.2 ⟨rfl, rfl⟩
  intro row rest ls
  simp only [Architecture.pairsScript, walk_bind_eq_ok, walk_fields, walk_pure,
    Accepts.forEach (hline _) _ _ _]
  refine ⟨?_, ?_⟩
  · rintro ⟨counts, _, rfl, _, _, ⟨lines, ⟨rfl, hlen, hsizes⟩, rfl⟩, rfl, rfl⟩
    exact ⟨⟨counts, lines⟩, ⟨by rw [value, List.flatMap_def], hlen, hsizes⟩, rfl⟩
  · rintro ⟨t, ⟨rfl, h⟩, rfl⟩
    exact ⟨t.counts, _, rfl, _, rest, ⟨t.lines, ⟨rfl, h.four, h.sizes⟩, rfl⟩, by
      rw [value, List.flatMap_def], rfl⟩

end PairsText

/-- A line with a count, and a line with that many fields. -/
structure ElementsText where
  countLine : Record
  elements : Record
  deriving DecidableEq, Repr

namespace ElementsText

/-- The calls of the elements. -/
def calls (t : ElementsText) : List Call :=
  [.line (.only []) t.countLine, .line (.only []) t.elements]

/-- The count is the number of the fields. -/
def WellFormed (t : ElementsText) : Prop :=
  numberAt Text.count? t.countLine 0 = some t.elements.length

instance (t : ElementsText) : Decidable t.WellFormed := inferInstanceAs (Decidable (_ = _))

theorem accepts :
    Architecture.elementsScript.Accepts calls fun t r => t.elements = r ∧ t.WellFormed := by
  intro row rest r
  simp only [Architecture.elementsScript, walk_bind_eq_ok, walk_fields, walk_count,
    walk_expectLength, walk_pure]
  refine ⟨?_, ?_⟩
  · rintro ⟨countLine, _, rfl, _, _, ⟨hn, rfl⟩, elements, _, rfl, _, _, ⟨rfl, rfl⟩, rfl, rfl⟩
    exact ⟨⟨countLine, elements⟩, ⟨rfl, hn⟩, rfl⟩
  · rintro ⟨t, ⟨rfl, h⟩, rfl⟩
    exact ⟨t.countLine, _, rfl, _, _, ⟨h, rfl⟩, t.elements, rest, rfl, (), _, ⟨rfl, rfl⟩, rfl, rfl⟩

end ElementsText

/-- A numbered record: the line of its number, two lines, and its lists. -/
structure IndexedText where
  line : Record
  body : List Record
  lists : ListsText
  deriving DecidableEq, Repr

namespace IndexedText

/-- The calls of the record. -/
def calls (t : IndexedText) : List Call :=
  .line (.only []) t.line :: (t.body.map (.line (.only [])) ++ t.lists.calls)

/-- The record repeats its number. -/
@[mk_iff]
structure WellFormed (index : Nat) (t : IndexedText) : Prop where
  index : (numberAt Text.uint32? t.line 0).map UInt32.toNat = some index
  bodyLines : t.body.length = 2
  lists : t.lists.WellFormed

instance (index : Nat) (t : IndexedText) : Decidable (t.WellFormed index) :=
  decidable_of_iff' _ (wellFormed_iff ..)

/-- What is kept of the record. -/
def value (t : IndexedText) : IndexedRecord where
  index := (numberAt Text.uint32? t.line 0).getD 0
  body := t.body
  lists := t.lists.lists

theorem accepts (index : Nat) :
    (Architecture.indexedScript index).Accepts calls fun t r =>
      t.value = r ∧ t.WellFormed index := by
  intro row rest r
  simp only [Architecture.indexedScript, walk_bind_eq_ok, walk_fields, walk_number]
  refine ⟨?_, ?_⟩
  · rintro ⟨line, _, rfl, found, _, ⟨hfound, rfl⟩, h⟩
    split at h
    · obtain ⟨_, _, h, -⟩ := walk_bind_eq_ok.1 h
      exact absurd h walk_refuse
    · next hindex =>
      simp only [walk_bind_eq_ok, walk_times_fields, walk_pure, ListsText.accepts _ _ _] at h
      obtain ⟨body, _, ⟨hbody, rfl⟩, _, _, ⟨lists, ⟨rfl, hlists⟩, rfl⟩, rfl, rfl⟩ := h
      -- the number that was found is the one that was expected
      have heq : found.toNat = index := Decidable.not_not.1 hindex
      refine ⟨⟨line, body, lists⟩, ⟨?_, ⟨by rw [hfound, ← heq]; rfl, hbody, hlists⟩⟩, by
        simp [calls]⟩
      rw [value, hfound, ← heq]
      simp
  · rintro ⟨t, ⟨rfl, h⟩, rfl⟩
    obtain ⟨found, hfound, rfl⟩ := Option.map_eq_some_iff.1 h.index
    refine ⟨t.line, _, rfl, found, _, ⟨hfound, rfl⟩, ?_⟩
    -- the record has the number that is expected, so it is not refused
    rw [if_neg (Decidable.not_not.2 rfl)]
    simp only [walk_bind_eq_ok, walk_times_fields, walk_pure, ListsText.accepts _ _ _]
    refine ⟨t.body, _, ⟨h.bodyLines, ?_⟩, _, rest, ⟨t.lists, ⟨rfl, h.lists⟩, rfl⟩, ?_, rfl⟩
    · simp
    · simp [value, hfound]

end IndexedText

/-! ### Descriptions -/

/-- The description of an architecture, with the line of the header that names it. -/
structure ArchitectureText where
  nameLine : Record
  head : Record
  lists : ListsText
  dims : Record
  table : Record
  pairs : PairsText
  elements : ElementsText
  misc : List Record
  indexed : List IndexedText
  deriving DecidableEq, Repr

namespace ArchitectureText

/-- The calls of the description. -/
def calls (t : ArchitectureText) : List Call :=
  .line (.only [0, 1, 2]) t.head :: (t.lists.calls ++ (.line (.only []) t.dims ::
    .line (.only []) t.table :: (t.pairs.calls ++ (t.elements.calls ++
      (t.misc.map (.line (.only [])) ++ t.indexed.flatMap IndexedText.calls)))))

/-- The parts are well formed, and the numbered records are numbered without a gap. -/
@[mk_iff]
structure WellFormed (t : ArchitectureText) : Prop where
  name : t.nameLine[0]?.isSome
  lists : t.lists.WellFormed
  pairs : t.pairs.WellFormed
  elements : t.elements.WellFormed
  miscLines : t.misc.length = 4
  indexedCount : t.indexed.length = Architecture.indexedRecords
  indexed : ∀ i (r : IndexedText), t.indexed[i]? = some r →
    r.WellFormed (Architecture.firstIndex + i)

instance (t : ArchitectureText) : Decidable t.WellFormed := decidable_of_iff' _ (wellFormed_iff ..)

/-- What is kept of the description. -/
def value (t : ArchitectureText) : Architecture where
  name := t.nameLine[0]?.getD ""
  nameLine := t.nameLine
  head := t.head
  lists := t.lists.lists
  dims := t.dims
  table := t.table
  pairs := t.pairs.value
  elements := t.elements.elements
  misc := t.misc
  indexed := t.indexed.map IndexedText.value

theorem accepts (nameLine : Record) :
    (Architecture.script nameLine).Accepts calls fun t a =>
      t.value = a ∧ t.nameLine = nameLine ∧ t.WellFormed := by
  intro row rest a
  simp only [Architecture.script, walk_bind_eq_ok, walk_note_bind, walk_field, walk_fields,
    walk_times_fields, walk_pure, ListsText.accepts _ _ _, PairsText.accepts _ _ _,
    ElementsText.accepts _ _ _,
    Accepts.forEach (fun i => IndexedText.accepts (Architecture.firstIndex + i)) _ _ _]
  refine ⟨?_, ?_⟩
  · rintro ⟨name, _, ⟨hname, rfl⟩, head, _, rfl, _, _, ⟨lists, ⟨rfl, hlists⟩, rfl⟩, dims, _, rfl,
      table, _, rfl, _, _, ⟨pairs, ⟨rfl, hpairs⟩, rfl⟩, _, _, ⟨elements, ⟨rfl, helements⟩, rfl⟩,
      misc, _, ⟨hmisc, rfl⟩, _, _, ⟨indexed, ⟨rfl, hcount, hindexed⟩, rfl⟩, rfl, rfl⟩
    exact ⟨⟨nameLine, head, lists, dims, table, pairs, elements, misc, indexed⟩,
      ⟨by simp [value, hname], rfl, ⟨by simp [hname], hlists, hpairs, helements, hmisc, hcount,
        hindexed⟩⟩, by simp [calls]⟩
  · rintro ⟨t, ⟨rfl, rfl, h⟩, rfl⟩
    -- the name is looked up in the line of the header, and takes no call
    obtain ⟨name, hname⟩ := Option.isSome_iff_exists.1 h.name
    refine ⟨name, _, ⟨hname, rfl⟩, t.head, _, rfl, _, _, ⟨t.lists, ⟨rfl, h.lists⟩, ?_⟩,
      t.dims, _, rfl, t.table, _, rfl, _, _, ⟨t.pairs, ⟨rfl, h.pairs⟩, rfl⟩,
      _, _, ⟨t.elements, ⟨rfl, h.elements⟩, rfl⟩, t.misc, _, ⟨h.miscLines, rfl⟩,
      _, rest, ⟨t.indexed, ⟨rfl, h.indexedCount, h.indexed⟩, rfl⟩, ?_, rfl⟩
    · simp
    · simp [value, hname]

theorem allScript_accepts (nameLines : List Record) :
    (Architecture.allScript nameLines).Accepts (·.flatMap calls)
      fun (ts : List ArchitectureText) as =>
        ts.map value = as ∧ ts.map nameLine = nameLines ∧ ∀ t ∈ ts, t.WellFormed := by
  -- to number the record takes no call
  have hround : ∀ (i : Nat) nameLine, Script.Accepts
      (do
        .setRecord i (.done ())
        Architecture.script nameLine)
      calls fun t a => t.value = a ∧ t.nameLine = nameLine ∧ t.WellFormed :=
    fun _ nameLine => accepts nameLine
  exact Accepts.forEntries hround nameLines

end ArchitectureText

end ChipAtlas
