import ChipAtlas.Database

/-!
# From the requests to the sections

What is asked of a file is built from requests, and the checks between them only end it early. A
property of scripts that the requests have and that a sequence inherits from its parts is therefore
a property of every check and every loop (`Script.Modular`), and so of every section of the form.

Two sections are left out. That of the serial transceivers looks at a line before it takes it, and
the table of tiles looks into the tables of the grid. Whether they have the property depends on the
property, and whoever states it says why.

In three places a field that has been found to be there is looked up again without a check: in the
first line of a bit, in the line of a tile, and where a number has to be zero. The look-up succeeds
wherever it is reached (`Script.fieldAt_of_lt`), so nothing has to be asked of a look-up that does
not.
-/

namespace ChipAtlas

namespace Script

variable {α β σ : Type}

/-- A field that is there is looked up. -/
theorem fieldAt_of_lt {record : Record} {index : Nat} (h : index < record.length) :
    fieldAt record index = done record[index] := by
  rw [fieldAt, List.getElem?_eq_getElem h]
  rfl

/-- A property of scripts that the requests have and that a sequence inherits from its parts. -/
structure Modular (P : ∀ {α : Type}, Script α → Prop) : Prop where
  done {α : Type} (a : α) : P (done a)
  /-- That the file has ended is said of a line that is asked for, and never by a check. -/
  refuse {α : Type} {cause : Cause} (h : cause ≠ .unexpectedEnd) : P (refuse cause : Script α)
  bind {α β : Type} {m : Script α} {f : α → Script β} (hm : P m) (hf : ∀ a, P (f a)) : P (m >>= f)
  line (selection : Selection) : P (line selection Script.done)
  scan (stop : Record → Bool) : P (scan stop Script.done)
  enter (part : Section) : P (enter part (Script.done ()))
  setRecord (record : Nat) : P (setRecord record (Script.done ()))
  setKey (key : String) : P (setKey key (Script.done ()))
  note (event : Event) : P (note event (Script.done ()))
  noteLines (event : Nat → Event) : P (noteLines event (Script.done ()))

namespace Modular

variable {P : ∀ {α : Type}, Script α → Prop}

theorem map (h : Modular @P) {m : Script α} (f : α → β) (hm : P m) : P (f <$> m) :=
  h.bind hm fun a => h.done (f a)

theorem ite {c : Prop} [Decidable c] {m m' : Script α} (hm : P m) (hm' : P m') :
    P (if c then m else m') := by
  split
  · exact hm
  · exact hm'

/-- A check in the middle of a script. -/
theorem check_bind (h : Modular @P) {c : Prop} [Decidable c] {cause : Cause}
    {f : Unit → Script α} (hcause : cause ≠ .unexpectedEnd) (hf : P (f ())) :
    P (if c then Script.refuse cause >>= f else f ()) :=
  -- a refusal ends the script, whatever would come behind it
  ite (m := Script.refuse cause) (h.refuse hcause) hf

theorem fields (h : Modular @P) (indices : List Nat) : P (fields indices) := h.line _

theorem fieldsBut (h : Modular @P) (indices : List Nat) : P (fieldsBut indices) := h.line _

theorem blankLine (h : Modular @P) : P blankLine :=
  h.bind (h.fields []) fun _ => ite (h.done ()) (h.refuse nofun)

/-! ### Loops -/

theorem rounds (h : Modular @P) {n : Nat} {f : Nat → σ → Script σ} (hf : ∀ i s, P (f i s))
    (i : Nat) (s : σ) : P (rounds f n i s) := by
  induction n generalizing i s with
  | zero => exact h.done s
  | succ n ih => exact h.bind (hf i s) fun s => ih (i + 1) s

theorem foldTimes (h : Modular @P) {f : Nat → σ → Script σ} (hf : ∀ i s, P (f i s)) (n : Nat)
    (s : σ) : P (foldTimes n f s) :=
  h.rounds hf 0 s

theorem forEach (h : Modular @P) {f : Nat → Script α} (hf : ∀ i, P (f i)) (n : Nat) :
    P (forEach n f) :=
  h.map _ (h.foldTimes (fun i _ => h.bind (hf i) fun _ => h.done _) n [])

theorem times (h : Modular @P) {m : Script α} (hm : P m) (n : Nat) : P (times n m) :=
  h.forEach (fun _ => hm) n

theorem forEntries (h : Modular @P) {f : Nat → β → Script α} (hf : ∀ i b, P (f i b))
    (entries : List β) : P (forEntries entries f) := by
  suffices hgo : ∀ i results, P (forEntries.go f entries i results) from hgo 0 []
  induction entries with
  | nil => exact fun _ results => h.done results.reverse
  | cons b entries ih => exact fun i results => h.bind (hf i b) fun a => ih (i + 1) (a :: results)

/-! ### Checks -/

section Checks

variable (record : Record) (index : Nat)

theorem field (h : Modular @P) : P (field record index) := by
  unfold Script.field
  split
  · exact h.done _
  · exact h.refuse nofun

theorem number (h : Modular @P) (read? : String → Option α) : P (number read? record index) := by
  refine h.bind (h.field record index) fun text => ?_
  split
  · exact h.done _
  · exact h.refuse nofun

theorem count (h : Modular @P) : P (count record index) := h.number record index _

theorem expectTag (h : Modular @P) (tag : String) : P (expectTag record tag) :=
  ite (h.done ()) (h.refuse nofun)

/-- The field that is named in the refusal has been read as a number before. -/
theorem expectZero (h : Modular @P) : P (expectZero record index) := by
  by_cases hlt : index < record.length
  · refine h.bind (h.number record index _) fun value => ite (h.done ()) ?_
    rw [fieldAt_of_lt hlt]
    exact h.refuse nofun
  · -- without the field there is no number
    have hnone : record[index]? = none := List.getElem?_eq_none (Nat.le_of_not_lt hlt)
    have hrefuse : Script.expectZero record index =
        Script.refuse (.missingField index record.length) := by
      rw [Script.expectZero, Script.number, Script.field, hnone]
      rfl
    rw [hrefuse]
    exact h.refuse nofun

theorem expectLength (h : Modular @P) (length : Nat) : P (expectLength record length) :=
  ite (h.done ()) (h.refuse nofun)

/-- What follows the check of a length is reached by records of this length. -/
theorem expectLength_bind (h : Modular @P) {length : Nat} {f : Unit → Script α}
    (hf : record.length = length → P (f ())) : P (Script.expectLength record length >>= f) := by
  by_cases hlength : record.length = length
  · rw [Script.expectLength, if_pos hlength]
    exact hf hlength
  · rw [Script.expectLength, if_neg hlength]
    exact h.refuse nofun

theorem flag (h : Modular @P) (name : String) : P (flag record index name) := by
  refine h.bind (h.field record index) fun text => ?_
  split
  · exact h.done _
  · exact h.done _
  · exact h.refuse nofun

end Checks

theorem countedLines (h : Modular @P) (indices : List Nat) : P (countedLines indices) :=
  h.bind (h.fields []) fun line => h.bind (h.count line 0) fun n => h.times (h.fields indices) n

/-! ### Sections -/

theorem header (h : Modular @P) : P Header.script :=
  h.bind (h.enter .header) fun _ => h.bind (h.fields []) fun _ =>
    h.bind (h.fields []) fun keyLine => h.bind (h.field keyLine 0) fun _ =>
    h.bind (h.field keyLine 1) fun key => h.bind (h.count keyLine 2) fun n =>
    h.bind (h.setKey key) fun _ =>
    h.bind (h.forEach (fun i => h.bind (h.setRecord i) fun _ => h.fields [0]) n) fun _ => h.done _

theorem lists (h : Modular @P) : P Architecture.listsScript :=
  h.bind (h.fields []) fun counts =>
    h.forEach (fun j => h.bind (h.count counts j) fun n => h.times (h.fields [0]) n) 5

theorem pairs (h : Modular @P) : P Architecture.pairsScript :=
  h.bind (h.fields []) fun counts =>
    h.bind (h.forEach (fun j => h.bind (h.count counts j) fun _ =>
      ite (h.bind (h.fields _) fun _ => h.done _) (h.done _)) 4) fun _ => h.done _

theorem elements (h : Modular @P) : P Architecture.elementsScript :=
  h.bind (h.fields []) fun line => h.bind (h.count line 0) fun n =>
    h.bind (h.fields []) fun elements => h.bind (h.expectLength elements n) fun _ => h.done _

theorem indexedRecord (h : Modular @P) (index : Nat) : P (Architecture.indexedScript index) :=
  h.bind (h.fields []) fun line => h.bind (h.number line 0 _) fun _ =>
    h.check_bind nofun <| h.bind (h.times (h.fields []) 2) fun _ =>
    h.bind h.lists fun _ => h.done _

theorem architecture (h : Modular @P) (nameLine : Record) : P (Architecture.script nameLine) :=
  h.bind (h.field nameLine 0) fun _ => h.bind (h.fields [0, 1, 2]) fun _ =>
    h.bind h.lists fun _ => h.bind (h.fields []) fun _ => h.bind (h.fields []) fun _ =>
    h.bind h.pairs fun _ => h.bind h.elements fun _ => h.bind (h.times (h.fields []) 4) fun _ =>
    h.bind (h.forEach (fun i => h.indexedRecord (Architecture.firstIndex + i)) _) fun _ =>
    h.bind (h.note _) fun _ => h.done _

theorem architectures (h : Modular @P) (nameLines : List Record) :
    P (Architecture.allScript nameLines) :=
  h.bind (h.enter .architecture) fun _ =>
    h.forEntries (fun i nameLine => h.bind (h.setRecord i) fun _ => h.architecture nameLine)
      nameLines

theorem wireRegion (h : Modular @P) : P WireRegion.script :=
  h.bind (h.fields []) fun header => h.bind (h.forEach (fun i => h.expectZero header i) 4) fun _ =>
    h.bind (h.count header 4) fun n => h.bind (h.times (h.fieldsBut [1]) n) fun _ => h.done _

theorem wireRegions (h : Modular @P) (n first : Nat) : P (WireRegion.scripts n first) :=
  h.forEach (fun i => h.bind (h.setRecord (first + i)) fun _ => h.wireRegion) n

theorem indexedRegion (h : Modular @P) (position : Nat) : P (IndexedRegion.script position) :=
  h.bind (h.fields []) fun index => h.bind (h.count index 0) fun _ =>
    h.check_bind nofun <| h.bind h.wireRegion fun _ => h.done _

theorem routing (h : Modular @P) (variant : Variant) : P (Routing.script variant) :=
  h.bind (h.enter .routing) fun _ => h.bind (h.fields []) fun counts =>
    h.bind (h.count counts 0) fun leading => h.bind (h.count counts 1) fun indexed =>
    h.bind (h.wireRegions leading 0) fun _ =>
    h.bind (h.wireRegions Routing.fixedRegions leading) fun _ =>
    h.bind (h.forEach (fun i => h.bind (h.setRecord _) fun _ => h.indexedRegion i) indexed) fun _ =>
    h.bind (h.wireRegions (Routing.trailingRegions variant) _) fun _ =>
    h.bind (h.note _) fun _ => h.done _

theorem legacyRouting (h : Modular @P) (variant : Variant) :
    P (Database.legacyRoutingScript variant) := by
  cases variant with
  | legacy =>
    exact h.map _ <| h.bind (h.enter .legacyRouting) fun _ => h.bind (h.fields []) fun line =>
      h.bind (h.count line 0) fun n => h.bind (h.wireRegions n 0) fun _ =>
      h.bind (h.setRecord n) fun _ => h.bind (h.countedLines [0]) fun _ => h.done _
  | current => exact h.done none

theorem modelLeaf (h : Modular @P) : P ModelLeaf.script := by
  refine h.bind (h.fields [0]) fun head => h.bind (h.number head 2 _) fun selector => ?_
  split
  · exact h.refuse nofun
  · exact h.bind (h.fields _) fun _ => h.done _

theorem model (h : Modular @P) : P Model.script :=
  h.bind (h.fields []) fun header => h.bind (h.count header 0) fun n =>
    h.bind (h.forEach (fun g => h.bind (h.count header (g + 1)) fun leaves =>
      h.times h.modelLeaf leaves) n) fun _ => h.done _

theorem models (h : Modular @P) : P Model.allScript :=
  h.bind (h.enter .models) fun _ => h.bind (h.fields []) fun line =>
    h.bind (h.count line 0) fun n =>
    h.bind (h.forEach (fun i => h.bind (h.setRecord i) fun _ => h.model) n) fun _ =>
    h.bind (h.note _) fun _ => h.done _

theorem names (h : Modular @P) : P namesScript :=
  h.bind (h.enter .names) fun _ => h.countedLines [0]

theorem constraints (h : Modular @P) : P constraintsScript :=
  h.bind (h.enter .constraints) fun _ => h.bind (h.fields []) fun line =>
    h.bind (h.count line 0) fun n =>
    h.forEach (fun i => h.bind (h.setRecord i) fun _ => h.fieldsBut [0]) n

theorem pack (h : Modular @P) : P Pack.script :=
  h.bind (h.enter .pack) fun _ => h.bind (h.fields []) fun header =>
    h.bind (h.expectTag header "pack") fun _ => h.bind (h.count header 1) fun n =>
    h.bind (h.times (h.fields [0]) n) fun _ => h.bind (h.fields []) fun kcap =>
    h.bind (h.expectTag kcap "kcap") fun _ => h.done _

theorem timingGroup (h : Modular @P) (lines : Nat) : P (TimingGroup.script lines) :=
  h.bind (h.fields [0, 1]) fun _ => h.bind (h.times (h.fields []) lines) fun _ => h.done _

theorem timingNest (h : Modular @P) : P TimingNest.script :=
  h.bind (h.fields [0]) fun head => h.bind (h.count head 2) fun n =>
    h.bind (h.times (h.fields []) 2) fun _ =>
    h.bind (h.times (h.bind (h.fields [0]) fun _ => h.bind (h.fields []) fun _ => h.done _) n)
      fun _ => h.bind h.blankLine fun _ => h.done _

theorem timingPart (h : Modular @P) {m : Script α} (hm : P m) (n first : Nat) :
    P (TimingLib.part n first m) :=
  h.forEach (fun i => h.bind (h.setRecord (first + i)) fun _ => hm) n

theorem timing (h : Modular @P) : P TimingLib.script :=
  h.bind (h.enter .timing) fun _ => h.bind (h.fields [0]) fun tag =>
    h.bind (h.expectTag tag "TimingLib") fun _ =>
    h.bind (h.count tag 1) fun n₁ => h.bind (h.count tag 2) fun n₂ =>
    h.bind (h.count tag 3) fun n₃ => h.bind (h.count tag 4) fun n₄ =>
    h.bind (h.timingPart (h.fields [0, 1]) n₁ 0) fun _ =>
    h.bind (h.timingPart (h.timingGroup 2) n₂ n₁) fun _ =>
    h.bind (h.timingPart (h.timingGroup 3) n₃ _) fun _ =>
    h.bind (h.timingPart h.timingNest n₄ _) fun _ => h.done _

/-- The two scripts that the look at the first line of the serial transceivers decides between. -/
theorem serdesAbsent (h : Modular @P) : P (do
    Script.blankLine
    return (none : Option Serdes)) :=
  h.bind h.blankLine fun _ => h.done _

theorem serdesLists (h : Modular @P) : P (do
    let pcie ← Script.countedLines [0]
    .setRecord 1 (.done ())
    let serdes ← Script.countedLines [0]
    return some { pcie, serdes : Serdes }) :=
  h.bind (h.countedLines [0]) fun _ => h.bind (h.setRecord 1) fun _ =>
    h.bind (h.countedLines [0]) fun _ => h.done _

theorem tokens (h : Modular @P) (length : Nat) : P (ConfigBit.tokensScript length) :=
  h.bind (h.fields []) fun line => h.bind (h.expectLength line length) fun _ =>
    h.forEach (fun i => h.bind (h.number line i _) fun _ => h.done _) line.length

theorem vars (h : Modular @P) (n : Nat) : P (ConfigBit.varsScript n) :=
  h.foldTimes (fun _ _ => h.bind (h.fields [1]) fun line => h.bind (h.number line 0 _) fun _ =>
    h.bind (h.field line 1) fun _ => h.done _) n ∅

/-- The name and the kind of a bit are fields of a line of twelve. -/
theorem configBit (h : Modular @P) : P ConfigBit.script := by
  refine h.bind (h.fields [0, 1]) fun head => h.expectLength_bind head fun hlength => ?_
  have hlength : head.length = 12 := hlength
  rw [fieldAt_of_lt (show 0 < head.length by omega), fieldAt_of_lt (show 1 < head.length by omega)]
  exact h.bind (h.done _) fun _ => h.bind (h.done _) fun _ =>
    h.bind (h.number head 2 _) fun _ => h.bind (h.number head 3 _) fun _ =>
    h.bind (h.number head 4 _) fun _ => h.bind (h.number head 5 _) fun _ =>
    h.bind (h.flag head 6 _) fun _ => h.bind (h.flag head 7 _) fun _ =>
    h.bind (h.flag head 8 _) fun _ => h.check_bind nofun <|
    h.bind (h.count head 9) fun infixCount => h.bind (h.count head 10) fun postfixCount =>
    h.bind (h.count head 11) fun varCount => h.bind (h.tokens infixCount) fun _ =>
    h.bind (h.tokens postfixCount) fun _ => h.bind (h.vars varCount) fun _ =>
    h.bind h.blankLine fun _ => h.done _

theorem block (h : Modular @P) : P Catalogs.blockScript :=
  h.bind (h.fields [0]) fun header => h.bind (h.field header 0) fun _ =>
    h.bind (h.count header 1) fun n => h.bind (h.times h.configBit n) fun _ =>
    h.bind h.blankLine fun _ => h.done _

theorem catalogs (h : Modular @P) : P Catalogs.script :=
  h.bind (h.enter .bits) fun _ => h.bind (h.fields [0]) fun tag =>
    h.bind (h.expectTag tag "bcc_info") fun _ => h.bind (h.count tag 1) fun n =>
    h.bind (h.foldTimes (fun i _ => h.bind (h.setRecord i) fun _ =>
      h.bind h.block fun _ => h.done _) n ∅) fun _ =>
    h.bind h.blankLine fun _ => h.bind (h.note _) fun _ => h.done _

/-- The name and the kind of a tile are fields of a line of nine. -/
theorem tile (h : Modular @P) (x y : UInt32) : P (Tile.script x y) := by
  refine h.bind (h.fields [0, 1]) fun line => h.expectLength_bind line fun hlength => ?_
  have hlength : line.length = 9 := hlength
  rw [fieldAt_of_lt (show 0 < line.length by omega), fieldAt_of_lt (show 1 < line.length by omega)]
  exact h.bind (h.number line 2 _) fun _ => h.bind (h.number line 3 _) fun _ =>
    h.check_bind nofun <| h.bind (h.number line 4 _) fun _ => h.bind (h.number line 5 _) fun _ =>
    h.bind (h.number line 6 _) fun _ => h.bind (h.number line 7 _) fun _ =>
    h.bind (h.number line 8 _) fun _ => h.check_bind nofun <| h.bind h.blankLine fun _ =>
    h.bind (h.done _) fun _ => h.bind (h.done _) fun _ => h.done _

theorem trailer (h : Modular @P) (tileHeader : Record) : P (Trailer.script tileHeader) :=
  h.bind (h.enter .trailer) fun _ => h.bind h.blankLine fun _ =>
    h.bind (h.count tileHeader 8) fun n => h.bind (h.times (h.fields [0]) n) fun _ =>
    h.bind h.blankLine fun _ => h.bind (h.scan Trailer.isFooter) fun _ =>
    h.bind (h.fields []) fun _ => h.done _

end Modular

end Script

end ChipAtlas
