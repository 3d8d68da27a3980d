import ChipAtlas.Proofs.BitTable
import ChipAtlas.Proofs.Json

/-!
# The export of a configuration bit

An export has the codes of the symbols instead of the symbols, and the raw texts of the variables
instead of what they describe. For a bit that has been read nothing is lost by this: its symbols
were found by their codes, and its variables by their raw texts (`ConfigBit.IsSpelled`). What an
export has in plain text, the expression, says nothing more.

In the other direction, an export can be told from the lines of the bit. The codes stand there, and
so do the raw texts, where the last line of a number counts (`BitText.codeText`).

* `ConfigBit.IsSpelled.eq_of_toJson` — no two bits are exported alike;
* `BitText.WellFormed.expression_eq` — the expression, from the lines;
* `ConfigBit.toJson_of_run` — both, for bits that are read from any lines.
-/

namespace ChipAtlas

open Script

/-- Lists with the same images are the same, if the images lead back to their elements. -/
theorem eq_of_map_eq {α β : Type} {f : α → β} {g : β → α} {as bs : List α}
    (has : ∀ a ∈ as, g (f a) = a) (hbs : ∀ b ∈ bs, g (f b) = b) (h : as.map f = bs.map f) :
    as = bs := by
  have hback {cs : List α} (hcs : ∀ c ∈ cs, g (f c) = c) : (cs.map f).map g = cs := by
    rw [List.map_map]
    exact (List.map_congr_left hcs).trans (List.map_id cs)
  rw [← hback has, h, hback hbs]

/-! ### From the export to the bit -/

namespace ConfigBit

/-- Each symbol is the one of its code, and each variable is what its raw text describes. -/
structure IsSpelled (b : ConfigBit) : Prop where
  infixTokens : ∀ token ∈ b.infixTokens, Token.ofCode token.code = token
  postfixTokens : ∀ token ∈ b.postfixTokens, Token.ofCode token.code = token
  vars : ∀ e ∈ b.vars.entries, Operand.ofText e.2.raw = e.2

theorem eq_of_codes {tokens tokens' : List Token}
    (htokens : ∀ token ∈ tokens, Token.ofCode token.code = token)
    (htokens' : ∀ token ∈ tokens', Token.ofCode token.code = token)
    (h : codes tokens = codes tokens') : tokens = tokens' := by
  refine eq_of_map_eq htokens htokens' ?_
  have hnumbers : Function.Injective Json.ofUInt32 := fun _ _ => Json.ofUInt32_inj.1
  apply List.map_injective_iff.2 hnumbers
  rw [List.map_map, List.map_map]
  exact Json.list.inj h

/-- A number has one numeral. -/
theorem toString_inj {m n : Nat} (h : toString m = toString n) : m = n := by
  have hdigits : Nat.toDigits 10 m = Nat.toDigits 10 n := by
    rw [← Nat.toList_repr, ← Nat.toList_repr]
    exact congrArg String.toList h
  rw [← Nat.ofDigitChars_ten_toDigits (n := m), hdigits, Nat.ofDigitChars_ten_toDigits]

theorem eq_of_variables {vars vars' : OrderedMap UInt32 Operand}
    (hvars : ∀ e ∈ vars.entries, Operand.ofText e.2.raw = e.2)
    (hvars' : ∀ e ∈ vars'.entries, Operand.ofText e.2.raw = e.2)
    (h : vars.entries.map (fun (id, operand) => (toString id.toNat, Json.text operand.raw)) =
      vars'.entries.map fun (id, operand) => (toString id.toNat, Json.text operand.raw)) :
    vars = vars' := by
  -- the number and the raw text can be taken from a member
  have hmember : Function.Injective fun e : UInt32 × String =>
      (toString e.1.toNat, Json.text e.2) := by
    rintro ⟨id, raw⟩ ⟨id', raw'⟩ heq
    obtain ⟨hid, hraw⟩ := Prod.mk.inj heq
    exact Prod.ext (UInt32.toNat.inj (toString_inj hid)) (Json.text.inj hraw)
  have hraws : vars.entries.map (fun e => (e.1, e.2.raw)) =
      vars'.entries.map fun e => (e.1, e.2.raw) := by
    apply List.map_injective_iff.2 hmember
    rw [List.map_map, List.map_map]
    exact h
  -- and the variable is what the raw text describes
  have hentries : vars.entries = vars'.entries := by
    have hback {e : UInt32 × Operand} (he : Operand.ofText e.2.raw = e.2) :
        (e.1, Operand.ofText e.2.raw) = e := by rw [he]
    exact eq_of_map_eq (g := fun e : UInt32 × String => (e.1, Operand.ofText e.2))
      (fun e he => hback (hvars e he)) (fun e he => hback (hvars' e he)) hraws
  cases vars
  cases vars'
  exact (OrderedMap.mk.injEq ..).mpr hentries

/-- Bits that are exported alike are the same. The members that say a field tell it, and those that
say a row tell its elements one by one. -/
theorem IsSpelled.eq_of_toJson {b b' : ConfigBit} (hb : b.IsSpelled) (hb' : b'.IsSpelled)
    (h : b.toJson = b'.toJson) : b = b' := by
  simp only [toJson, Json.object.injEq, List.cons.injEq, Prod.mk.injEq, Json.text.injEq,
    Json.flag.injEq, Json.ofUInt32_inj, Json.ofInt32_inj, true_and, and_true] at h
  obtain ⟨hname, hkind, hframe, hbit, hxoff, hyoff, huses, hremap, hpll, hinfix, hpostfix, hvars,
    -⟩ := h
  have hinfix := eq_of_codes hb.infixTokens hb'.infixTokens hinfix
  have hpostfix := eq_of_codes hb.postfixTokens hb'.postfixTokens hpostfix
  have hvars := eq_of_variables hb.vars hb'.vars hvars
  cases b
  cases b'
  rw [ConfigBit.mk.injEq]
  exact ⟨hname, hkind, hframe, hbit, hxoff, hyoff, huses, hremap, hpll, hinfix, hpostfix, hvars⟩

end ConfigBit

theorem Token.ofCode_code_of_mem_rowOf {line : Record} {token : Token} (h : token ∈ rowOf line) :
    ofCode token.code = token := by
  obtain ⟨text, -, htoken⟩ := List.mem_filterMap.1 h
  obtain ⟨code, -, rfl⟩ := Option.map_eq_some_iff.1 htoken
  rw [code_ofCode]

/-- Whatever a bit is read from, its symbols were found by codes and its variables by raw texts. -/
theorem BitText.isSpelled_value (t : BitText) : t.value.IsSpelled where
  infixTokens _ := Token.ofCode_code_of_mem_rowOf
  postfixTokens _ := Token.ofCode_code_of_mem_rowOf
  vars e he := by
    obtain ⟨line, -, rfl⟩ := List.mem_map.1 (OrderedMap.mem_of_mem_ofList he)
    rfl

/-! ### From the lines to the export -/

/-- The codes of a line of symbols. -/
def Token.codesOf (line : Record) : List UInt32 := line.filterMap Text.uint32?

theorem Token.rowOf_eq_map (line : Record) : rowOf line = (codesOf line).map ofCode := by
  rw [rowOf, codesOf, List.map_filterMap]

theorem ConfigBit.codes_rowOf (line : Record) :
    codes (Token.rowOf line) = .list ((Token.codesOf line).map .ofUInt32) := by
  rw [codes, Token.rowOf_eq_map, List.map_map]
  congr! 2
  funext code
  rw [Function.comp_apply, Token.code_ofCode]

/-- The codes are read from the texts of the line, one by one. -/
theorem Token.forall₂_codesOf {line : Record} (h : ∀ text ∈ line, (Text.uint32? text).isSome) :
    List.Forall₂ (fun text code => Text.uint32? text = some code) line (codesOf line) := by
  induction line with
  | nil => exact .nil
  | cons text line ih =>
    obtain ⟨code, hcode⟩ := Option.isSome_iff_exists.1 (h text List.mem_cons_self)
    rw [codesOf, List.filterMap_cons_some hcode]
    exact .cons hcode (ih fun other hother => h other (List.mem_cons_of_mem _ hother))

/-- The codes from ten on stand for variables, and no others do. -/
theorem Token.ofCode_eq_var_iff {code id : UInt32} :
    ofCode code = var id ↔ 10 ≤ code ∧ code = id := by
  unfold ofCode
  grind

namespace BitText

variable {t : BitText}

/-- The raw text of the last line that describes a variable. -/
def lastRaw? (t : BitText) (id : UInt32) : Option String :=
  (t.vars.filter fun fields => numberAt Text.uint32? fields 0 = some id).getLast?.bind (·[1]?)

/-- What an expression shows for a code: from ten on the raw text of its variable, if a line
describes it, and else the text of the symbol. -/
def codeText (t : BitText) (code : UInt32) : String :=
  (if 10 ≤ code then t.lastRaw? code else none).getD (Token.ofCode code).text

theorem WellFormed.raw?_eq (h : t.WellFormed) (id : UInt32) :
    (t.value.vars.get? id).map Operand.raw = t.lastRaw? id := by
  have hfilter : t.vars.filter ((fun e : UInt32 × Operand => decide (e.1 = id)) ∘ Operand.entry) =
      t.vars.filter fun fields => numberAt Text.uint32? fields 0 = some id := by
    refine List.filter_congr fun fields hfields => decide_eq_decide.2 ?_
    obtain ⟨number, hnumber⟩ := Option.isSome_iff_exists.1 (h.varLines fields hfields).id
    rw [Operand.entry, hnumber, Option.getD_some, Option.some.injEq]
  rw [value, Operand.mapOf, OrderedMap.get?_ofList, List.filter_map, List.getLast?_map, hfilter,
    lastRaw?, Option.map_map, Option.map_map]
  cases hlast : (t.vars.filter fun fields =>
      numberAt Text.uint32? fields 0 = some id).getLast? with
  | none => rfl
  | some fields =>
    -- a line of a variable has a raw text
    have hfields := (List.mem_filter.1 (List.mem_of_getLast? hlast)).1
    obtain ⟨raw, hraw⟩ := Option.isSome_iff_exists.1 (h.varLines fields hfields).raw
    simp [Operand.entry, Operand.ofText, hraw]

theorem WellFormed.tokenText_eq (h : t.WellFormed) (code : UInt32) :
    t.value.tokenText (.ofCode code) = t.codeText code := by
  by_cases hcode : 10 ≤ code
  · have hvar : Token.ofCode code = .var code := Token.ofCode_eq_var_iff.2 ⟨hcode, rfl⟩
    rw [codeText, if_pos hcode, ← h.raw?_eq, hvar, ConfigBit.tokenText]
    cases t.value.vars.get? code <;> rfl
  · rw [codeText, if_neg hcode, Option.getD_none]
    cases htoken : Token.ofCode code with
    | var id => exact absurd (Token.ofCode_eq_var_iff.1 htoken).1 hcode
    | _ => rfl

/-- The expression is made of the texts of the codes. -/
theorem WellFormed.expression_eq (h : t.WellFormed) :
    t.value.expression = String.join ((Token.codesOf t.infixLine).map t.codeText) := by
  have hinfix : t.value.infixTokens = (Token.codesOf t.infixLine).map Token.ofCode :=
    Token.rowOf_eq_map t.infixLine
  rw [ConfigBit.expression, hinfix, List.map_map]
  exact congrArg String.join (List.map_congr_left fun code _ => h.tokenText_eq code)

end BitText

/-! ### Both directions -/

namespace ConfigBit

open Reading

/-- **The export of a bit is lossless.** Two bits that are read, each from any lines, and exported
alike are the same, with their rows of symbols and the order and the kinds of their variables. And
a bit that is read was shown as lines of which the export has the codes of both rows of symbols, in
their order; its expression has, code by code, the text of the symbol, or from ten on the raw text
of the last line of that variable, if there is one. -/
theorem toJson_of_run :
    (∀ {s s' t t' : Reading} {b b' : ConfigBit}, script.run s = .ok b s' →
      script.run t = .ok b' t' → b.toJson = b'.toJson → b = b') ∧
    ∀ {s s' : Reading} {b : ConfigBit}, script.run s = .ok b s' →
      ∃ (t : BitText) (final : Reading) (infixCodes postfixCodes : List UInt32),
        s.Shows t.calls final ∧ s'.Agrees final ∧
        List.Forall₂ (fun text code => Text.uint32? text = some code) t.infixLine infixCodes ∧
        List.Forall₂ (fun text code => Text.uint32? text = some code) t.postfixLine postfixCodes ∧
        b.toJson.member? "infix" = some (.list (infixCodes.map .ofUInt32)) ∧
        b.toJson.member? "rpn" = some (.list (postfixCodes.map .ofUInt32)) ∧
        b.toJson.member? "expression" =
          some (.text (String.join (infixCodes.map t.codeText))) := by
  -- whatever is read is the value of a text
  have hread {s s' : Reading} {b : ConfigBit} (h : script.run s = .ok b s') :
      ∃ (t : BitText) (final : Reading), t.value = b ∧ t.WellFormed ∧ s.Shows t.calls final ∧
        s'.Agrees final := by
    obtain ⟨row, final, hwalk, hshows, hfinal⟩ := exists_walk_of_run attentive_modular.configBit h
    obtain ⟨t, ⟨hvalue, ht⟩, rfl⟩ := (BitText.accepts row [] b).1 hwalk
    rw [List.append_nil] at hshows
    exact ⟨t, final, hvalue, ht, hshows, hfinal⟩
  refine ⟨fun h h' heq => ?_, fun h => ?_⟩
  · obtain ⟨t, -, rfl, -⟩ := hread h
    obtain ⟨t', -, rfl, -⟩ := hread h'
    exact t.isSpelled_value.eq_of_toJson t'.isSpelled_value heq
  · obtain ⟨t, final, rfl, ht, hshows, hfinal⟩ := hread h
    refine ⟨t, final, Token.codesOf t.infixLine, Token.codesOf t.postfixLine, hshows, hfinal,
      Token.forall₂_codesOf ht.infixCodes, Token.forall₂_codesOf ht.postfixCodes, ?_, ?_, ?_⟩
    · exact congrArg some (codes_rowOf t.infixLine)
    · exact congrArg some (codes_rowOf t.postfixLine)
    · exact congrArg (some ∘ Json.text) ht.expression_eq

/-- A bit with two variables, one of which is described twice. -/
def respelled : BitText where
  head := ["B", "PIB", "3", "7", "1", "-1", "1", "1", "0", "3", "3", "3"]
  infixLine := ["10", "8", "11"]
  postfixLine := ["10", "11", "8"]
  vars := [["10", "WIRE(X)"], ["11", "ARCVAL(Y)"], ["10", "MEMORY(Z)"]]

/-- The same bit with other numerals, and without the description that is replaced. -/
def spelled : BitText where
  head := ["B", "PIB", "+3", "07", "+1", "-1", "1", "1", "0", "3", "3", "2"]
  infixLine := ["010", "8", "+11"]
  postfixLine := ["10", "11", "08"]
  vars := [["10", "MEMORY(Z)"], ["11", "ARCVAL(Y)"]]

theorem toJson_of_run_respelled :
    ∃ s s' t t' b b', script.run s = .ok b s' ∧ script.run t = .ok b' t' ∧ b.toJson = b'.toJson ∧
      b = b' ∧ b.toJson.member? "expression" = some (.text "MEMORY(Z)*ARCVAL(Y)") ∧
      ∃ (text : BitText) (final : Reading) (infixCodes postfixCodes : List UInt32),
        s.Shows text.calls final ∧ s'.Agrees final ∧
        b.toJson.member? "infix" = some (.list (infixCodes.map .ofUInt32)) ∧
        b.toJson.member? "rpn" = some (.list (postfixCodes.map .ofUInt32)) := by
  -- both texts can be written, and what is written is read
  have hread (t : BitText) (ht : t.WellFormed) (hadm : ∀ call ∈ t.calls, call.Admissible)
      (hwritable : ∀ call ∈ t.calls, call.Writable) :
      ∃ s s', script.run s = .ok t.value s' := by
    obtain ⟨trace, w, hperform⟩ :=
      exists_perform hadm hwritable (w := { keys := some mixedStart }) rfl
    obtain ⟨final, hshows, -⟩ := shows_of_perform hadm hperform (nofun : Roomy none)
    obtain ⟨s', hrun, -⟩ := exists_run_of_shows BitText.accepts ⟨rfl, ht⟩ hshows
    exact ⟨_, s', hrun⟩
  obtain ⟨s, s', hrun⟩ :=
    hread respelled (by decide +kernel) (by decide +kernel) (by decide +kernel)
  obtain ⟨t, t', hrun'⟩ :=
    hread spelled (by decide +kernel) (by decide +kernel) (by decide +kernel)
  have hjson : respelled.value.toJson = spelled.value.toJson := by rfl
  obtain ⟨text, final, infixCodes, postfixCodes, hshows, hfinal, -, -, hinfix, hpostfix, -⟩ :=
    toJson_of_run.2 hrun
  exact ⟨s, s', t, t', _, _, hrun, hrun', hjson, toJson_of_run.1 hrun hrun' hjson, by rfl,
    text, final, infixCodes, postfixCodes, hshows, hfinal, hinfix, hpostfix⟩

end ConfigBit

end ChipAtlas
