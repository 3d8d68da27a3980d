import ChipAtlas.Json

/-!
# What JSON values say

An export is read by the names of its members and by its numbers. No two numbers of a type are
exported alike.

* `Json.member?` — the member of an object with a name;
* `Json.ofUInt32_inj`, `Json.ofInt32_inj` — the numbers.
-/

namespace ChipAtlas

namespace Json

/-- The member of an object with a name. -/
def member? (name : String) : Json → Option Json
  | object members => members.lookup name
  | _ => none

theorem ofUInt32_inj {m n : UInt32} : ofUInt32 m = ofUInt32 n ↔ m = n := by
  rw [ofUInt32, ofUInt32, number.injEq, UInt32.toUInt64_inj]
  exact and_iff_right rfl

/-- The sign of a number is its first bit. -/
theorem decide_neg_eq_msb (i : Int32) : decide (i < 0) = i.toBitVec.msb := by
  rw [BitVec.msb_eq_toInt]
  exact decide_eq_decide.2 Int32.lt_iff_toInt_lt

/-- Numbers that are exported alike are the same, also where the least number is among them. -/
theorem ofInt32_inj {i j : Int32} : ofInt32 i = ofInt32 j ↔ i = j := by
  refine ⟨fun h => ?_, congrArg _⟩
  obtain ⟨hsign, hmagnitude⟩ := number.inj h
  have habs : i.abs = j.abs := by
    have hwide : i.abs.toInt64 = j.abs.toInt64 := congrArg UInt64.toInt64 hmagnitude
    rw [← Int32.toInt_inj, ← Int32.toInt_toInt64, hwide, Int32.toInt_toInt64]
  have hbits : i.toBitVec.abs = j.toBitVec.abs := congrArg Int32.toBitVec habs
  -- with one sign, both numbers are negated or neither is
  rw [decide_neg_eq_msb, decide_neg_eq_msb] at hsign
  rw [BitVec.abs, BitVec.abs, hsign] at hbits
  rw [← Int32.toBitVec_inj]
  split at hbits
  · exact BitVec.neg_inj.1 hbits
  · exact hbits

end Json

end ChipAtlas
