import ChipAtlas.Cache.Codec
import Mathlib.Algebra.Group.Nat.Defs
import Mathlib.Data.List.Basic

/-!
# Taking values off the front of bytes

A value has no mark at its end: where it ends is known only by taking it. So a writer and a reader
of a type agree if the reader, in front of what was written and anything behind it, gives the value
and leaves what is behind. A reader that is cut short must say so. Both are one relation here,
`Reads`, since a sequence needs both of its first part at once: a cut lies in the first part, or
behind it, and then the first part has been taken and the second one is cut.

The other direction does not ask where the bytes came from: `Yields` says what is known of any value
that a reader gives.

* `Reads.bind`, `Yields.bind` — a sequence of two readers;
* `Codec.reads_takeBytes`, `Codec.reads_takeNat` — so many bytes, and a number behind its mark;
* `Codec.yields_takeNat` — a number that is taken is one of the given width.
-/

namespace ChipAtlas

variable {α β : Type}

/-! ### Numbers as bytes -/

/-- Bytes stand for a number below the next power of 256. -/
theorem ofLittleEndian_lt (bytes : List UInt8) : ofLittleEndian bytes < 256 ^ bytes.length := by
  induction bytes with
  | nil => simp [ofLittleEndian]
  | cons b rest ih =>
    have hb := b.toNat_lt
    rw [ofLittleEndian, List.length_cons, Nat.pow_succ]
    omega

/-- A number that fits into the given number of bytes is what they stand for. -/
theorem ofLittleEndian_littleEndian {width n : Nat} (h : n < 256 ^ width) :
    ofLittleEndian (littleEndian width n) = n := by
  induction width generalizing n with
  | zero => rw [littleEndian, ofLittleEndian]; omega
  | succ width ih =>
    rw [Nat.pow_succ] at h
    have hlow : (UInt8.ofNat n).toNat = n % 256 := by simp
    rw [littleEndian, ofLittleEndian, ih (by omega), hlow]
    omega

/-! ### Readers -/

/-- **A reader takes a value off bytes**: with anything behind them it gives the value and leaves
what is behind, and on a front of them that is not the whole it fails. -/
structure Reads (t : Take α) (bytes : List UInt8) (a : α) : Prop where
  whole : ∀ rest, t.run (.plain (bytes ++ rest)) = some (a, .plain rest)
  cut : ∀ front, front <+: bytes → front ≠ bytes → t.run (.plain front) = none

/-- Whatever a reader gives on bytes at hand has a property, and it leaves bytes at hand. -/
def Yields (t : Take α) (P : α → Prop) : Prop :=
  ∀ bytes a s, t.run (.plain bytes) = some (a, s) → (∃ rest, s = .plain rest) ∧ P a

/-! ### Sequences -/

namespace Reads

theorem pure (a : α) : Reads (Pure.pure a) [] a where
  whole _ := rfl
  cut _ hfront hne := absurd (List.prefix_nil.1 hfront) hne

/-- **A sequence of two readers** takes the bytes of the first and then those of the second. -/
theorem bind {t : Take α} {f : α → Take β} {bytes bytes' : List UInt8} {a : α} {b : β}
    (first : Reads t bytes a) (second : Reads (f a) bytes' b) :
    Reads (t >>= f) (bytes ++ bytes') b where
  whole rest := by
    rw [StateT.run_bind, List.append_assoc, first.whole]
    exact second.whole rest
  cut front hfront hne := by
    rw [StateT.run_bind]
    by_cases hbehind : bytes <+: front
    · -- the cut lies behind the first part, which is taken
      obtain ⟨mid, rfl⟩ := hbehind
      have hmid : mid <+: bytes' := (List.prefix_append_right_inj bytes).1 hfront
      have hne' : mid ≠ bytes' := fun heq => hne (by rw [heq])
      rw [first.whole]
      exact second.cut mid hmid hne'
    · have hinside : front <+: bytes :=
        (List.prefix_or_prefix_of_prefix hfront (List.prefix_append bytes bytes')).resolve_right
          hbehind
      have hne' : front ≠ bytes := fun heq => hbehind (heq ▸ List.prefix_rfl)
      rw [first.cut front hinside hne']
      rfl

/-- What comes behind the last bytes of a sequence takes none. -/
theorem bind_nil {t : Take α} {f : α → Take β} {bytes : List UInt8} {a : α} {b : β}
    (first : Reads t bytes a) (second : Reads (f a) [] b) : Reads (t >>= f) bytes b := by
  rw [← List.append_nil bytes]
  exact first.bind second

/-- The last reader of a sequence, whose value is put in its place. -/
theorem last {t : Take α} {bytes : List UInt8} {a : α} (h : Reads t bytes a) (f : α → β) :
    Reads (t >>= fun a => Pure.pure (f a)) bytes (f a) := h.bind_nil (pure (f a))

theorem map {t : Take α} {bytes : List UInt8} {a : α} (h : Reads t bytes a) (f : α → β) :
    Reads (f <$> t) bytes (f a) := h.last f

/-- What needs no bytes takes none. -/
theorem lift {o : Option α} {a : α} (h : o = some a) : Reads (liftM o) [] a := by
  rw [h]
  exact pure a

end Reads

namespace Yields

theorem pure {a : α} {P : α → Prop} (h : P a) : Yields (Pure.pure a) P := by
  intro bytes b s hrun
  obtain ⟨rfl, rfl⟩ := Prod.mk.inj (Option.some.inj hrun)
  exact ⟨⟨bytes, rfl⟩, h⟩

theorem mono {t : Take α} {P Q : α → Prop} (h : Yields t P) (hPQ : ∀ a, P a → Q a) :
    Yields t Q := fun bytes a s hrun => ⟨(h bytes a s hrun).1, hPQ a (h bytes a s hrun).2⟩

theorem failure {P : α → Prop} : Yields (Alternative.failure : Take α) P := by
  intro bytes a s hrun
  exact nomatch hrun

theorem bind {t : Take α} {f : α → Take β} {P : α → Prop} {Q : β → Prop} (first : Yields t P)
    (second : ∀ a, P a → Yields (f a) Q) : Yields (t >>= f) Q := by
  intro bytes b s hrun
  rw [StateT.run_bind] at hrun
  obtain ⟨⟨a, s'⟩, hfirst, hsecond⟩ := Option.bind_eq_some_iff.1 hrun
  obtain ⟨⟨rest, rfl⟩, ha⟩ := first bytes a s' hfirst
  exact second a ha rest b s hsecond

theorem last {t : Take α} {f : α → β} {P : α → Prop} {Q : β → Prop} (h : Yields t P)
    (hf : ∀ a, P a → Q (f a)) : Yields (t >>= fun a => Pure.pure (f a)) Q :=
  h.bind fun a ha => .pure (hf a ha)

theorem map {t : Take α} {f : α → β} {P : α → Prop} {Q : β → Prop} (h : Yields t P)
    (hf : ∀ a, P a → Q (f a)) : Yields (f <$> t) Q := h.last hf

theorem lift {o : Option α} {P : α → Prop} (h : ∀ a, o = some a → P a) : Yields (liftM o) P := by
  cases o with
  | none => exact failure
  | some a => exact pure (h a rfl)

end Yields

/-! ### Bytes and numbers -/

namespace Codec

/-- So many bytes are taken off if there are so many. -/
theorem reads_takeBytes (bytes : List UInt8) : Reads (takeBytes bytes.length) bytes bytes where
  whole rest := by
    change Source.read? bytes.length (.plain (bytes ++ rest)) = _
    simp [Source.read?]
  cut front hfront hne := by
    have hle := hfront.length_le
    have hlt : front.length ≠ bytes.length := fun heq => hne (hfront.eq_of_length heq)
    change Source.read? bytes.length (.plain front) = none
    simp only [Source.read?, List.splitAt_eq, List.length_take]
    rw [if_neg (by omega)]

theorem yields_takeBytes (count : Nat) : Yields (takeBytes count) (·.length = count) := by
  intro bytes taken s hrun
  change Source.read? count (.plain bytes) = _ at hrun
  simp only [Source.read?, List.splitAt_eq] at hrun
  split at hrun
  next hlength =>
    obtain ⟨rfl, rfl⟩ := Prod.mk.inj (Option.some.inj hrun)
    exact ⟨⟨_, rfl⟩, hlength⟩
  next => exact nomatch hrun

theorem reads_byte (b : UInt8) : Reads byte.take [b] b :=
  (reads_takeBytes [b]).bind_nil (.pure b)

theorem yields_byte : Yields byte.take fun _ => True := by
  refine (yields_takeBytes 1).bind fun bytes hlength => ?_
  obtain ⟨b, rfl⟩ := List.length_eq_one_iff.1 hlength
  exact .pure trivial

/-- A number behind the mark of its width, which has to be allowed. -/
theorem reads_marked {mark : UInt8} {width maxWidth n : Nat} (hmark : ¬mark < 251)
    (hwidth : markedWidth mark = some width) (hle : width ≤ maxWidth) (hn : n < 256 ^ width) :
    Reads (takeNat maxWidth) (mark :: littleEndian width n) n := by
  have hbytes := reads_takeBytes (littleEndian width n)
  rw [length_littleEndian] at hbytes
  -- the byte of the mark, the width it stands for, and the bytes behind it
  refine (reads_byte mark).bind ?_
  rw [if_neg hmark]
  refine (Reads.lift hwidth).bind ?_
  rw [if_pos hle]
  have hvalue := hbytes.last ofLittleEndian
  rwa [ofLittleEndian_littleEndian hn] at hvalue

/-- **A number is taken off its bytes** if it fits into the width that is allowed. -/
theorem reads_takeNat {maxWidth n : Nat} (hwidth : maxWidth = 4 ∨ maxWidth = 8)
    (hn : n < 256 ^ maxWidth) : Reads (takeNat maxWidth) (putNat n) n := by
  have hmax : 4 ≤ maxWidth := by omega
  unfold putNat
  split
  next hsmall =>
    -- a small number is a byte of its own
    have hvalue : (UInt8.ofNat n).toNat = n :=
      UInt8.toNat_ofNat_of_lt (by simp only [UInt8.size]; omega)
    have hbyte : UInt8.ofNat n < 251 := by
      rw [UInt8.lt_iff_toNat_lt, hvalue]
      exact hsmall
    refine (reads_byte (.ofNat n)).bind_nil ?_
    rw [if_pos hbyte, hvalue]
    exact .pure n
  next =>
    split
    next h16 => exact reads_marked (by decide) rfl (by omega) h16
    next =>
      split
      next h32 => exact reads_marked (by decide) rfl hmax h32
      next h32 =>
        -- what needs more than four bytes is allowed eight
        obtain rfl : maxWidth = 8 := hwidth.resolve_left fun h4 => h32 (by subst h4; exact hn)
        exact reads_marked (by decide) rfl Nat.le.refl hn

/-- **A number that is taken** fits into the width that is allowed. -/
theorem yields_takeNat {maxWidth : Nat} (hpos : 0 < maxWidth) :
    Yields (takeNat maxWidth) (· < 256 ^ maxWidth) := by
  have hbound : ∀ width, width ≤ maxWidth → 256 ^ width ≤ 256 ^ maxWidth :=
    fun width hle => Nat.pow_le_pow_right (by decide) hle
  refine yields_byte.bind fun first _ => ?_
  split
  · -- a number of its own byte
    have hbyte : first.toNat < 256 ^ 1 := first.toNat_lt
    exact .pure (Nat.lt_of_lt_of_le hbyte (hbound 1 hpos))
  · refine (Yields.lift fun width _ => trivial).bind fun width _ => ?_
    split
    next hle =>
      refine (yields_takeBytes width).last fun bytes hlength => ?_
      have hvalue := ofLittleEndian_lt bytes
      rw [hlength] at hvalue
      exact Nat.lt_of_lt_of_le hvalue (hbound width hle)
    next => exact .failure

end Codec

end ChipAtlas
