import ChipAtlas.Proofs.Cache.Taking
import ChipAtlas.Proofs.Data.Maps
import ChipAtlas.Proofs.Text.Lines

/-!
# Codecs that keep values

A codec keeps the values of a type if it reads back what it writes, in front of anything, and fails
on what is cut short. It cannot keep every value that can be thought of, since lengths are written
in eight bytes and the numbers of tiles in four. The values that it keeps are those that fit,
`Fits`. They are all the values that a machine holds: a text or a list in memory has fewer than 2^64
bytes, tiles are numbered by 32-bit words, and no table is made with more places than can be
counted. No weaker condition would do, for a codec gives values that fit only, whatever bytes it
reads.

A list is kept if its elements are, and so are the maps, which are lists of their entries. Inserting
the entries of a map again gives the map, since no key stands twice in one.

* `Codec.Keeps` — a codec keeps the values that fit, and gives no others;
* `Codec.keeps_text`, `Codec.keeps_int32`, … — the codecs of texts and numbers;
* `Codec.Keeps.list`, `Codec.Keeps.orderedMap`, `Codec.Keeps.table`, … — those of composed values.
-/

namespace ChipAtlas

variable {α β κ ν : Type}

/-! ### Values that fit -/

/-- A type with a condition on its values, that the byte form can carry them. -/
class Bounded (α : Type) where
  /-- The lengths and the numbers in a value can be written. -/
  Fits : α → Prop
  decidableFits : DecidablePred Fits

export Bounded (Fits)

attribute [reducible, instance] Bounded.decidableFits

namespace Bounded

/-- Every value fits. -/
@[reducible] def all : Bounded α where
  Fits _ := True
  decidableFits _ := inferInstance

instance : Bounded Bool := all
instance : Bounded UInt8 := all
instance : Bounded UInt32 := all
instance : Bounded Int32 := all

/-- The number of a tile. -/
instance : Bounded Nat where
  Fits n := n < 2 ^ 32
  decidableFits _ := inferInstance

instance : Bounded String where
  Fits s := s.utf8ByteSize < 2 ^ 64
  decidableFits _ := inferInstance

variable [Bounded α] [Bounded β] [Bounded κ] [Bounded ν]

instance : Bounded (List α) where
  Fits as := as.length < 2 ^ 64 ∧ ∀ a ∈ as, Fits a
  decidableFits _ := inferInstance

instance : Bounded (Array α) where
  Fits as := Fits as.toList
  decidableFits _ := inferInstance

instance : Bounded (Option α) where
  Fits o := ∀ a ∈ o, Fits a
  decidableFits _ := inferInstance

instance : Bounded (α × β) where
  Fits p := Fits p.1 ∧ Fits p.2
  decidableFits _ := inferInstance

instance : Bounded (OrderedMap κ ν) where
  Fits m := Fits m.entries
  decidableFits _ := inferInstance

instance : Bounded (SortedMap ν) where
  Fits m := Fits m.entries
  decidableFits _ := inferInstance

/-- A table that there can be, with entries that fit. Its size and the number of its entries are
bounded by its shape. -/
instance : Bounded (Table α) where
  Fits t := Codec.fitsTable t.rows t.cols ∧ ∀ a ∈ t.elems, Fits a
  decidableFits _ := inferInstance

end Bounded

namespace Codec

/-- **A codec keeps values**: those that fit are read back from what is written, and whatever is
read fits. -/
structure Keeps [Bounded α] (c : Codec α) : Prop where
  reads : ∀ a, Fits a → Reads c.take (c.put a) a
  fits : Yields c.take Fits

/-! ### Bytes, numbers and texts -/

theorem keeps_byte : byte.Keeps where
  reads b _ := reads_byte b
  fits := yields_byte

theorem keeps_nat32 : nat32.Keeps where
  reads _ h := reads_takeNat (.inl rfl) h
  fits := yields_takeNat (by decide)

theorem keeps_uint32 : uint32.Keeps where
  reads n _ := by
    have h := (reads_takeNat (.inl rfl) n.toNat_lt).map UInt32.ofNat
    rwa [UInt32.ofNat_toNat] at h
  fits := (yields_takeNat (by decide)).map fun _ _ => trivial

theorem unfold_fold (i : Int) : unfold (fold i) = i := by
  cases i with
  | ofNat n =>
    have hhalf : 2 * n / 2 = n := by omega
    rw [fold, unfold, if_pos (by omega), hhalf]
  | negSucc n =>
    have hhalf : (2 * n + 1) / 2 = n := by omega
    rw [fold, unfold, if_neg (by omega), hhalf]

theorem fold_toInt_lt (i : Int32) : fold i.toInt < 2 ^ 32 := by
  have hlow := i.le_toInt
  have hhigh := i.toInt_lt
  cases h : i.toInt with
  | ofNat n =>
    rw [h, Int.ofNat_eq_natCast] at hhigh
    rw [fold]
    omega
  | negSucc n =>
    rw [fold]
    omega

theorem keeps_int32 : int32.Keeps where
  reads i _ := by
    have h := (reads_takeNat (.inl rfl) (fold_toInt_lt i)).map fun n => Int32.ofInt (unfold n)
    rwa [unfold_fold, Int32.ofInt_toInt] at h
  fits := (yields_takeNat (by decide)).map fun _ _ => trivial

theorem keeps_flag : flag.Keeps where
  reads b _ := by
    cases b with
    | false => exact (reads_byte 0).bind (.pure false)
    | true => exact (reads_byte 1).bind (.pure true)
  fits := by
    refine yields_byte.bind fun b _ => ?_
    split
    · exact .pure trivial
    · exact .pure trivial
    · exact .failure

theorem keeps_text : text.Keeps where
  reads s h := by
    have hsize := reads_takeBytes (Text.utf8 s)
    rw [Text.length_utf8] at hsize
    refine (reads_takeNat (.inr rfl) h).bind ?_
    exact hsize.bind_nil (.lift (Text.fromUTF8?_utf8 s))
  fits := by
    refine (yields_takeNat (by decide)).bind fun count hcount => ?_
    refine (yields_takeBytes count).bind fun bytes hlength => ?_
    refine .lift fun s hs => ?_
    have hbytes := Text.utf8_of_fromUTF8? hs
    change s.utf8ByteSize < 2 ^ 64
    rw [← Text.length_utf8, hbytes, hlength]
    exact hcount

/-! ### Lists -/

section

variable [Bounded α] [Bounded β] [Bounded κ] [Bounded ν] {c : Codec α} {d : Codec β}

/-- The elements of a list are taken off one after the other. -/
theorem reads_takeMany (hc : c.Keeps) {as : List α} (h : ∀ a ∈ as, Fits a) :
    Reads (takeMany c as.length) (as.flatMap c.put) as := by
  induction as with
  | nil => exact .pure []
  | cons a as ih =>
    have htail := ih fun b hb => h b (List.mem_cons_of_mem a hb)
    exact (hc.reads a (h a List.mem_cons_self)).bind (htail.last (a :: ·))

theorem yields_takeMany (hc : c.Keeps) (count : Nat) :
    Yields (takeMany c count) fun as => as.length = count ∧ ∀ a ∈ as, Fits a := by
  induction count with
  | zero => exact .pure ⟨rfl, fun a ha => nomatch ha⟩
  | succ count ih =>
    refine hc.fits.bind fun a ha => ih.last fun as ⟨hlength, has⟩ => ?_
    exact ⟨congrArg Nat.succ hlength, List.forall_mem_cons.2 ⟨ha, has⟩⟩

theorem Keeps.list (hc : c.Keeps) : (list c).Keeps where
  reads _ h := (reads_takeNat (.inr rfl) h.1).bind (reads_takeMany hc h.2)
  fits := by
    refine (yields_takeNat (by decide)).bind fun count hcount => ?_
    exact (yields_takeMany hc count).mono fun as ⟨hlength, has⟩ => ⟨hlength ▸ hcount, has⟩

theorem Keeps.array (hc : c.Keeps) : (array c).Keeps where
  reads as h := (hc.list.reads as.toList h).map List.toArray
  fits := hc.list.fits.map fun _ h => h

theorem Keeps.option (hc : c.Keeps) : (option c).Keeps where
  reads o h := by
    cases o with
    | none => exact (reads_byte 0).bind (.pure none)
    | some a => exact (reads_byte 1).bind ((hc.reads a (h a rfl)).last some)
  fits := by
    refine yields_byte.bind fun b _ => ?_
    split
    · exact .pure fun a ha => nomatch ha
    · refine hc.fits.last fun a ha b hb => ?_
      obtain rfl := Option.some.inj hb
      exact ha
    · exact .failure

theorem Keeps.pair (hc : c.Keeps) (hd : d.Keeps) : (pair c d).Keeps where
  reads p h := (hc.reads p.1 h.1).bind ((hd.reads p.2 h.2).last (Prod.mk p.1))
  fits := hc.fits.bind fun _ ha => hd.fits.last fun _ hb => ⟨ha, hb⟩

/-! ### Maps and tables -/

theorem Keeps.orderedMap [DecidableEq κ] {ck : Codec κ} {cv : Codec ν} (hk : ck.Keeps)
    (hv : cv.Keeps) : (orderedMap ck cv).Keeps where
  reads m h := by
    have hentries := ((hk.pair hv).list.reads m.entries h).map OrderedMap.ofList
    rwa [OrderedMap.ofList_entries] at hentries
  fits := (hk.pair hv).list.fits.map fun entries ⟨hlength, hfits⟩ =>
    ⟨Nat.lt_of_le_of_lt (OrderedMap.length_ofList_le entries) hlength,
      fun e he => hfits e (OrderedMap.mem_of_mem_ofList he)⟩

theorem Keeps.sortedMap {cv : Codec ν} (hv : cv.Keeps) : (sortedMap cv).Keeps where
  reads m h := by
    have hentries := ((keeps_text.pair hv).list.reads m.entries h).map SortedMap.ofList
    rwa [SortedMap.ofList_entries] at hentries
  fits := (keeps_text.pair hv).list.fits.map fun entries ⟨hlength, hfits⟩ =>
    ⟨Nat.lt_of_le_of_lt (SortedMap.length_ofList_le entries) hlength,
      fun e he => hfits e (SortedMap.mem_of_mem_ofList he)⟩

/-- The rows, the columns and the entries of a table that there can be are counted in eight
bytes. -/
theorem lt_of_fitsTable {rows cols : Nat} (h : fitsTable rows cols) :
    rows < 2 ^ 64 ∧ cols < 2 ^ 64 ∧ rows * cols < 2 ^ 64 := by
  have hbound : max 1 rows * max 1 cols < 2 ^ 63 := of_decide_eq_true h
  have hrows : rows * 1 ≤ max 1 rows * max 1 cols :=
    Nat.mul_le_mul (Nat.le_max_right 1 rows) (Nat.le_max_left 1 cols)
  have hcols : 1 * cols ≤ max 1 rows * max 1 cols :=
    Nat.mul_le_mul (Nat.le_max_left 1 rows) (Nat.le_max_right 1 cols)
  have hboth : rows * cols ≤ max 1 rows * max 1 cols :=
    Nat.mul_le_mul (Nat.le_max_right 1 rows) (Nat.le_max_right 1 cols)
  omega

theorem Keeps.table (hc : c.Keeps) : (table c).Keeps where
  reads t h := by
    obtain ⟨hfits, helems⟩ := h
    obtain ⟨hrows, hcols, hsize⟩ := lt_of_fitsTable hfits
    have harray : Fits t.elems := by
      refine ⟨?_, fun a ha => helems a (Array.mem_toList_iff.1 ha)⟩
      rw [Array.length_toList, t.size_eq]
      exact hsize
    simp only [Codec.table, List.append_assoc]
    refine (reads_byte tableForm).bind ?_
    rw [if_neg (not_not_intro rfl)]
    refine (reads_takeNat (.inr rfl) hrows).bind ((reads_takeNat (.inr rfl) hcols).bind ?_)
    refine (hc.array.reads t.elems harray).bind_nil ?_
    rw [if_neg (by simp [hfits]), dif_pos t.size_eq]
    exact .pure t
  fits := by
    refine yields_byte.bind fun form _ => ?_
    split
    · exact .failure
    · refine (yields_takeNat (by decide)).bind fun rows _ => ?_
      refine (yields_takeNat (by decide)).bind fun cols _ => ?_
      refine hc.array.fits.bind fun elems helems => ?_
      -- the size is looked at before the number of entries
      cases hfits : fitsTable rows cols with
      | false => exact .failure
      | true =>
        by_cases hsize : elems.size = rows * cols
        · rw [if_neg (by decide), dif_pos hsize]
          exact .pure ⟨hfits, fun a ha => helems.2 a (Array.mem_toList_iff.2 ha)⟩
        · rw [if_neg (by decide), dif_neg hsize]
          exact .failure

/-! ### Alternatives -/

theorem reads_case {n : Nat} (h : n < 256 ^ 4) : Reads (takeNat 4) (putCase n) n :=
  reads_takeNat (.inl rfl) h

theorem keeps_oneOf [DecidableEq α] {values : List α} (hvalues : ∀ a, a ∈ values)
    (hlength : values.length < 2 ^ 32) (hall : ∀ a : α, Fits a) : (oneOf values).Keeps where
  reads a _ := by
    have hlt := List.idxOf_lt_length_of_mem (hvalues a)
    refine (reads_case (Nat.lt_trans hlt hlength)).bind_nil ?_
    exact .lift (by rw [List.getElem?_eq_getElem hlt, List.getElem_idxOf])
  fits := yields_takeNat (by decide) |>.bind fun _ _ => .lift fun a _ => hall a

end

end Codec

end ChipAtlas
