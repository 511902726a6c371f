import Osgods.Lib.Strings
import Osgods.Library.Numeral

/-!
# Numbers as text (`itoa` of `lib.c`)

`itoa` divides the digits off from the last to the first and then reverses them in place.
-/

namespace Osgods

open Loop Numeral

/-- `"0123456789ABCDEFGHIJKLMNOPQRSTUVWXYZ"`. -/
def lookup : List Byte :=
  (List.range 10).map (fun d => BitVec.ofNat 8 (0x30 + d)) ++
    (List.range 26).map (fun d => BitVec.ofNat 8 (0x41 + d))

def digitChar (d : ℕ) : Byte := lookup.getD d 0#8

/-- The state of the loop of `itoa`; the pointer `newbuf` is its offset. -/
structure Conversion where
  buf    : Buffer Byte
  newbuf : ℕ
  newval : Word

/-- One turn of the loop. -/
def Conversion.turn (radix : Word) (c : Conversion) : Conversion where
  buf    := c.buf.store c.newbuf (digitChar (c.newval % radix).toNat)
  newbuf := c.newbuf + 1
  newval := c.newval / radix

/-- `itoa` into the buffer from offset `o` on. -/
def itoa (value : Word) (o : ℕ) (radix : Word) (buf : Buffer Byte) (fuel : ℕ) :
    Option (Buffer Byte) :=
  if value = 0#32 then some ((buf.store o 0x30).store (o + 1) 0)
  else
    (loop (fun c => 0#32 < c.newval) (fun c => some (Conversion.turn radix c)) fuel
      ⟨buf, o, value⟩).bind fun c => strrev o (c.buf.store c.newbuf 0) fuel

/-- The canonical numeral, as text. -/
def numeral (radix n : ℕ) : List Byte := (digits radix n).map digitChar

/-! ### Digits -/

lemma digitChar_ne_zero {d : ℕ} (h : d < 36) : digitChar d ≠ 0 := by
  have hall : ∀ d : Fin 36, digitChar d ≠ 0 := by decide
  exact hall ⟨d, h⟩

/-- The digit that a character stands for. -/
def digitValue (b : Byte) : ℕ := lookup.idxOf b

lemma digitValue_digitChar {d : ℕ} (h : d < 36) : digitValue (digitChar d) = d := by
  have hall : ∀ d : Fin 36, digitValue (digitChar d) = d := by decide
  exact hall ⟨d, h⟩

section

variable {value radix : Word} {n o : ℕ} {buf : Buffer Byte}

lemma digit_lt {r : ℕ} (hlow : 1 < r) (hhigh : r ≤ 36) {d : ℕ} (hd : d ∈ digits r n) : d < 36 :=
  lt_of_lt_of_le ((canonical_digits hlow n).digit_lt d hd) hhigh

lemma zero_not_mem_numeral {r : ℕ} (hlow : 1 < r) (hhigh : r ≤ 36) (n : ℕ) : 0 ∉ numeral r n := by
  intro hmem
  obtain ⟨d, hd, hzero⟩ := List.mem_map.mp hmem
  exact digitChar_ne_zero (digit_lt hlow hhigh hd) hzero

/-- A number can be read back from its text. -/
lemma value_numeral {r : ℕ} (hlow : 1 < r) (hhigh : r ≤ 36) (n : ℕ) :
    Numeral.value r ((numeral r n).map digitValue) = n := by
  have hback : (numeral r n).map digitValue = digits r n := by
    rw [numeral, List.map_map]
    refine (List.map_congr_left fun d hd => ?_).trans (List.map_id _)
    exact digitValue_digitChar (digit_lt hlow hhigh hd)
  rw [hback, value_digits]

/-! ### The loop -/

/-- The state of the loop after `k` turns. -/
def Conversion.after (buf : Buffer Byte) (o : ℕ) (value radix : Word) (k : ℕ) : Conversion where
  buf    := buf.storeAll o (((Nat.digits radix.toNat value.toNat).map digitChar).take k)
  newbuf := o + k
  newval := BitVec.ofNat 32 (value.toNat / radix.toNat ^ k)

lemma div_pow_toNat (value radix : Word) (k : ℕ) :
    (BitVec.ofNat 32 (value.toNat / radix.toNat ^ k)).toNat = value.toNat / radix.toNat ^ k := by
  rw [BitVec.toNat_ofNat]
  exact Nat.mod_eq_of_lt (lt_of_le_of_lt (Nat.div_le_self _ _) value.isLt)

/-- Every turn divides off one more digit. -/
lemma turn_after (hlow : 2 ≤ radix.toNat) {k : ℕ}
    (hk : k < (Nat.digits radix.toNat value.toNat).length) :
    (Conversion.after buf o value radix k).turn radix =
      Conversion.after buf o value radix (k + 1) := by
  have hdigit : (Nat.digits radix.toNat value.toNat)[k] =
      value.toNat / radix.toNat ^ k % radix.toNat := by
    rw [← List.getD_eq_getElem _ 0 hk, Nat.getD_digits _ _ hlow]
  have htake : (((Nat.digits radix.toNat value.toNat).map digitChar).take (k + 1)) =
      ((Nat.digits radix.toNat value.toNat).map digitChar).take k ++
        [digitChar (value.toNat / radix.toNat ^ k % radix.toNat)] := by
    rw [← List.take_append_getElem (by simpa using hk), List.getElem_map, hdigit]
  simp only [Conversion.turn, Conversion.after, htake, Conversion.mk.injEq]
  refine ⟨?_, Nat.add_assoc _ _ _, ?_⟩
  · rw [Buffer.storeAll_concat, List.length_take_of_le (by simpa using hk.le), BitVec.toNat_umod,
      div_pow_toNat]
  · apply BitVec.eq_of_toNat_eq
    rw [BitVec.toNat_udiv, div_pow_toNat, div_pow_toNat, Nat.div_div_eq_div_mul, Nat.pow_succ]

variable (buf o value) in
lemma ends_conversion (hlow : 2 ≤ radix.toNat) :
    Ends (fun n => loop (fun c => 0#32 < c.newval) (fun c => some (Conversion.turn radix c)) n
      ⟨buf, o, value⟩)
        (Conversion.after buf o value radix (Nat.digits radix.toNat value.toNat).length) := by
  have hguard : ∀ k, 0#32 < (Conversion.after buf o value radix k).newval ↔
      k < (Nat.digits radix.toNat value.toNat).length := by
    intro k
    rw [← div_pow_pos_iff hlow, BitVec.lt_def]
    exact iff_of_eq (congrArg (0 < ·) (div_pow_toNat value radix k))
  have hstart : Conversion.after buf o value radix 0 = ⟨buf, o, value⟩ := by
    simp [Conversion.after, Buffer.storeAll]
  rw [← hstart]
  refine ends_loop_of_seq _ _ _ _ (fun k hk => ⟨(hguard k).mpr hk, turn_after hlow hk⟩) ?_
  exact (hguard _).not.mpr (lt_irrefl _)

variable (radix) in
/-- `itoa` leaves the canonical numeral, and stores nothing in front of it or behind its
terminator. -/
theorem ends_itoa (hlow : 2 ≤ radix.toNat) (hhigh : radix.toNat ≤ 36) (value : Word) (o : ℕ)
    (buf : Buffer Byte) : ∃ t, Ends (itoa value o radix buf) t ∧
      t.Holds o (numeral radix.toNat value.toNat) ∧ (∀ j < o, t.bytes j = buf.bytes j) ∧
        ∀ n, buf.Inside n → o + (numeral radix.toNat value.toNat).length < n → t.Inside n := by
  have hnul := zero_not_mem_numeral hlow hhigh value.toNat
  by_cases hzero : value = 0#32
  · have hnumeral : numeral radix.toNat value.toNat = [0x30] := by
      rw [hzero]
      rfl
    rw [hnumeral] at hnul ⊢
    refine ⟨(buf.store o 0x30).store (o + 1) 0, ?_, Buffer.holds_storeAll hnul, fun j hj => ?_,
      fun n hn hlen => ?_⟩
    · exact (Ends.pure _).congr fun n => if_pos hzero
    · rw [Buffer.store_bytes_of_ne (by omega), Buffer.store_bytes_of_ne (by omega)]
    · rw [List.length_singleton] at hlen
      rw [Buffer.inside_store, Buffer.inside_store]
      exact ⟨hlen, by omega, hn⟩
  · have hne : value.toNat ≠ 0 := fun h => hzero (BitVec.eq_of_toNat_eq h)
    have hnumeral : numeral radix.toNat value.toNat =
        ((Nat.digits radix.toNat value.toNat).map digitChar).reverse := by
      rw [numeral, digits, if_neg hne, List.map_reverse]
    rw [hnumeral] at hnul ⊢
    rw [List.length_reverse, List.length_map]
    have hconv := ends_conversion value o buf hlow
    rw [Conversion.after, ← List.length_map (f := digitChar), List.take_length] at hconv
    have hholds := Buffer.holds_storeAll (b := buf) (i := o) (mt List.mem_reverse.mpr hnul)
    obtain ⟨t, ht, hrev, hframe, hinside⟩ := ends_strrev hholds
    refine ⟨t, ?_, hrev, fun j hj => ?_, fun n hn hlen => hinside n ?_ ?_⟩
    · exact (hconv.bind ht).congr fun n => if_neg hzero
    · rw [hframe j (Or.inl hj), Buffer.store_bytes_of_ne (by omega),
        Buffer.storeAll_bytes_of_lt hj]
    · rw [Buffer.inside_store, Buffer.inside_storeAll, List.length_map]
      exact ⟨hlen, fun _ => hlen.le, hn⟩
    · rw [List.length_map]
      exact hlen.le

end

/-! ### The canonical numeral -/

/-- For every radix from 2 to 36, `itoa` leaves the canonical numeral of any value within 33 bytes,
and two values never have the same one. -/
theorem itoa_numeral {radix : Word} (hlow : 2 ≤ radix.toInt) (hhigh : radix.toInt ≤ 36)
    (bytes : ℕ → Byte) :
    (∀ value : Word, ∃ t ds, Ends (itoa value 0 radix (.fresh bytes)) t ∧ t.Inside 33 ∧
      t.Holds 0 (ds.map digitChar) ∧ Canonical radix.toNat ds ∧
        Numeral.value radix.toNat ds = value.toNat) ∧
    ∀ (v w : Word) (t u : Buffer Byte) (l : List Byte),
      Ends (itoa v 0 radix (.fresh bytes)) t → Ends (itoa w 0 radix (.fresh bytes)) u →
        t.Holds 0 l → u.Holds 0 l → v = w := by
  have hint : radix.toInt = radix.toNat := by
    rw [BitVec.toInt_eq_toNat_cond] at hhigh ⊢
    split_ifs at hhigh ⊢ with hsmall
    · rfl
    · have := radix.isLt
      rw [BitVec.toInt_eq_toNat_cond, if_neg hsmall] at hlow
      omega
  have hlow' : 2 ≤ radix.toNat := by omega
  have hhigh' : radix.toNat ≤ 36 := by omega
  constructor
  · intro value
    obtain ⟨t, ht, hholds, -, hinside⟩ := ends_itoa radix hlow' hhigh' value 0 (.fresh bytes)
    refine ⟨t, digits radix.toNat value.toNat, ht, hinside 33 (Buffer.inside_fresh _) ?_, hholds,
      canonical_digits hlow' _, value_digits _ _⟩
    have hpow : value.toNat < radix.toNat ^ 32 :=
      lt_of_lt_of_le value.isLt (Nat.pow_le_pow_left hlow' 32)
    have hlen := length_digits_le hlow' hpow (by decide)
    rw [numeral, List.length_map]
    omega
  · intro v w t u l ht hu htl hul
    obtain ⟨t', ht', hnumeral, -, -⟩ := ends_itoa radix hlow' hhigh' v 0 (.fresh bytes)
    obtain ⟨u', hu', hnumeral', -, -⟩ := ends_itoa radix hlow' hhigh' w 0 (.fresh bytes)
    obtain rfl := ht.unique ht'
    obtain rfl := hu.unique hu'
    have heq : numeral radix.toNat v.toNat = numeral radix.toNat w.toNat :=
      (hnumeral.unique htl).trans (hnumeral'.unique hul).symm
    apply BitVec.eq_of_toNat_eq
    rw [← value_numeral hlow' hhigh' v.toNat, heq, value_numeral hlow' hhigh']

/-- 255 in hexadecimal. -/
theorem itoa_numeral_small : ∃ t ds, Ends (itoa 255 0 16 (.fresh fun _ => 0)) t ∧ t.Inside 33 ∧
    t.Holds 0 (ds.map digitChar) ∧ Numeral.value 16 ds = 255 := by
  obtain ⟨hall, -⟩ := @itoa_numeral 16 (by decide) (by decide) fun _ => 0
  obtain ⟨t, ds, ht, hinside, hholds, -, hvalue⟩ := hall 255
  exact ⟨t, ds, ht, hinside, hholds, hvalue⟩

end Osgods
