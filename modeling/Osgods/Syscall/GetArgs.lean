import Osgods.Process.ParseCmd

/-!
# The system call `getargs`

The range test adds a signed address and a signed count with wrap-around, and `strncpy` takes the
same count as unsigned. A store that faults is listed like any other.
-/

namespace Osgods

open Loop ByteCopy

/-- `getargs` in a process with an argument: the value returned, and the stores. -/
def getargs (argument : ℕ → Byte) (buf nbytes : Word) (fuel : ℕ) :
    Option (ℤ × List (Word × Byte)) :=
  if buf = 0#32 ∨ nbytes = 0#32 then some (-1, [])
  else if (BitVec.ofNat 32 (mb132 - 4)).slt (buf + nbytes) ∨ buf.slt (BitVec.ofNat 32 mb128) then
    some (-1, [])
  else if argument 0 = 0 then some (-1, [])
  else (strncpy buf argument nbytes fuel).map fun stores => (0, stores)

/-- Both tests of the range are passed. -/
def Admitted (buf nbytes : Word) : Prop :=
  nbytes ≠ 0#32 ∧ (mb128 : ℤ) ≤ buf.toInt ∧ (buf + nbytes).toInt ≤ mb132 - 4

instance (buf nbytes : Word) : Decidable (Admitted buf nbytes) :=
  inferInstanceAs (Decidable (_ ∧ _))

section

variable {argument : ℕ → Byte} {l : List Byte} {buf nbytes : Word}

variable (argument) in
lemma ends_getargs (hargument : ∀ i ≤ l.length, argument i = l.getD i 0) (hl : 0 ∉ l)
    (hne : l ≠ []) (h : Admitted buf nbytes) :
    Ends (getargs argument buf nbytes) (0, fill buf nbytes.toNat fun i => l.getD i 0) := by
  obtain ⟨hcount, hlow, hhigh⟩ := h
  have hnull : ¬ (buf = 0#32 ∨ nbytes = 0#32) := by
    rintro (rfl | hzero)
    · exact absurd hlow (by decide)
    · exact hcount hzero
  have hrange : ¬ ((BitVec.ofNat 32 (mb132 - 4)).slt (buf + nbytes) ∨
      buf.slt (BitVec.ofNat 32 mb128)) := by
    have hmb128 : (BitVec.ofNat 32 mb128).toInt = mb128 := by decide
    have hmb132 : (BitVec.ofNat 32 (mb132 - 4)).toInt = mb132 - 4 := by decide
    simp only [BitVec.slt_eq_decide, decide_eq_true_eq, hmb128, hmb132]
    omega
  have hfirst : argument 0 ≠ 0 := by
    rw [hargument 0 (Nat.zero_le _)]
    exact Scan.getD_ne_of_not_mem hl (List.length_pos_iff.mpr hne)
  refine ((ends_strncpy hargument hl buf nbytes).map fun stores => ((0 : ℤ), stores)).congr
    fun n => ?_
  rw [getargs, if_neg hnull, if_neg hrange, if_neg hfirst]

lemma ends_getargs_fail (argument : ℕ → Byte) (h : ¬ Admitted buf nbytes) :
    Ends (getargs argument buf nbytes) (-1, []) := by
  refine (Ends.pure ((-1 : ℤ), ([] : List (Word × Byte)))).congr fun n => ?_
  unfold getargs
  by_cases hnull : buf = 0#32 ∨ nbytes = 0#32
  · rw [if_pos hnull]
  · have hrange : (BitVec.ofNat 32 (mb132 - 4)).slt (buf + nbytes) ∨
        buf.slt (BitVec.ofNat 32 mb128) := by
      have hmb128 : (BitVec.ofNat 32 mb128).toInt = mb128 := by decide
      have hmb132 : (BitVec.ofNat 32 (mb132 - 4)).toInt = mb132 - 4 := by decide
      simp only [BitVec.slt_eq_decide, decide_eq_true_eq, hmb128, hmb132]
      by_contra hin
      exact h ⟨fun hzero => hnull (Or.inr hzero), by omega, by omega⟩
    rw [if_neg hnull, if_pos hrange]

/-! ### Where the stores go -/

/-- A successful call stores only to the bytes that the caller named, in its own page, and a failed
one does not store. -/
structure StoresInBuffer (buf nbytes : Word) (r : ℤ × List (Word × Byte)) : Prop where
  success : r.1 ≠ -1 → ∀ s ∈ r.2,
    (buf.toNat ≤ s.1.toNat ∧ (s.1.toNat : ℤ) < buf.toNat + nbytes.toInt) ∧
      mb128 ≤ s.1.toNat ∧ s.1.toNat < mb132
  failure : r.1 = -1 → r.2 = []

/-- The count is not negative and the sum does not overflow, or the sum of a negative count is
rejected, or the buffer is. -/
def CountSound (buf nbytes : Word) : Prop :=
  buf.toInt < mb128 ∨ (0 ≤ nbytes.toInt ∧ buf.toInt + nbytes.toInt < 2 ^ 31) ∨
    (nbytes.toInt < 0 ∧ (mb132 - 4 : ℤ) < buf.toInt + nbytes.toInt)

instance (buf nbytes : Word) : Decidable (CountSound buf nbytes) :=
  inferInstanceAs (Decidable (_ ∨ _))

/-- Whether the sum of an address and a count overflows. -/
lemma add_toInt_cases (buf nbytes : Word) (hlow : 0 ≤ buf.toInt) :
    buf.toInt = buf.toNat ∧ buf.toNat < 2 ^ 31 ∧
      (buf.toInt + nbytes.toInt < 2 ^ 31 ∧ (buf + nbytes).toInt = buf.toInt + nbytes.toInt ∨
        2 ^ 31 ≤ buf.toInt + nbytes.toInt ∧ (buf + nbytes).toInt < 0) := by
  have hbuf := buf.isLt
  have hcount := nbytes.isLt
  simp only [BitVec.toInt_eq_toNat_cond, BitVec.toNat_add] at hlow ⊢
  split_ifs at hlow ⊢ <;> omega

/-- The stores stay in the buffer exactly if the count is sound. -/
lemma storesInBuffer_fill (hadmitted : Admitted buf nbytes) (f : ℕ → Byte) :
    StoresInBuffer buf nbytes (0, fill buf nbytes.toNat f) ↔ CountSound buf nbytes := by
  obtain ⟨hcount, hlow, hhigh⟩ := hadmitted
  have hmb128 : mb128 = 0x8000000 := rfl
  have hmb132 : mb132 = 0x8400000 := rfl
  have hsuccess : (0 : ℤ) ≠ -1 := by decide
  obtain ⟨hbuf, hpositive, hsum⟩ := add_toInt_cases buf nbytes (by omega)
  have hne : nbytes.toNat ≠ 0 := fun h => hcount (BitVec.eq_of_toNat_eq h)
  have hlt := nbytes.isLt
  have hsign : 2 * nbytes.toNat < 2 ^ 32 ∧ nbytes.toInt = nbytes.toNat ∨
      2 ^ 32 ≤ 2 * nbytes.toNat ∧ nbytes.toInt = nbytes.toNat - 2 ^ 32 := by
    rw [BitVec.toInt_eq_toNat_cond]
    split_ifs <;> omega
  constructor
  · intro h
    -- the first and the last byte that are stored
    have hfirst := (h.success hsuccess _ (mem_fill.mpr ⟨0, by omega, rfl⟩)).1
    have hlast := (h.success hsuccess _ (mem_fill.mpr ⟨nbytes.toNat - 1, by omega, rfl⟩)).2
    simp only [BitVec.toNat_add, BitVec.toNat_ofNat] at hfirst hlast
    refine Or.inr (Or.inl ?_)
    omega
  · intro h
    refine ⟨fun _ s hs => ?_, fun h => absurd h hsuccess⟩
    obtain ⟨i, hi, rfl⟩ := mem_fill.mp hs
    obtain h | ⟨hpos, hover⟩ | ⟨hneg, hreject⟩ := h
    · omega
    · simp only [BitVec.toNat_add, BitVec.toNat_ofNat]
      omega
    · omega

/-- For a non-empty argument, `getargs` stores only into the caller's buffer exactly if the count is
sound. -/
theorem getargs_stores_iff (arg : Str) (hne : arg.1 ≠ []) (buf nbytes : Word) :
    (∃ r, Ends (getargs (fun i => arg.1.getD i 0) buf nbytes) r ∧ StoresInBuffer buf nbytes r) ↔
      CountSound buf nbytes := by
  by_cases hadmitted : Admitted buf nbytes
  · have hends := ends_getargs (fun i => arg.1.getD i 0) (fun _ _ => rfl) arg.2 hne
      hadmitted
    rw [← storesInBuffer_fill hadmitted fun i => arg.1.getD i 0]
    constructor
    · rintro ⟨r, hr, hstores⟩
      rwa [hr.unique hends] at hstores
    · intro hstores
      exact ⟨_, hends, hstores⟩
  · have hfail := ends_getargs_fail (fun i => arg.1.getD i 0) hadmitted
    refine iff_of_true ⟨_, hfail, ⟨fun h => absurd rfl h, fun _ => rfl⟩⟩ ?_
    -- what is rejected is rejected for one of the reasons of the condition
    have hmb128 : mb128 = 0x8000000 := rfl
    have hmb132 : mb132 = 0x8400000 := rfl
    by_contra hunsound
    simp only [CountSound, not_or, not_and] at hunsound
    obtain ⟨hbuf, hpos, hneg⟩ := hunsound
    obtain ⟨-, -, hsum⟩ := add_toInt_cases buf nbytes (by omega)
    have hcount : nbytes ≠ 0#32 := by
      rintro rfl
      have hzero : (0#32).toInt = 0 := rfl
      have hlt := BitVec.toInt_lt (x := buf)
      omega
    exact hadmitted ⟨hcount, by omega, by omega⟩

/-- A whole page for the argument `a`. -/
theorem getargs_stores_small : ∃ r,
    Ends (getargs (fun i => [0x61].getD i 0) 0x8000000 0x1000) r ∧
      StoresInBuffer 0x8000000 0x1000 r :=
  (getargs_stores_iff ⟨[0x61], by decide⟩ (by decide) 0x8000000 0x1000).mpr (by decide)

/-- A count of -1 passes both tests. -/
theorem not_getargs_stores_negative : ¬ ∃ r,
    Ends (getargs (fun i => [0x61].getD i 0) 0x8000000 (-1)) r ∧
      StoresInBuffer 0x8000000 (-1) r := by
  have hadmitted : Admitted 0x8000000 (-1) := by decide
  rintro ⟨r, hr, hstores⟩
  have hends := ends_getargs (fun i => [0x61].getD i 0) (l := [0x61])
    (fun _ _ => rfl) (by decide) (by decide) hadmitted
  rw [hr.unique hends, storesInBuffer_fill hadmitted] at hstores
  exact absurd hstores (by decide)

end

/-! ### What is delivered -/

/-- A successful call leaves the word and a terminator within the first `nbytes` bytes, and it is
successful exactly if they fit. -/
structure Delivers (word : List Byte) (mem : Word → Byte) (buf nbytes : Word)
    (r : ℤ × List (Word × Byte)) : Prop where
  holds : r.1 = 0 → (word.length : ℤ) < nbytes.toInt ∧
    ∀ i ≤ word.length, storeAll mem r.2 (buf + BitVec.ofNat 32 i) = word.getD i 0
  fits  : (word.length : ℤ) < nbytes.toInt → r.1 = 0
  fails : nbytes.toInt ≤ word.length → r.1 = -1

lemma delivers_fill_iff (word : List Byte) (mem : Word → Byte) (buf nbytes : Word) :
    Delivers word mem buf nbytes (0, fill buf nbytes.toNat fun i => word.getD i 0) ↔
      (word.length : ℤ) < nbytes.toInt := by
  constructor
  · intro h
    exact (h.holds rfl).1
  · intro hroom
    refine ⟨fun _ => ⟨hroom, fun i hi => ?_⟩, fun _ => rfl, fun h => absurd hroom (not_lt.mpr h)⟩
    have hnat : nbytes.toInt ≤ nbytes.toNat := by
      rw [BitVec.toInt_eq_toNat_cond]
      split_ifs <;> omega
    exact storeAll_fill nbytes.isLt.le (by omega)

/-- The argument that a process keeps is the one that `getargs` copies. -/
lemma ends_parseCmd_getargs (c : CommandText) (hne : c.second ≠ [])
    (hlen : c.second.length ≤ 127) (filename arg : ℕ → Byte) (buf nbytes : Word)
    (h : Admitted buf nbytes) :
    ∃ p, Ends (c.parseCmd (.fresh filename) (.fresh arg)) p ∧ p.ret = 0 ∧
      Ends (getargs p.buf.bytes buf nbytes)
        (0, fill buf nbytes.toNat fun i => c.second.getD i 0) := by
  have hparse := c.ends_parseCmd (.fresh filename) (.fresh arg)
  rw [c.parsed_of_le _ _ (hlen.trans (by decide))] at hparse
  have hholds := Buffer.holds_storeAll (b := .fresh arg) (i := 0) c.zero_not_mem_second
  refine ⟨_, hparse, rfl, ends_getargs _ (fun i hi => ?_) c.zero_not_mem_second hne h⟩
  have hi' := hholds.1 i hi
  rwa [Nat.zero_add, Nat.zero_add] at hi'

/-- `parse_cmd` followed by `getargs` delivers the second word of a command exactly if there is room
for it and its terminator. -/
theorem getargs_delivers_iff (c : CommandText) (hne : c.second ≠ [])
    (hlen : c.second.length ≤ 127) (filename arg : ℕ → Byte) (mem : Word → Byte)
    (buf nbytes : Word) (hcount : 0 < nbytes.toInt) (hlow : (mb128 : ℤ) ≤ buf.toInt)
    (hhigh : buf.toInt + nbytes.toInt ≤ mb132 - 4) :
    (∃ p r, Ends (c.parseCmd (.fresh filename) (.fresh arg)) p ∧ p.ret = 0 ∧
      Ends (getargs p.buf.bytes buf nbytes) r ∧ Delivers c.second mem buf nbytes r) ↔
        (c.second.length : ℤ) < nbytes.toInt := by
  have hadmitted : Admitted buf nbytes := by
    have hmb128 : mb128 = 0x8000000 := rfl
    have hmb132 : mb132 = 0x8400000 := rfl
    obtain ⟨-, -, hsum⟩ := add_toInt_cases buf nbytes (by omega)
    refine ⟨?_, hlow, by omega⟩
    rintro rfl
    exact absurd hcount (by decide)
  obtain ⟨p, hp, hret, hr⟩ := ends_parseCmd_getargs c hne hlen filename arg buf nbytes hadmitted
  rw [← delivers_fill_iff c.second mem buf]
  constructor
  · rintro ⟨q, r, hq, -, hr', hdelivers⟩
    obtain rfl := hq.unique hp
    rwa [hr'.unique hr] at hdelivers
  · intro hdelivers
    exact ⟨p, _, hp, hret, hr, hdelivers⟩

/-- `"cat ab"`. -/
def catCommand : CommandText := ⟨[0x63, 0x61, 0x74, 0x20, 0x61, 0x62], by decide, by decide⟩

/-- Its argument fits the buffer of `cat`. -/
theorem getargs_delivers_small : ∃ p r,
    Ends (catCommand.parseCmd (.fresh fun _ => 0) (.fresh fun _ => 0)) p ∧ p.ret = 0 ∧
      Ends (getargs p.buf.bytes 0x8000000 1024) r ∧
        Delivers catCommand.second (fun _ => 0) 0x8000000 1024 r :=
  (getargs_delivers_iff catCommand (by decide) (by decide) (fun _ => 0) (fun _ => 0) (fun _ => 0)
    0x8000000 1024 (by decide) (by decide) (by decide)).mpr (by decide)

/-- With two bytes for it, its terminator is dropped without a failure. -/
theorem not_getargs_delivers_cut : ¬ ∃ p r,
    Ends (catCommand.parseCmd (.fresh fun _ => 0) (.fresh fun _ => 0)) p ∧ p.ret = 0 ∧
      Ends (getargs p.buf.bytes 0x8000000 2) r ∧
        Delivers catCommand.second (fun _ => 0) 0x8000000 2 r := by
  rintro ⟨q, r, hq, -, hr, hdelivers⟩
  obtain ⟨p, hp, -, hends⟩ := ends_parseCmd_getargs catCommand (by decide) (by decide)
    (fun _ => 0) (fun _ => 0) 0x8000000 2 (by decide)
  obtain rfl := hq.unique hp
  rw [hr.unique hends, delivers_fill_iff] at hdelivers
  exact absurd hdelivers (by decide)

end Osgods
