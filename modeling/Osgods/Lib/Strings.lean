import Osgods.Library.Loop
import Osgods.Library.Buffer
import Osgods.Library.Scan
import Osgods.Library.ByteCopy
import Osgods.Types
import Mathlib.Data.BitVec

/-!
# Strings (`strlen`, `strrev` and `strncpy` of `lib.c`)

A string is given by the offset in a buffer at which it starts.
-/

namespace Osgods

open Loop ByteCopy

/-- A string without its terminator. -/
abbrev Str := {l : List Byte // 0 ∉ l}

/-! ### `strlen` -/

def strlen (s : ℕ → Byte) (fuel : ℕ) : Option ℕ :=
  loop (fun len => s len ≠ 0#8) (fun len => some (len + 1)) fuel 0

lemma ends_strlen {s : ℕ → Byte} {n : ℕ} (h : ∀ i < n, s i ≠ 0#8) (hn : s n = 0#8) :
    Ends (strlen s) n :=
  ends_loop_of_seq _ _ (fun i => i) n (fun i hi => ⟨h i hi, rfl⟩) (not_not.mpr hn)

lemma ends_strlen_of_holds {b : Buffer Byte} {o : ℕ} {l : List Byte} (h : b.Holds o l) :
    Ends (strlen fun i => b.bytes (o + i)) l.length := by
  refine ends_strlen (fun i hi => ?_) ?_
  · rw [h.1 i hi.le]
    exact Scan.getD_ne_of_not_mem h.2 hi
  · rw [h.1 _ le_rfl, List.getD_eq_default _ _ le_rfl]
    rfl

/-! ### `strrev` -/

/-- The state of the loop of `strrev`; `last` is its `end`. -/
structure Reversal where
  s    : Buffer Byte
  beg  : ℤ
  last : ℤ

/-- One turn of the loop, for the string at offset `o`. -/
def Reversal.swap (o : ℕ) (r : Reversal) : Reversal :=
  let tmp := r.s.bytes (o + r.last.toNat)
  let s := r.s.store (o + r.last.toNat) (r.s.bytes (o + r.beg.toNat))
  { s    := s.store (o + r.beg.toNat) tmp
    beg  := r.beg + 1
    last := r.last - 1 }

def strrev (o : ℕ) (s : Buffer Byte) (fuel : ℕ) : Option (Buffer Byte) :=
  (strlen (fun i => s.bytes (o + i)) fuel).bind fun len =>
    (loop (fun r => r.beg < r.last) (fun r => some (Reversal.swap o r)) fuel
      ⟨s, 0, len - 1⟩).map Reversal.s

/-- The first and the last `k` elements of a string of `len` have been exchanged. -/
structure Swapped (s : Buffer Byte) (o len k : ℕ) (r : Reversal) : Prop where
  beg    : r.beg = k
  last   : r.last = len - 1 - k
  string : ∀ j < len, r.s.bytes (o + j) =
    if j < k ∨ len - k ≤ j then s.bytes (o + (len - 1 - j)) else s.bytes (o + j)
  frame  : ∀ j, j < o ∨ o + len ≤ j → r.s.bytes j = s.bytes j
  inside : ∀ n, s.Inside n → o + len ≤ n → r.s.Inside n

section

variable {s : Buffer Byte} {o len k : ℕ} {r : Reversal}

lemma Swapped.start : Swapped s o len 0 ⟨s, 0, len - 1⟩ where
  beg    := rfl
  last   := by simp
  string := fun j hj => by
    have hnone : ¬ (j < 0 ∨ len - 0 ≤ j) := by omega
    rw [if_neg hnone]
  frame  := fun _ _ => rfl
  inside := fun _ h _ => h

lemma Swapped.swap (h : Swapped s o len k r) (hk : 2 * (k + 1) ≤ len) :
    Swapped s o len (k + 1) (r.swap o) := by
  have hbeg : r.beg.toNat = k := by
    rw [h.beg]
    rfl
  have hlast : r.last.toNat = len - 1 - k := by
    rw [h.last]
    omega
  have hfirst : r.s.bytes (o + k) = s.bytes (o + k) := by
    rw [h.string k (by omega), if_neg (by omega)]
  have hsecond : r.s.bytes (o + (len - 1 - k)) = s.bytes (o + (len - 1 - k)) := by
    rw [h.string _ (by omega), if_neg (by omega)]
  have hs : (r.swap o).s = (r.s.store (o + (len - 1 - k)) (s.bytes (o + k))).store (o + k)
      (s.bytes (o + (len - 1 - k))) := by
    rw [Reversal.swap, hbeg, hlast, hfirst, hsecond]
  refine ⟨?_, ?_, fun j hj => ?_, fun j hj => ?_, fun n hn hlen => ?_⟩
  · rw [Reversal.swap, h.beg]
    push_cast
    rfl
  · rw [Reversal.swap, h.last]
    push_cast
    omega
  · rw [hs]
    by_cases hj1 : j = k
    · rw [hj1, Buffer.store_bytes_self, if_pos (by omega)]
    · rw [Buffer.store_bytes_of_ne (by omega)]
      by_cases hj2 : j = len - 1 - k
      · have hback : len - 1 - j = k := by omega
        rw [hj2, Buffer.store_bytes_self, if_pos (by omega), ← hj2, hback]
      · rw [Buffer.store_bytes_of_ne (by omega), h.string j hj]
        exact if_congr (by omega) rfl rfl
  · rw [hs, Buffer.store_bytes_of_ne (by omega), Buffer.store_bytes_of_ne (by omega)]
    exact h.frame j hj
  · rw [hs, Buffer.inside_store, Buffer.inside_store]
    exact ⟨by omega, by omega, h.inside n hn hlen⟩

variable (s o len k) in
lemma swapped_iterate (hk : 2 * k ≤ len) :
    Swapped s o len k ((Reversal.swap o)^[k] ⟨s, 0, len - 1⟩) := by
  induction k with
  | zero => exact .start
  | succ k ih =>
    rw [Function.iterate_succ_apply']
    exact (ih (by omega)).swap hk

/-- A string is reversed in place, and nothing else is stored to. -/
theorem ends_strrev {l : List Byte} (h : s.Holds o l) : ∃ t, Ends (strrev o s) t ∧
    t.Holds o l.reverse ∧ (∀ j, j < o ∨ o + l.length ≤ j → t.bytes j = s.bytes j) ∧
      ∀ n, s.Inside n → o + l.length ≤ n → t.Inside n := by
  have hend := swapped_iterate s o l.length (l.length / 2) (by omega)
  have hloop : Ends (fun n => loop (fun r : Reversal => r.beg < r.last)
      (fun r => some (Reversal.swap o r)) n ⟨s, 0, l.length - 1⟩)
        ((Reversal.swap o)^[l.length / 2] ⟨s, 0, l.length - 1⟩) := by
    refine (Turns.of_iterate _ (fun i hi => ?_) ?_).ends
    · have hturn := swapped_iterate s o l.length i (by omega)
      show Reversal.beg _ < Reversal.last _
      rw [hturn.beg, hturn.last]
      omega
    · show ¬ Reversal.beg _ < Reversal.last _
      rw [hend.beg, hend.last]
      omega
  refine ⟨_, (ends_strlen_of_holds h).bind (hloop.map Reversal.s), ⟨fun j hj => ?_, ?_⟩,
    hend.frame, hend.inside⟩
  · rw [List.length_reverse] at hj
    obtain hlt | rfl := Nat.lt_or_eq_of_le hj
    · have hback : l.length - 1 - j < l.length := by omega
      have hrev : l.reverse.getD j 0 = l.getD (l.length - 1 - j) 0 := by
        rw [List.getD_eq_getElem _ _ (by simpa using hlt), List.getElem_reverse,
          List.getD_eq_getElem _ _ hback]
      rw [hend.string j hlt, hrev]
      split_ifs with hswapped
      · exact h.1 _ hback.le
      · have hmiddle : l.length - 1 - j = j := by omega
        rw [hmiddle]
        exact h.1 j hj
    · rw [hend.frame _ (Or.inr le_rfl), h.1 _ le_rfl, List.getD_eq_default _ _ le_rfl,
        List.getD_eq_default _ _ (by simp)]
  · rw [List.mem_reverse]
    exact h.2

end

/-! ### `strncpy` -/

/-- The index of `strncpy`, and what has been stored. -/
structure Strncpy where
  i      : ℕ
  stores : List (Word × Byte)

/-- `dest[i] = b`, and `i++`. -/
def Strncpy.store (dest : Word) (b : Byte) (s : Strncpy) : Strncpy where
  i      := s.i + 1
  stores := s.stores ++ [(dest + BitVec.ofNat 32 s.i, b)]

/-- `strncpy`: its stores. The count is unsigned. -/
def strncpy (dest : Word) (src : ℕ → Byte) (n : Word) (fuel : ℕ) : Option (List (Word × Byte)) :=
  (loop (fun s : Strncpy => src s.i ≠ 0 ∧ s.i < n.toNat) (fun s => some (s.store dest (src s.i)))
    fuel ⟨0, []⟩).bind fun s =>
      (loop (fun s : Strncpy => s.i < n.toNat) (fun s => some (s.store dest 0)) fuel s).map
        Strncpy.stores

/-- A string is copied and padded, or cut, to exactly `n` bytes. -/
lemma ends_strncpy {src : ℕ → Byte} {l : List Byte} (hsrc : ∀ i ≤ l.length, src i = l.getD i 0)
    (hl : 0 ∉ l) (dest n : Word) :
    Ends (strncpy dest src n) (fill dest n.toNat fun i => l.getD i 0) := by
  have hstore : ∀ i, (Strncpy.mk i (fill dest i fun i => l.getD i 0)).store dest (l.getD i 0) =
      ⟨i + 1, fill dest (i + 1) fun i => l.getD i 0⟩ := by
    intro i
    rw [Strncpy.store, ← fill_append]
    simp [fill]
  have hcopy := ends_loop_of_seq (fun s : Strncpy => src s.i ≠ 0 ∧ s.i < n.toNat)
    (fun s => s.store dest (src s.i)) (fun i => ⟨i, fill dest i fun i => l.getD i 0⟩)
    (min l.length n.toNat) (fun i hi => ⟨⟨?_, by dsimp only; omega⟩, ?_⟩) ?_
  · have hpad := ends_loop_of_seq (fun s : Strncpy => s.i < n.toNat) (fun s => s.store dest 0)
      (fun i =>
        ⟨min l.length n.toNat + i, fill dest (min l.length n.toNat + i) fun i => l.getD i 0⟩)
      (n.toNat - min l.length n.toNat) (fun i hi => ⟨by dsimp only; omega, ?_⟩)
      (by dsimp only; omega)
    · have hend : min l.length n.toNat + (n.toNat - min l.length n.toNat) = n.toNat := by omega
      rw [hend] at hpad
      exact hcopy.bind (hpad.map Strncpy.stores)
    · have hzero : l.getD (min l.length n.toNat + i) 0 = 0 :=
        List.getD_eq_default _ _ (by omega)
      rw [← Nat.add_assoc, ← hstore, hzero]
  · rw [hsrc i (by omega)]
    exact Scan.getD_ne_of_not_mem hl (by omega)
  · show Strncpy.store dest (src i) _ = _
    rw [hsrc i (by omega), hstore]
  · rintro ⟨hne, hlt⟩
    dsimp only at hne hlt
    have hmin : min l.length n.toNat = l.length := by omega
    rw [hmin, hsrc _ le_rfl] at hne
    exact hne (List.getD_eq_default _ _ le_rfl)

end Osgods
