import Mathlib.Tactic.Common
import Mathlib.Logic.Basic

/-!
# Bit-fields of machine words

`BitField.set x lo len v` is the word `x` after an assignment of `v` to its bit-field of `len`
bits that starts at bit `lo`, as a C compiler lays bit-fields out. Reading a field back is
`BitVec.extractLsb' lo len`.
-/

namespace BitField

variable {w : ℕ}

/-- The bits `lo`, …, `lo + len - 1`. -/
def mask (w lo len : ℕ) : BitVec w := (BitVec.allOnes len).setWidth w <<< lo

/-- Assignment of (the low bits of) `v` to a bit-field. -/
def set (x : BitVec w) (lo len : ℕ) (v : BitVec w) : BitVec w :=
  (x &&& ~~~ mask w lo len) ||| (v <<< lo &&& mask w lo len)

variable {x v : BitVec w} {i lo len lo' len' : ℕ}

lemma getLsbD_mask (hi : i < w) :
    (mask w lo len).getLsbD i = decide (lo ≤ i ∧ i < lo + len) := by
  simp only [mask, BitVec.getLsbD_shiftLeft, BitVec.getLsbD_setWidth, BitVec.getLsbD_allOnes, hi]
  by_cases h : i < lo
  · have hlo : ¬ lo ≤ i := by omega
    simp [h, hlo]
  · have hlo : i - lo < w := by omega
    have hle : lo ≤ i := by omega
    have hlen : i - lo < len ↔ i < lo + len := by omega
    simp [h, hlo, hle, hlen]

lemma getLsbD_set (hi : i < w) :
    (set x lo len v).getLsbD i =
      if lo ≤ i ∧ i < lo + len then v.getLsbD (i - lo) else x.getLsbD i := by
  simp only [set, BitVec.getLsbD_or, BitVec.getLsbD_and, BitVec.getLsbD_not, getLsbD_mask hi, hi,
    BitVec.getLsbD_shiftLeft]
  split_ifs with h
  · have hlo : ¬ i < lo := by omega
    simp [h, hlo]
  · simp [h]

lemma getElem_set (hi : i < w) :
    (set x lo len v)[i] = if lo ≤ i ∧ i < lo + len then v.getLsbD (i - lo) else x[i] := by
  rw [← BitVec.getLsbD_eq_getElem hi, getLsbD_set hi, BitVec.getLsbD_eq_getElem hi]

/-- A field reads back what was assigned to it. -/
lemma extract_set_self (h : lo + len ≤ w) :
    (set x lo len v).extractLsb' lo len = v.setWidth len := by
  apply BitVec.eq_of_getLsbD_eq
  intro i hi
  have hw : lo + i < w := by omega
  simp [hi, getLsbD_set hw]

/-- An assignment to one field leaves a disjoint one alone. -/
lemma extract_set_of_disjoint (h : lo' + len' ≤ lo ∨ lo + len ≤ lo') (hw : lo' + len' ≤ w) :
    (set x lo len v).extractLsb' lo' len' = x.extractLsb' lo' len' := by
  apply BitVec.eq_of_getLsbD_eq
  intro i hi
  have hw : lo' + i < w := by omega
  have hne : ¬ (lo ≤ lo' + i ∧ lo' + i < lo + len) := by omega
  simp [hi, getLsbD_set hw, hne]

end BitField
