import Mathlib.Tactic.Common
import Mathlib.Data.Nat.Digits.Lemmas

/-!
# Positional numerals

Digits are read most significant first. A numeral is canonical if its digits are below the radix
and it does not start with a zero, unless it is the numeral of zero; every number has exactly one.
-/

namespace Numeral

/-- What a list of digits stands for. -/
def value (radix : ℕ) (ds : List ℕ) : ℕ := ds.foldl (fun v d => radix * v + d) 0

structure Canonical (radix : ℕ) (ds : List ℕ) : Prop where
  digit_lt : ∀ d ∈ ds, d < radix
  nonempty : ds ≠ []
  lead     : ds.head? = some 0 → ds = [0]

/-- The canonical numeral of a number. -/
def digits (radix n : ℕ) : List ℕ := if n = 0 then [0] else (Nat.digits radix n).reverse

variable {radix n k : ℕ} {ds : List ℕ}

lemma value_reverse (radix : ℕ) (ds : List ℕ) :
    value radix ds.reverse = Nat.ofDigits radix ds := by
  rw [value, List.foldl_reverse, Nat.ofDigits_eq_foldr]
  congr 1
  funext d v
  exact Nat.add_comm _ _

lemma value_digits (radix n : ℕ) : value radix (digits radix n) = n := by
  unfold digits
  split_ifs with hzero
  · rw [hzero]
    rfl
  · rw [value_reverse, Nat.ofDigits_digits]

lemma canonical_digits (h : 1 < radix) (n : ℕ) : Canonical radix (digits radix n) := by
  unfold digits
  split_ifs with hzero
  · refine ⟨fun d hd => ?_, List.cons_ne_nil _ _, fun _ => rfl⟩
    rw [List.mem_singleton.mp hd]
    exact Nat.zero_lt_of_lt h
  · have hne : Nat.digits radix n ≠ [] := Nat.digits_ne_nil_iff_ne_zero.mpr hzero
    refine ⟨fun d hd => Nat.digits_lt_base h (List.mem_reverse.mp hd),
      fun hnil => hne (List.reverse_eq_nil_iff.mp hnil), fun hlead => ?_⟩
    rw [List.head?_reverse, List.getLast?_eq_some_getLast hne] at hlead
    exact absurd (Option.some.inj hlead) (Nat.getLast_digit_ne_zero radix hzero)

/-- The length of a number below a power of the radix. -/
lemma length_digits_le (h : 1 < radix) (hn : n < radix ^ k) (hk : 0 < k) :
    (digits radix n).length ≤ k := by
  unfold digits
  split_ifs
  · exact hk
  · rw [List.length_reverse]
    exact (Nat.digits_length_le_iff h n).mpr hn

/-- The number of digits of a number is the number of times that it can be divided. -/
lemma div_pow_pos_iff (h : 1 < radix) (n k : ℕ) :
    0 < n / radix ^ k ↔ k < (Nat.digits radix n).length := by
  have hpow : 0 < radix ^ k := Nat.pow_pos (Nat.zero_lt_of_lt h)
  rw [← not_iff_not, not_lt, not_lt, Nat.digits_length_le_iff h, Nat.le_zero,
    Nat.div_eq_zero_iff_lt hpow]

end Numeral
