import Mathlib.Tactic.Common
import Mathlib.Data.List.GetD
import Mathlib.Data.List.TakeWhile

/-!
# Scanning a list by offsets

A scanner that keeps an offset into a list is proved by induction on what is left of the list there.
-/

namespace Scan

variable {β : Type*} {text l : List β} {i : ℕ} {a d : β} {p : β → Bool}

lemma getD_ne_of_not_mem {z : β} (h : z ∉ text) (hi : i < text.length) : text.getD i d ≠ z := by
  rw [List.getD_eq_getElem _ _ hi]
  rintro rfl
  exact h (List.getElem_mem hi)

/-- `l` is what is left of a list at an offset. -/
structure Rest (text : List β) (i : ℕ) (l : List β) : Prop where
  drop   : text.drop i = l
  length : i + l.length = text.length

namespace Rest

lemma zero (text : List β) : Rest text 0 text := ⟨List.drop_zero, Nat.zero_add _⟩

lemma nil (h : Rest text i []) : i = text.length := h.length

lemma tail (h : Rest text i (a :: l)) : Rest text (i + 1) l := by
  have hlen := h.length
  rw [List.length_cons] at hlen
  refine ⟨?_, by omega⟩
  rw [← List.drop_drop, h.drop, List.drop_one, List.tail_cons]

lemma lt (h : Rest text i (a :: l)) : i < text.length := by
  have hlen := h.length
  rw [List.length_cons] at hlen
  omega

lemma getD (h : Rest text i (a :: l)) : text.getD i d = a := by
  have hget : (text.drop i)[0]? = some a := by
    rw [h.drop]
    rfl
  rw [List.getElem?_drop, Nat.add_zero] at hget
  rw [List.getD_eq_getElem?_getD, hget, Option.getD_some]

lemma mem (h : Rest text i (a :: l)) : a ∈ text := by
  have hmem : a ∈ text.drop i := by
    rw [h.drop]
    exact List.mem_cons_self
  exact List.mem_of_mem_drop hmem

/-- What is left behind the elements for which `p` holds. -/
lemma dropWhile (h : Rest text i l) (p : β → Bool) :
    Rest text (i + (l.takeWhile p).length) (l.dropWhile p) := by
  induction l generalizing i with
  | nil => exact h
  | cons a l ih =>
    by_cases ha : p a = true
    · rw [List.takeWhile_cons_of_pos ha, List.dropWhile_cons_of_pos ha, List.length_cons,
        Nat.add_comm _ 1, ← Nat.add_assoc]
      exact ih h.tail
    · rwa [List.takeWhile_cons_of_neg ha, List.dropWhile_cons_of_neg ha]

end Rest

end Scan
