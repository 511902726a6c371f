import Mathlib.Logic.Function.Basic
import Mathlib.Tactic.Common

/-!
# Flags for the marked members of lists

A family of disjoint lists, marks on their members, and one flag a list that is up just when the
list has a marked member. The rules say what keeps this: a new member without a mark, a new mark
with its flag, and the end of a member that loses its mark.
-/

namespace Osgods

/-- A flag is up just when a member of its list is marked. -/
def Backed {ι α : Type*} (member : ι → List α) (marked : α → Bool) (flag : ι → Prop) : Prop :=
  ∀ i, flag i ↔ ∃ a ∈ member i, marked a = true

/-- Every mark is on a member of some list. -/
def Listed {ι α : Type*} (member : ι → List α) (marked : α → Bool) : Prop :=
  ∀ a, marked a = true → ∃ i, a ∈ member i

section

variable {ι α : Type*} {member : ι → List α} {marked : α → Bool}
  {flag flag' : ι → Prop} {a c : α} {i : ι} {l : List α}

lemma Backed.congr (h : Backed member marked flag) (hflag : ∀ i, flag' i ↔ flag i) :
    Backed member marked flag' :=
  fun i => (hflag i).trans (h i)

section

variable [DecidableEq α]

lemma Listed.mark (h : Listed member marked) (hc : c ∈ member i) :
    Listed member (Function.update marked c true) := by
  intro a ha
  by_cases hac : a = c
  · subst hac
    exact ⟨i, hc⟩
  · rw [Function.update_of_ne hac] at ha
    exact h a ha

/-- A member is marked, and its flag is raised. -/
lemma Backed.mark (h : Backed member marked flag) (hc : c ∈ member i)
    (hother : ∀ j, j ≠ i → c ∉ member j) :
    Backed member (Function.update marked c true) fun j => j = i ∨ flag j := by
  intro j
  constructor
  · rintro (rfl | hflag)
    · exact ⟨c, hc, Function.update_self c true marked⟩
    · obtain ⟨a, ha, hmarked⟩ := (h j).mp hflag
      refine ⟨a, ha, ?_⟩
      rw [Function.update_apply]
      split_ifs
      · rfl
      · exact hmarked
  · rintro ⟨a, ha, hmarked⟩
    by_cases hj : j = i
    · exact Or.inl hj
    · have hac : a ≠ c := by
        rintro rfl
        exact hother j hj ha
      rw [Function.update_of_ne hac] at hmarked
      exact Or.inr ((h j).mpr ⟨a, ha, hmarked⟩)

end

variable [DecidableEq ι]

lemma Listed.push (h : Listed member marked) (i : ι) (a : α) :
    Listed (Function.update member i (a :: member i)) marked := by
  intro b hb
  obtain ⟨j, hj⟩ := h b hb
  refine ⟨j, ?_⟩
  rw [Function.update_apply]
  split_ifs with hij
  · subst hij
    exact List.mem_cons_of_mem a hj
  · exact hj

/-- A new member that is not marked. -/
lemma Backed.push (h : Backed member marked flag) (ha : marked a = false) :
    Backed (Function.update member i (a :: member i)) marked flag := by
  intro j
  rw [h j, Function.update_apply]
  split_ifs with hj
  · subst hj
    simp [ha]
  · exact Iff.rfl

variable [DecidableEq α]

/-- A member of list `i` loses its mark, and the list becomes `l`: the other flags must stay. -/
lemma Backed.replace_iff (h : Backed member marked flag) (hother : ∀ j, j ≠ i → c ∉ member j) :
    Backed (Function.update member i l) (Function.update marked c false) flag' ↔
      (flag' i ↔ ∃ a ∈ l, a ≠ c ∧ marked a = true) ∧ ∀ j, j ≠ i → (flag' j ↔ flag j) := by
  have hmarked : ∀ a, Function.update marked c false a = true ↔ a ≠ c ∧ marked a = true := by
    intro a
    rw [Function.update_apply]
    split_ifs with hac
    · simp [hac]
    · simp [hac]
  have hsame : ∀ j, j ≠ i →
      ((∃ a ∈ member j, Function.update marked c false a = true) ↔ flag j) := by
    intro j hj
    rw [h j]
    constructor
    · rintro ⟨a, ha, hset⟩
      exact ⟨a, ha, ((hmarked a).mp hset).2⟩
    · rintro ⟨a, ha, hset⟩
      refine ⟨a, ha, (hmarked a).mpr ⟨?_, hset⟩⟩
      rintro rfl
      exact hother j hj ha
  constructor
  · intro hback
    constructor
    · have hi := hback i
      rw [Function.update_self] at hi
      simpa only [hmarked] using hi
    · intro j hj
      have hback' := hback j
      rw [Function.update_of_ne hj] at hback'
      exact hback'.trans (hsame j hj)
  · rintro ⟨hi, hrest⟩ j
    by_cases hj : j = i
    · subst hj
      rw [Function.update_self]
      simpa only [hmarked] using hi
    · rw [Function.update_of_ne hj]
      exact (hrest j hj).trans (hsame j hj).symm

lemma Listed.replace (h : Listed member marked) (hl : ∀ a ∈ member i, a ≠ c → a ∈ l) :
    Listed (Function.update member i l) (Function.update marked c false) := by
  intro a ha
  have hac : a ≠ c := by
    rintro rfl
    rw [Function.update_self] at ha
    cases ha
  rw [Function.update_of_ne hac] at ha
  obtain ⟨j, hj⟩ := h a ha
  refine ⟨j, ?_⟩
  rw [Function.update_apply]
  split_ifs with hij
  · subst hij
    exact hl a hj hac
  · exact hj

end

end Osgods
