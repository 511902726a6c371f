import Mathlib.Tactic.Common
import Mathlib.Logic.Function.Basic
import Mathlib.Data.List.GetD
import Mathlib.Algebra.Notation.Defs

/-!
# Buffers

The memory that a pointer leads to, by offsets from the pointer, with the offsets that have been
stored to. A buffer `Holds` a string at an offset if it has the string's elements there, none of
which is zero, and then a zero.
-/

structure Buffer (β : Type*) where
  bytes  : ℕ → β
  stored : List ℕ

namespace Buffer

variable {β : Type*}

/-- A buffer that nothing has been stored to. -/
def fresh (bytes : ℕ → β) : Buffer β := ⟨bytes, []⟩

def store (i : ℕ) (v : β) (b : Buffer β) : Buffer β where
  bytes  := Function.update b.bytes i v
  stored := i :: b.stored

/-- The elements of a list are stored one after the other. -/
def storeAll (i : ℕ) : List β → Buffer β → Buffer β
  | [], b     => b
  | v :: l, b => (b.store i v).storeAll (i + 1) l

/-- Only the first `n` offsets have been stored to. -/
def Inside (n : ℕ) (b : Buffer β) : Prop := ∀ i ∈ b.stored, i < n

def Holds [Zero β] (b : Buffer β) (i : ℕ) (l : List β) : Prop :=
  (∀ j ≤ l.length, b.bytes (i + j) = l.getD j 0) ∧ 0 ∉ l

section

variable {b : Buffer β} {i j k n : ℕ} {l l' : List β} {v : β}

@[simp] lemma store_bytes_self : (b.store i v).bytes i = v := Function.update_self _ _ _

lemma store_bytes_of_ne (h : j ≠ i) : (b.store i v).bytes j = b.bytes j :=
  Function.update_of_ne h _ _

lemma storeAll_concat : b.storeAll i (l ++ [v]) = (b.storeAll i l).store (i + l.length) v := by
  induction l generalizing b i with
  | nil => rfl
  | cons w l ih =>
    rw [List.cons_append, storeAll, ih, storeAll, List.length_cons]
    congr 1
    omega

lemma storeAll_bytes_of_lt (h : j < i) : (b.storeAll i l).bytes j = b.bytes j := by
  induction l generalizing b i with
  | nil => rfl
  | cons w l ih =>
    rw [storeAll, ih (Nat.lt_succ_of_lt h)]
    exact store_bytes_of_ne (Nat.ne_of_lt h)

lemma storeAll_bytes_of_le (h : i + l.length ≤ j) : (b.storeAll i l).bytes j = b.bytes j := by
  induction l generalizing b i with
  | nil => rfl
  | cons w l ih =>
    rw [List.length_cons] at h
    rw [storeAll, ih (by omega)]
    exact store_bytes_of_ne (by omega)

lemma storeAll_bytes (h : k < l.length) : (b.storeAll i l).bytes (i + k) = l[k] := by
  induction l generalizing b i k with
  | nil => cases h
  | cons w l ih =>
    rw [storeAll]
    cases k with
    | zero =>
      exact (storeAll_bytes_of_lt (Nat.lt_succ_self i)).trans store_bytes_self
    | succ k =>
      have hk : i + (k + 1) = i + 1 + k := by omega
      rw [hk]
      exact ih (Nat.lt_of_succ_lt_succ h)

@[simp] lemma inside_fresh (bytes : ℕ → β) : (fresh bytes).Inside n := by simp [Inside, fresh]

lemma inside_store : (b.store i v).Inside n ↔ i < n ∧ b.Inside n := by simp [Inside, store]

lemma inside_storeAll : (b.storeAll i l).Inside n ↔ (l ≠ [] → i + l.length ≤ n) ∧ b.Inside n := by
  induction l generalizing b i with
  | nil => simp [storeAll]
  | cons w l ih =>
    rw [storeAll, ih, inside_store, List.length_cons]
    cases l with
    | nil =>
      constructor
      · rintro ⟨-, hlt, hin⟩
        exact ⟨fun _ => hlt, hin⟩
      · rintro ⟨hle, hin⟩
        exact ⟨fun h => absurd rfl h, hle (List.cons_ne_nil _ _), hin⟩
    | cons w' l =>
      have hlen : (w' :: l).length = l.length + 1 := rfl
      constructor
      · rintro ⟨hle, -, hin⟩
        have hle := hle (List.cons_ne_nil _ _)
        exact ⟨fun _ => by omega, hin⟩
      · rintro ⟨hle, hin⟩
        have hle := hle (List.cons_ne_nil _ _)
        exact ⟨fun _ => by omega, by omega, hin⟩

lemma Inside.mono {m : ℕ} (h : b.Inside m) (hmn : m ≤ n) : b.Inside n :=
  fun i hi => Nat.lt_of_lt_of_le (h i hi) hmn

/-! ### Strings -/

variable [Zero β]

/-- The string of a buffer ends at its first zero. -/
lemma Holds.length_le (h : b.Holds i l) (h' : b.Holds i l') : l.length ≤ l'.length := by
  by_contra hlt
  have hzero := h'.1 l'.length (Nat.le_refl _)
  rw [List.getD_eq_default _ _ (Nat.le_refl _), h.1 _ (by omega),
    List.getD_eq_getElem _ _ (by omega)] at hzero
  exact h.2 (hzero ▸ List.getElem_mem _)

lemma Holds.unique (h : b.Holds i l) (h' : b.Holds i l') : l = l' := by
  have hlen : l.length = l'.length :=
    Nat.le_antisymm (h.length_le h') (h'.length_le h)
  refine List.ext_getElem hlen fun j hj hj' => ?_
  rw [← List.getD_eq_getElem l 0 hj, ← List.getD_eq_getElem l' 0 hj', ← h.1 j (by omega),
    h'.1 j (by omega)]

/-- A string is longer by what stands in front of it. -/
lemma Holds.append (h : b.Holds (i + l.length) l')
    (hl : ∀ j (hj : j < l.length), b.bytes (i + j) = l[j]) (hzero : 0 ∉ l) :
    b.Holds i (l ++ l') := by
  refine ⟨fun j hj => ?_, fun hmem => (List.mem_append.mp hmem).elim hzero h.2⟩
  rw [List.length_append] at hj
  obtain hlt | hle := Nat.lt_or_ge j l.length
  · rw [List.getD_append _ _ _ _ hlt, List.getD_eq_getElem _ _ hlt, hl j hlt]
  · have hj' := h.1 (j - l.length) (by omega)
    have hsum : i + l.length + (j - l.length) = i + j := by omega
    rw [List.getD_append_right _ _ _ _ hle, ← hj', hsum]

/-- A string is written with its terminator behind it. -/
lemma holds_storeAll (h : 0 ∉ l) : ((b.storeAll i l).store (i + l.length) 0).Holds i l := by
  refine ⟨fun j hj => ?_, h⟩
  obtain hlt | rfl := Nat.lt_or_eq_of_le hj
  · rw [store_bytes_of_ne (by omega), storeAll_bytes hlt, List.getD_eq_getElem _ _ hlt]
  · rw [store_bytes_self, List.getD_eq_default _ _ (Nat.le_refl _)]

end

end Buffer
