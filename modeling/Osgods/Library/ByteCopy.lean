import Mathlib.Tactic.Common
import Mathlib.Logic.Function.Basic
import Mathlib.Data.List.Basic
import Mathlib.Algebra.GroupWithZero.Nat

/-!
# Block copies as lists of stores

A copy in a memory with addresses `BitVec w` is given by the addresses of its two sides and a
length. `stores` lists what it writes, and `fill dst n f` is the list of the stores of `f 0`, …,
`f (n - 1)` at `dst`, `dst + 1`, …; consecutive copies are composed with `fill_append`. `copied` is
the memory after a copy between ranges that do not overlap, and `copied_copied` composes two.
-/

namespace ByteCopy

variable {w : ℕ} {β : Type*}

/-- A call of `memcpy`. -/
structure Copy (w : ℕ) where
  dst : BitVec w
  src : BitVec w
  len : BitVec w

/-- The stores of `f 0`, …, `f (n - 1)` from the address `dst` on. -/
def fill (dst : BitVec w) (n : ℕ) (f : ℕ → β) : List (BitVec w × β) :=
  (List.range n).map fun i => (dst + BitVec.ofNat w i, f i)

/-- What a copy writes, read in the memory it starts from. -/
def Copy.stores (mem : BitVec w → β) (c : Copy w) : List (BitVec w × β) :=
  fill c.dst c.len.toNat fun i => mem (c.src + BitVec.ofNat w i)

/-- The memory after a list of stores. -/
def storeAll (mem : BitVec w → β) (l : List (BitVec w × β)) : BitVec w → β :=
  l.foldl (fun m s => Function.update m s.1 s.2) mem

variable {dst a : BitVec w} {m n i : ℕ} {f g : ℕ → β} {mem : BitVec w → β}
  {l l' : List (BitVec w × β)}

@[simp] lemma length_fill : (fill dst n f).length = n := by
  simp [fill]

@[simp] lemma fill_zero : fill dst 0 f = [] := rfl

lemma map_snd_fill : (fill dst n f).map Prod.snd = (List.range n).map f := by
  simp [fill, Function.comp_def]

lemma mem_fill {s : BitVec w × β} :
    s ∈ fill dst n f ↔ ∃ i < n, s = (dst + BitVec.ofNat w i, f i) := by
  simp only [fill, List.mem_map, List.mem_range]
  constructor
  · rintro ⟨i, hi, rfl⟩
    exact ⟨i, hi, rfl⟩
  · rintro ⟨i, hi, rfl⟩
    exact ⟨i, hi, rfl⟩

lemma fill_congr (h : ∀ i < n, f i = g i) : fill dst n f = fill dst n g := by
  refine List.map_congr_left fun i hi => ?_
  rw [h i (List.mem_range.mp hi)]

/-- Two fills, the second starting where the first ends. -/
lemma fill_append :
    fill dst m f ++ fill (dst + BitVec.ofNat w m) n (fun i => f (m + i)) = fill dst (m + n) f := by
  simp only [fill, List.range_add, List.map_append, List.map_map]
  congr 1
  refine List.map_congr_left fun i _ => ?_
  simp [BitVec.add_assoc, BitVec.ofNat_add]

lemma fill_split (h : m ≤ n) :
    fill dst n f = fill dst m f ++ fill (dst + BitVec.ofNat w m) (n - m) fun i => f (m + i) := by
  rw [fill_append, Nat.add_sub_cancel' h]

lemma storeAll_append : storeAll mem (l ++ l') = storeAll (storeAll mem l) l' :=
  List.foldl_append

/-- Stores elsewhere leave a byte alone. -/
lemma storeAll_of_forall_ne (h : ∀ s ∈ l, s.1 ≠ a) : storeAll mem l a = mem a := by
  induction l generalizing mem with
  | nil => rfl
  | cons s l ih =>
    have hs : s.1 ≠ a := h s List.mem_cons_self
    refine (ih fun s' hs' => h s' (List.mem_cons_of_mem s hs')).trans ?_
    exact Function.update_of_ne hs.symm _ _

lemma add_ofNat_inj {j : ℕ} (hi : i < 2 ^ w) (hj : j < 2 ^ w)
    (h : dst + BitVec.ofNat w i = dst + BitVec.ofNat w j) : i = j := by
  have h' := congrArg BitVec.toNat ((BitVec.add_right_inj dst).mp h)
  rwa [BitVec.toNat_ofNat, BitVec.toNat_ofNat, Nat.mod_eq_of_lt hi, Nat.mod_eq_of_lt hj] at h'

/-- A fill that does not wrap around is read back. -/
lemma storeAll_fill (hn : n ≤ 2 ^ w) (hi : i < n) :
    storeAll mem (fill dst n f) (dst + BitVec.ofNat w i) = f i := by
  obtain ⟨k, rfl⟩ := Nat.exists_eq_add_of_lt hi
  rw [Nat.add_assoc, ← fill_append, storeAll_append]
  have hsplit : fill (dst + BitVec.ofNat w i) (k + 1) (fun j => f (i + j)) =
      (dst + BitVec.ofNat w i, f i) ::
        fill (dst + BitVec.ofNat w i + BitVec.ofNat w 1) k (fun j => f (i + (1 + j))) := by
    rw [Nat.add_comm k 1, ← fill_append]
    simp [fill]
  rw [hsplit, storeAll, List.foldl_cons]
  refine (storeAll_of_forall_ne fun s hs => ?_).trans (Function.update_self _ _ _)
  obtain ⟨j, hj, rfl⟩ := mem_fill.mp hs
  intro heq
  rw [BitVec.add_assoc, BitVec.add_assoc, ← BitVec.ofNat_add, ← BitVec.ofNat_add] at heq
  have := add_ofNat_inj (by omega) (by omega) heq
  omega

/-! ### Ranges that do not overlap -/

/-- The memory after a copy of `n` bytes. -/
def copied (d s : BitVec w) (n : ℕ) (mem : BitVec w → β) : BitVec w → β := fun x =>
  if (x - d).toNat < n then mem (s + (x - d)) else mem x

/-- Two ranges of `n` bytes that neither wrap around nor overlap. -/
structure Apart (d s : BitVec w) (n : ℕ) : Prop where
  dst   : d.toNat + n ≤ 2 ^ w
  src   : s.toNat + n ≤ 2 ^ w
  apart : d.toNat + n ≤ s.toNat ∨ s.toNat + n ≤ d.toNat

variable {d s x : BitVec w}

lemma toNat_sub_cases (x y : BitVec w) :
    (y.toNat ≤ x.toNat ∧ (x - y).toNat = x.toNat - y.toNat) ∨
      (x.toNat < y.toNat ∧ (x - y).toNat = 2 ^ w + x.toNat - y.toNat) := by
  by_cases h : y.toNat ≤ x.toNat
  · exact .inl ⟨h, BitVec.toNat_sub_of_le h⟩
  · refine .inr ⟨by omega, ?_⟩
    have hlt : 2 ^ w - y.toNat + x.toNat < 2 ^ w := by have := y.isLt; omega
    rw [BitVec.toNat_sub, Nat.mod_eq_of_lt hlt]
    omega

lemma toNat_add_cases (x : BitVec w) {n : ℕ} (h : x.toNat + n ≤ 2 ^ w) :
    (x.toNat + n < 2 ^ w ∧ (x + BitVec.ofNat w n).toNat = x.toNat + n) ∨
      (x.toNat + n = 2 ^ w ∧ (x + BitVec.ofNat w n).toNat = 0) := by
  rw [BitVec.toNat_add, BitVec.toNat_ofNat, Nat.add_mod_mod]
  rcases Nat.lt_or_eq_of_le h with hlt | heq
  · exact .inl ⟨hlt, Nat.mod_eq_of_lt hlt⟩
  · exact .inr ⟨heq, by rw [heq, Nat.mod_self]⟩

namespace Apart

lemma head (h : Apart d s (m + n)) : Apart d s m :=
  ⟨by have := h.dst; omega, by have := h.src; omega, by have := h.apart; omega⟩

lemma tail (h : Apart d s (m + n)) : Apart (d + BitVec.ofNat w m) (s + BitVec.ofNat w m) n := by
  have hd := toNat_add_cases d (h.head).dst
  have hs := toNat_add_cases s (h.head).src
  have hdst := h.dst
  have hsrc := h.src
  have hapart := h.apart
  constructor <;> omega

end Apart

@[simp] lemma copied_zero : copied d s 0 mem = mem := by
  funext x
  simp [copied]

/-- A copy of one byte. -/
lemma copied_one : copied d s 1 mem = Function.update mem d (mem s) := by
  funext x
  by_cases h : x = d
  · subst h
    simp [copied]
  · have hne : (x - d).toNat ≠ 0 := by
      intro h0
      have := toNat_sub_cases x d
      exact h (BitVec.eq_of_toNat_eq (by omega))
    rw [Function.update_of_ne h, copied, if_neg (by omega)]

lemma copied_of_forall_ne (h : ∀ i < n, x ≠ d + BitVec.ofNat w i) :
    copied d s n mem x = mem x := by
  refine if_neg fun hlt => h _ hlt ?_
  rw [BitVec.ofNat_toNat, BitVec.setWidth_eq, BitVec.add_comm, BitVec.sub_add_cancel]

lemma copied_add_ofNat (hn : n < 2 ^ w) (hi : i < n) :
    copied d s n mem (d + BitVec.ofNat w i) = mem (s + BitVec.ofNat w i) := by
  have hsub : d + BitVec.ofNat w i - d = BitVec.ofNat w i := by
    rw [BitVec.add_comm, BitVec.add_sub_cancel]
  have hlt : (BitVec.ofNat w i).toNat < n := by
    rwa [BitVec.toNat_ofNat, Nat.mod_eq_of_lt (Nat.lt_trans hi hn)]
  rw [copied, hsub, if_pos hlt]

/-- The second of two copies starts where the first one ends. -/
theorem copied_copied (h : Apart d s (m + n)) :
    copied (d + BitVec.ofNat w m) (s + BitVec.ofNat w m) n (copied d s m mem) =
      copied d s (m + n) mem := by
  funext x
  have hdst := h.dst
  have hsrc := h.src
  have hapart := h.apart
  have hx := (x - d).isLt
  have hsub : x - (d + BitVec.ofNat w m) = x - d - BitVec.ofNat w m := by
    rw [BitVec.sub_eq_iff_eq_add]
    rw [BitVec.add_comm d, ← BitVec.add_assoc, BitVec.sub_add_cancel, BitVec.sub_add_cancel]
  by_cases hn : n = 0
  · subst hn
    simp [copied]
  have hm : (BitVec.ofNat w m).toNat = m := by
    rw [BitVec.toNat_ofNat, Nat.mod_eq_of_lt (by omega)]
  have hoff := toNat_sub_cases (x - d) (BitVec.ofNat w m)
  rw [hm] at hoff
  simp only [copied, hsub]
  by_cases hlo : (x - d).toNat < m
  · -- behind the second range
    have hno : ¬ (x - d - BitVec.ofNat w m).toNat < n := by omega
    have hyes : (x - d).toNat < m + n := by omega
    rw [if_neg hno, if_pos hlo, if_pos hyes]
  by_cases hhi : (x - d).toNat < m + n
  · -- in the second range: its source is not in the first
    have hin : (x - d - BitVec.ofNat w m).toNat < n := by omega
    have hread : s + BitVec.ofNat w m + (x - d - BitVec.ofNat w m) = s + (x - d) := by
      rw [BitVec.add_assoc, BitVec.add_comm (BitVec.ofNat w m), BitVec.sub_add_cancel]
    have hsum : (s + (x - d)).toNat = s.toNat + (x - d).toNat := by
      rw [BitVec.toNat_add, Nat.mod_eq_of_lt (by omega)]
    have hfar : ¬ (s + (x - d) - d).toNat < m := by
      have := toNat_sub_cases (s + (x - d)) d
      omega
    rw [if_pos hin, hread, if_neg hfar, if_pos hhi]
  · have hno : ¬ (x - d - BitVec.ofNat w m).toNat < n := by omega
    rw [if_neg hno, if_neg hlo, if_neg hhi]

/-- The stores of a copy, one after the other. -/
lemma storeAll_stores (c : Copy w) :
    storeAll mem (c.stores mem) = copied c.dst c.src c.len.toNat mem := by
  funext x
  by_cases hx : ∃ i < c.len.toNat, x = c.dst + BitVec.ofNat w i
  · obtain ⟨i, hi, rfl⟩ := hx
    rw [copied_add_ofNat c.len.isLt hi]
    exact storeAll_fill (Nat.le_of_lt c.len.isLt) hi
  · simp only [not_exists, not_and] at hx
    rw [copied_of_forall_ne hx]
    refine storeAll_of_forall_ne fun s hs => ?_
    obtain ⟨i, hi, rfl⟩ := mem_fill.mp hs
    exact fun heq => hx i hi heq.symm

end ByteCopy
