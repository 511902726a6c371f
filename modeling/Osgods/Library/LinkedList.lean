import Mathlib.Tactic.Common
import Mathlib.Logic.Function.Basic
import Mathlib.Data.List.Basic
import Mathlib.Data.List.Nodup

/-!
# Singly linked lists in a memory of nodes

Nodes of type `α` are named by pointers of type `β`; `next a` is the pointer stored in node `a`
and `null` ends a list. `Linked addr next null p l` says that the list headed by the pointer `p`
is exactly `l`.
-/

variable {α β : Type*}

/-- The pointer `p` heads the linked list of the nodes `l`. -/
def Linked (addr next : α → β) (null : β) : β → List α → Prop
  | p, []     => p = null
  | p, a :: l => p = addr a ∧ Linked addr next null (next a) l

namespace Linked

variable {addr next next' : α → β} {null p : β} {a b : α} {l l' : List α}

@[simp] lemma nil_iff : Linked addr next null p [] ↔ p = null := Iff.rfl

/-- A list reads only the pointers of its own nodes. -/
lemma congr (h : ∀ a ∈ l, next' a = next a) (hl : Linked addr next null p l) :
    Linked addr next' null p l := by
  induction l generalizing p with
  | nil => exact hl
  | cons a l ih =>
    obtain ⟨rfl, hl⟩ := hl
    refine ⟨rfl, ?_⟩
    rw [h a List.mem_cons_self]
    exact ih (fun b hb => h b (List.mem_cons_of_mem a hb)) hl

/-- Updating a node that is not on the list keeps the list. -/
lemma update [DecidableEq α] {q : β} (ha : a ∉ l) (hl : Linked addr next null p l) :
    Linked addr (Function.update next a q) null p l := by
  refine hl.congr fun b hb => ?_
  rw [Function.update_of_ne]
  rintro rfl
  exact ha hb

/-- A new node in front of a list, pointing to its head. -/
lemma push [DecidableEq α] (ha : a ∉ l) (hl : Linked addr next null p l) :
    Linked addr (Function.update next a p) null (addr a) (a :: l) := by
  refine ⟨rfl, ?_⟩
  rw [Function.update_self]
  exact hl.update ha

lemma tail (hl : Linked addr next null p (a :: l)) : Linked addr next null (next a) l := hl.2

lemma head_eq (hl : Linked addr next null p (a :: l)) : p = addr a := hl.1

/-- Every node of a list heads a list that is no longer than the one it lies on. -/
lemma exists_tail (hl : Linked addr next null p l) (hb : b ∈ l) :
    ∃ m, Linked addr next null (addr b) m ∧ m.length ≤ l.length := by
  induction l generalizing p with
  | nil => cases hb
  | cons a l ih =>
    rcases List.mem_cons.mp hb with rfl | hb
    · exact ⟨b :: l, ⟨rfl, hl.tail⟩, Nat.le_refl _⟩
    · obtain ⟨m, hm, hlen⟩ := ih hl.tail hb
      exact ⟨m, hm, Nat.le_succ_of_le hlen⟩

section

variable (haddr : Function.Injective addr) (hnull : ∀ a, addr a ≠ null)
include haddr hnull

/-- A pointer heads one list at most. -/
lemma unique (hl : Linked addr next null p l) (hl' : Linked addr next null p l') : l = l' := by
  induction l generalizing p l' with
  | nil =>
    cases l' with
    | nil => rfl
    | cons b l' =>
      rw [nil_iff] at hl
      exact absurd (hl'.head_eq.symm.trans hl) (hnull b)
  | cons a l ih =>
    cases l' with
    | nil => exact absurd (hl.head_eq.symm.trans hl') (hnull a)
    | cons b l' =>
      obtain rfl := haddr (hl.head_eq.symm.trans hl'.head_eq)
      rw [ih hl.tail hl'.tail]

/-- What a node of a list points to comes after the head. -/
lemma next_mem_tail (hl : Linked addr next null p l) (ha : a ∈ l) (hb : next a = addr b) :
    b ∈ l.tail := by
  induction l generalizing p with
  | nil => cases ha
  | cons c l ih =>
    cases l with
    | nil =>
      rw [List.mem_singleton] at ha
      subst ha
      exact absurd (hb.symm.trans hl.tail) (hnull b)
    | cons d l =>
      rcases List.mem_cons.mp ha with rfl | ha
      · rw [haddr (hb.symm.trans hl.tail.head_eq)]
        exact List.mem_cons_self
      · exact List.mem_cons_of_mem d (ih hl.tail ha)

/-- A linked list has no cycle: its nodes are distinct. -/
lemma nodup (hl : Linked addr next null p l) : l.Nodup := by
  induction l generalizing p with
  | nil => exact List.nodup_nil
  | cons a l ih =>
    refine List.nodup_cons.mpr ⟨fun ha => ?_, ih hl.tail⟩
    obtain ⟨m, hm, hlen⟩ := exists_tail hl.tail ha
    have hself : Linked addr next null (addr a) (a :: l) := ⟨rfl, hl.tail⟩
    obtain rfl := unique haddr hnull hself hm
    simp only [List.length_cons] at hlen
    omega

end

end Linked
