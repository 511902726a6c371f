import Osgods.Process.System
import Osgods.Library.LinkedList
import Mathlib.Data.Fintype.Card

/-!
# Process chains

The active processes of a terminal form a chain through `parent_id`, from the one that runs, or
would run, down to the base shell. `Chains` says which chains there are and what is stored about
them. `debt` counts the processes of a terminal that `count_pcb` no longer counts.
-/

namespace Osgods

/-- What `parent_id` holds for a parent. -/
def pidOf (p : Option Slot) : Word := p.elim noPid slotWord

structure Chains (chain : Tid → List Slot) (debt : Tid → ℕ) (k : Kernel) : Prop where
  linked : ∀ t, Linked slotWord (fun s => (k.pcbs s).parentId) noPid
    (pidOf (chain t).head?) (chain t)
  mem    : ∀ t s, s ∈ chain t ↔ (k.pcbs s).Active ∧ (k.pcbs s).tid = t
  count  : ∀ t, (k.terminalList t).countPcb.toNat + debt t = (chain t).length
  pid    : ∀ s, (k.pcbs s).Active → (k.pcbs s).pid = slotWord s
  tid    : ∀ t, (k.terminalList t).tid = t
  next   : ∀ t, (k.terminalList t).nextTerminal = some (t + 1)

@[simp] lemma pidOf_none : pidOf none = noPid := rfl
@[simp] lemma pidOf_some (s : Slot) : pidOf (some s) = slotWord s := rfl

/-- Chains do not become empty where a process is put on top. -/
lemma update_ne_nil {chain : Tid → List Slot} {l : List Slot} (hl : l ≠ []) (t : Tid) {u : Tid}
    (hu : chain u ≠ []) : Function.update chain t l u ≠ [] := by
  rw [Function.update_apply]
  split_ifs
  · exact hl
  · exact hu

/-- The head of a list is what its pointer says. -/
lemma Linked.eq_pidOf {next : Slot → Word} {p : Word} {l : List Slot}
    (h : Linked slotWord next noPid p l) : p = pidOf l.head? := by
  cases l with
  | nil => exact h
  | cons a l => exact h.head_eq

namespace Chains

variable {chain : Tid → List Slot} {debt : Tid → ℕ} {k k' : Kernel} {n c p : Slot} {t : Tid}
  {rest : List Slot}

/-! ### Facts about the chains -/

lemma nodup (h : Chains chain debt k) (t : Tid) : (chain t).Nodup :=
  (h.linked t).nodup slotWord_injective slotWord_ne_noPid

lemma length_le (h : Chains chain debt k) (t : Tid) : (chain t).length ≤ 6 := by
  have hle := (h.nodup t).length_le_card
  rwa [Fintype.card_fin] at hle

lemma not_mem (h : Chains chain debt k) (hn : ¬ (k.pcbs n).Active) (t : Tid) : n ∉ chain t :=
  fun hmem => hn ((h.mem t n).mp hmem).1

lemma active (h : Chains chain debt k) (hc : c ∈ chain t) : (k.pcbs c).Active :=
  ((h.mem t c).mp hc).1

/-- The chains are disjoint. -/
lemma eq_of_mem (h : Chains chain debt k) {t' : Tid} (hc : c ∈ chain t) (hc' : c ∈ chain t') :
    t = t' :=
  ((h.mem t c).mp hc).2.symm.trans ((h.mem t' c).mp hc').2

/-- What the top of a chain holds about its parent. -/
lemma parentId_head (h : Chains chain debt k) (hc : chain t = c :: rest) :
    (k.pcbs c).parentId = pidOf rest.head? := by
  have hl := h.linked t
  rw [hc] at hl
  exact Linked.eq_pidOf hl.tail

/-- An active process lies on the chain of its terminal. -/
lemma mem_tid (h : Chains chain debt k) (hc : (k.pcbs c).Active) : c ∈ chain (k.pcbs c).tid :=
  (h.mem _ c).mpr ⟨hc, rfl⟩

/-- A parent is an active process of the same terminal, and not the top of a chain. -/
lemma parent_mem_tail (h : Chains chain debt k) (hc : c ∈ chain t)
    (hp : (k.pcbs c).parentId = slotWord p) : p ∈ (chain t).tail :=
  (h.linked t).next_mem_tail slotWord_injective slotWord_ne_noPid hc hp

/-! ### What the kernel's assignments do to the chains -/

/-- The chains depend on a few fields only. -/
lemma congr (h : Chains chain debt k)
    (hpcb : ∀ s, (k'.pcbs s).pid = (k.pcbs s).pid ∧ (k'.pcbs s).parentId = (k.pcbs s).parentId ∧
      (k'.pcbs s).active = (k.pcbs s).active ∧ (k'.pcbs s).tid = (k.pcbs s).tid)
    (hterm : ∀ t, (k'.terminalList t).countPcb = (k.terminalList t).countPcb ∧
      (k'.terminalList t).tid = (k.terminalList t).tid ∧
      (k'.terminalList t).nextTerminal = (k.terminalList t).nextTerminal) :
    Chains chain debt k' where
  linked := fun t => (h.linked t).congr fun s _ => (hpcb s).2.1
  mem    := fun t s => by
    rw [Pcb.Active, (hpcb s).2.2.1, (hpcb s).2.2.2]
    exact h.mem t s
  count  := fun t => by
    rw [(hterm t).1]
    exact h.count t
  pid    := fun s hs => by
    rw [Pcb.Active, (hpcb s).2.2.1] at hs
    rw [(hpcb s).1]
    exact h.pid s hs
  tid    := fun t => by
    rw [(hterm t).2.1]
    exact h.tid t
  next   := fun t => by
    rw [(hterm t).2.2]
    exact h.next t

/-- A new process on top of the scheduled terminal's chain. -/
lemma started (h : Chains chain debt k) (hn : ¬ (k.pcbs n).Active) (hpid : k.pid = slotWord n)
    (argument : List Byte) :
    Chains (Function.update chain k.scheduledTerminal (n :: chain k.scheduledTerminal)) debt
      (k.started n (pidOf (chain k.scheduledTerminal).head?) argument) where
  linked := fun t => by
    have hold : Linked slotWord (fun s => ((k.started n (pidOf (chain k.scheduledTerminal).head?)
        argument).pcbs s).parentId) noPid (pidOf (chain t).head?) (chain t) := by
      refine (h.linked t).congr fun s hs => ?_
      have hne : s ≠ n := fun heq => h.not_mem hn t (heq ▸ hs)
      simp [Kernel.started, Function.update_of_ne hne]
    by_cases ht : t = k.scheduledTerminal
    · subst ht
      rw [Function.update_self]
      refine ⟨rfl, ?_⟩
      simpa [Kernel.started, Kernel.newPcb] using hold
    · rw [Function.update_of_ne ht]
      exact hold
  mem    := fun t s => by
    by_cases hs : s = n
    · subst hs
      have hactive : ((k.started s (pidOf (chain k.scheduledTerminal).head?) argument).pcbs
          s).Active := by
        simp [Kernel.started, Kernel.newPcb, Pcb.Active]
      have htid : ((k.started s (pidOf (chain k.scheduledTerminal).head?) argument).pcbs
          s).tid = k.scheduledTerminal := by
        simp [Kernel.started, Kernel.newPcb, Kernel.scheduled, h.tid]
      rw [htid]
      by_cases ht : t = k.scheduledTerminal
      · subst ht
        simp [hactive]
      · rw [Function.update_of_ne ht]
        exact iff_of_false (h.not_mem hn t) fun hf => ht hf.2.symm
    · have hsame : (k.started n (pidOf (chain k.scheduledTerminal).head?) argument).pcbs s =
          k.pcbs s := by
        simp [Kernel.started, Function.update_of_ne hs]
      rw [hsame, ← h.mem t s]
      by_cases ht : t = k.scheduledTerminal
      · subst ht
        simp [hs]
      · rw [Function.update_of_ne ht]
  count  := fun t => by
    by_cases ht : t = k.scheduledTerminal
    · subst ht
      have hcount := h.count k.scheduledTerminal
      have hlen := h.length_le k.scheduledTerminal
      simp only [Kernel.started, Kernel.scheduled, Function.update_self, List.length_cons,
        BitVec.toNat_add, BitVec.toNat_ofNat]
      omega
    · simp only [Kernel.started, Function.update_of_ne ht]
      exact h.count t
  pid    := fun s hs => by
    by_cases hsn : s = n
    · subst hsn
      simpa [Kernel.started, Kernel.newPcb] using hpid
    · simp only [Kernel.started, Function.update_of_ne hsn] at hs ⊢
      exact h.pid s hs
  tid    := fun t => by
    by_cases ht : t = k.scheduledTerminal
    · subst ht
      simpa [Kernel.started, Kernel.scheduled] using h.tid k.scheduledTerminal
    · simpa [Kernel.started, Function.update_of_ne ht] using h.tid t
  next   := fun t => by
    by_cases ht : t = k.scheduledTerminal
    · subst ht
      simpa [Kernel.started, Kernel.scheduled] using h.next k.scheduledTerminal
    · simpa [Kernel.started, Function.update_of_ne ht] using h.next t

/-- `halt` uncounts a process before it clears its `active`. -/
lemma haltCount (h : Chains chain debt k)
    (hpos : debt k.scheduledTerminal < (chain k.scheduledTerminal).length) :
    Chains chain (Function.update debt k.scheduledTerminal (debt k.scheduledTerminal + 1))
      k.haltCount where
  linked := h.linked
  mem    := h.mem
  count  := fun t => by
    have hcount := h.count t
    by_cases ht : t = k.scheduledTerminal
    · subst ht
      simp only [Kernel.haltCount, Kernel.updateTerminal_terminalList, Function.update_self]
      rw [BitVec.toNat_sub_of_le (by rw [BitVec.le_def, BitVec.toNat_ofNat]; omega),
        BitVec.toNat_ofNat]
      omega
    · simp only [Kernel.haltCount, Kernel.updateTerminal_terminalList, Function.update_of_ne ht]
      exact hcount
  pid    := h.pid
  tid    := fun t => by
    by_cases ht : t = k.scheduledTerminal
    · subst ht
      simpa [Kernel.haltCount] using h.tid k.scheduledTerminal
    · simpa [Kernel.haltCount, Function.update_of_ne ht] using h.tid t
  next   := fun t => by
    by_cases ht : t = k.scheduledTerminal
    · subst ht
      simpa [Kernel.haltCount] using h.next k.scheduledTerminal
    · simpa [Kernel.haltCount, Function.update_of_ne ht] using h.next t

/-- The top of a chain that is no longer counted is taken off. -/
lemma haltInactive (h : Chains chain debt k) (hc : chain t = c :: rest) {d : ℕ}
    (hd : debt t = d + 1) :
    Chains (Function.update chain t rest) (Function.update debt t d) (k.haltInactive c) where
  linked := fun t' => by
    have hsame : ∀ s, ((k.haltInactive c).pcbs s).parentId = (k.pcbs s).parentId := by
      intro s
      by_cases hs : s = c
      · subst hs
        simp [Kernel.haltInactive]
      · simp [Kernel.haltInactive, Function.update_of_ne hs]
    simp only [hsame]
    by_cases ht : t' = t
    · subst ht
      have hl := h.linked t'
      rw [hc] at hl
      rw [Function.update_self, ← h.parentId_head hc]
      exact hl.tail
    · rw [Function.update_of_ne ht]
      exact h.linked t'
  mem    := fun t' s => by
    have hnodup := h.nodup t
    rw [hc, List.nodup_cons] at hnodup
    by_cases hs : s = c
    · subst hs
      have hinactive : ¬ ((k.haltInactive s).pcbs s).Active := by
        simp [Kernel.haltInactive, Pcb.Active]
      refine iff_of_false ?_ fun hf => hinactive hf.1
      by_cases ht : t' = t
      · subst ht
        rw [Function.update_self]
        exact hnodup.1
      · rw [Function.update_of_ne ht]
        intro hmem
        exact ht (h.eq_of_mem hmem (hc ▸ List.mem_cons_self))
    · have hsame : (k.haltInactive c).pcbs s = k.pcbs s := by
        simp [Kernel.haltInactive, Function.update_of_ne hs]
      rw [hsame, ← h.mem t' s]
      by_cases ht : t' = t
      · subst ht
        rw [Function.update_self, hc]
        simp [hs]
      · rw [Function.update_of_ne ht]
  count  := fun t' => by
    have hcount := h.count t'
    by_cases ht : t' = t
    · subst ht
      rw [hc, List.length_cons, hd] at hcount
      simp only [Kernel.haltInactive, Kernel.updatePcb_terminalList, Function.update_self]
      omega
    · simp only [Kernel.haltInactive, Kernel.updatePcb_terminalList, Function.update_of_ne ht]
      exact hcount
  pid    := fun s hs => by
    by_cases hsc : s = c
    · subst hsc
      simp [Kernel.haltInactive, Pcb.Active] at hs
    · simp only [Kernel.haltInactive, Kernel.updatePcb_pcbs, Function.update_of_ne hsc] at hs ⊢
      exact h.pid s hs
  tid    := h.tid
  next   := h.next

end Chains

end Osgods
