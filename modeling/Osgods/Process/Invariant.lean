import Osgods.Process.Placement

/-!
# The invariant of whole steps

`Inv` holds whenever user code runs: the processes are where they should be, the user page is that
of the current process, and so is the kernel stack in the task state segment. What a terminal that
waits has stored for it is its own top process's.
-/

namespace Osgods

open Transition

structure Stacks (chain : Tid → List Slot) (k : Kernel) : Prop where
  stackTop : ∀ s, (k.pcbs s).Active → (k.pcbs s).esp0 = kernelStackTop (k.pcbs s).pid
  tssEsp0  : ∀ t, t ≠ k.scheduledTerminal → ∀ s, (chain t).head? = some s →
    (k.pcbs s).tssEsp0 = (k.pcbs s).esp0

structure Inv (chain : Tid → List Slot) (k : Kernel) (c : Slot) : Prop
    extends Mapped chain 0 k c where
  stack : Stacks chain k
  esp0  : k.tss.esp0 = (k.pcbs c).esp0

section

variable {env : Env} {chain chain' : Tid → List Slot} {k k' : Kernel} {c n p q : Slot} {regs : Regs}
  {rest : List Slot}

/-! ### Kernel stacks -/

namespace Stacks

lemma congr (h : Stacks chain k)
    (hpcb : ∀ s, ((k'.pcbs s).Active → (k.pcbs s).Active) ∧ (k'.pcbs s).pid = (k.pcbs s).pid ∧
      (k'.pcbs s).esp0 = (k.pcbs s).esp0 ∧ (k'.pcbs s).tssEsp0 = (k.pcbs s).tssEsp0)
    (hsched : k'.scheduledTerminal = k.scheduledTerminal)
    (hchain : ∀ t, t ≠ k.scheduledTerminal → chain' t = chain t) : Stacks chain' k' where
  stackTop := fun s hs => by
    obtain ⟨hactive, hpid, hesp0, -⟩ := hpcb s
    rw [hpid, hesp0]
    exact h.stackTop s (hactive hs)
  tssEsp0  := fun t ht s hhead => by
    obtain ⟨-, -, hesp0, htss⟩ := hpcb s
    rw [hsched] at ht
    rw [hchain t ht] at hhead
    rw [hesp0, htss]
    exact h.tssEsp0 t ht s hhead

/-- An update of a PCB's other fields. -/
lemma updatePcb {f : Pcb → Pcb} (h : Stacks chain k)
    (hf : (f (k.pcbs c)).active = (k.pcbs c).active ∧ (f (k.pcbs c)).pid = (k.pcbs c).pid ∧
      (f (k.pcbs c)).esp0 = (k.pcbs c).esp0 ∧ (f (k.pcbs c)).tssEsp0 = (k.pcbs c).tssEsp0) :
    Stacks chain (k.updatePcb c f) := by
  refine h.congr (fun s => ?_) rfl fun _ _ => rfl
  by_cases hs : s = c
  · subst hs
    rw [Kernel.updatePcb_pcbs, Function.update_self, Pcb.Active, hf.1]
    exact ⟨id, hf.2⟩
  · rw [Kernel.updatePcb_pcbs, Function.update_of_ne hs]
    exact ⟨id, rfl, rfl, rfl⟩

/-- A new process gets the stack of its slot. -/
lemma started (h : Stacks chain k) (hn : ∀ t, n ∉ chain t) (parentId : Word) (argument : List Byte)
    (l : List Slot) :
    Stacks (Function.update chain k.scheduledTerminal l) (k.started n parentId argument) where
  stackTop := fun s hs => by
    by_cases hsn : s = n
    · subst hsn
      simp [Kernel.started, Kernel.newPcb]
    · simp only [Kernel.started, Function.update_of_ne hsn] at hs ⊢
      exact h.stackTop s hs
  tssEsp0  := fun t ht s hhead => by
    have ht' : t ≠ k.scheduledTerminal := ht
    rw [Function.update_of_ne ht'] at hhead
    have hsn : s ≠ n := by
      rintro rfl
      exact hn t (List.mem_of_mem_head? hhead)
    simp only [Kernel.started, Function.update_of_ne hsn]
    exact h.tssEsp0 t ht' s hhead

lemma forNew (h : Stacks chain k) (n : Slot) : Stacks chain (k.forNew n) :=
  h.congr (fun _ => ⟨id, rfl, rfl, rfl⟩) rfl fun _ _ => rfl

lemma drop (h : Stacks chain k) (c : Slot) (l : List Slot) :
    Stacks (Function.update chain k.scheduledTerminal l) (k.haltCount.haltInactive c) := by
  refine h.congr (fun s => ?_) rfl fun t ht => Function.update_of_ne ht _ _
  by_cases hs : s = c
  · subst hs
    simp [Kernel.haltInactive, Kernel.haltCount, Pcb.Active]
  · simp [Kernel.haltInactive, Kernel.haltCount, Function.update_of_ne hs]

lemma halted (h : Stacks chain k) (c p : Slot) (l : List Slot) :
    Stacks (Function.update chain k.scheduledTerminal l) (k.halted c p) := by
  refine (h.drop c l).congr (fun s => ?_) (Kernel.unwound_scheduledTerminal c p _) fun _ _ => rfl
  by_cases hs : s = c
  · subst hs
    simp [Kernel.halted, Kernel.unwound, Kernel.haltCurr, Kernel.haltTss, Kernel.haltInactive,
      Kernel.haltFiles, Kernel.haltCount, Kernel.cli, Pcb.Active]
  · rw [Kernel.halted, Kernel.unwound_pcbs_of_ne hs, Kernel.haltInactive, Kernel.updatePcb_pcbs,
      Function.update_of_ne hs]
    exact ⟨id, rfl, rfl, rfl⟩

/-- What a tick stores for the process it switches out is that process's own stack top. -/
lemma switchedOut (h : Stacks chain k) (hc : Current chain 0 k c)
    (hesp0 : k.tss.esp0 = (k.pcbs c).esp0) (next : Tid) (regs : Regs) :
    Stacks chain (k.switchedOut c next regs) := by
  obtain ⟨hpcbs, -, -, -, -⟩ := Kernel.switchedOut_spec c next regs k
  refine ⟨fun s hs => ?_, fun t _ s hhead => ?_⟩
  · rw [Pcb.Active, Kernel.switchedOut_active] at hs
    have hstack := h.stackTop s hs
    rw [hpcbs]
    by_cases hsc : s = c
    · subst hsc
      rwa [Function.update_self]
    · rwa [Function.update_of_ne hsc]
  · rw [hpcbs]
    by_cases hsc : s = c
    · subst hsc
      rw [Function.update_self]
      exact hesp0
    · have ht : t ≠ k.scheduledTerminal := by
        rintro rfl
        rw [hc.top] at hhead
        exact hsc (Option.some.inj hhead).symm
      rw [Function.update_of_ne hsc]
      exact h.tssEsp0 t ht s hhead

end Stacks

/-! ### Whole steps -/

namespace Inv

lemma sti (h : Inv chain k c) : Inv chain k.sti c where
  toMapped := h.toMapped.congr (fun _ => .refl _) (fun _ => .refl _) rfl h.pid rfl rfl
  stack    := h.stack.congr (fun _ => ⟨id, rfl, rfl, rfl⟩) rfl fun _ _ => rfl
  esp0     := h.esp0

/-- An `execute` that returns. -/
lemma returned (h : Inv chain k c) {pid : Word} (hpid : pid ≠ noPid) :
    Inv chain { k.cli with pid := pid } c where
  toMapped := h.toMapped.congr (fun _ => .refl _) (fun _ => .refl _) rfl hpid rfl rfl
  stack    := h.stack.congr (fun _ => ⟨id, rfl, rfl, rfl⟩) rfl fun _ _ => rfl
  esp0     := h.esp0

/-- A base shell is started on a terminal that has none. -/
lemma base (h : Placed chain 0 k) (hstack : Stacks chain k) (hn : ¬ (k.pcbs n).Active)
    (hnil : chain k.scheduledTerminal = []) (argument : List Byte) :
    Inv (Function.update chain k.scheduledTerminal [n]) (k.base n argument) n where
  toMapped := h.base hn hnil argument
  stack    := (hstack.forNew n).started (h.chains.not_mem hn) noPid argument [n]
  esp0     := by simp [Kernel.base, Kernel.started, Kernel.newPcb]

/-- The current process starts a child. -/
lemma child (h : Inv chain k c) (hn : ¬ (k.pcbs n).Active) (argument : List Byte) (regs : Regs) :
    Inv (Function.update chain k.scheduledTerminal (n :: chain k.scheduledTerminal))
      (k.child c n argument regs) n where
  toMapped := h.toCurrent.child hn argument regs
  stack    := ((h.stack.forNew n).started (h.chains.not_mem hn) _ argument _).updatePcb
    ⟨rfl, rfl, rfl, rfl⟩
  esp0     := by
    have hnc : n ≠ c := by
      rintro rfl
      exact hn h.active
    simp [Kernel.child, Kernel.started, Kernel.newPcb, Function.update_of_ne hnc]

/-- The current process goes back to its parent. -/
lemma halted (h : Current chain 0 k c) (hstack : Stacks chain k)
    (hchain : chain k.scheduledTerminal = c :: p :: rest) :
    Inv (Function.update chain k.scheduledTerminal (p :: rest)) (k.halted c p) p where
  toMapped := h.halt_child hchain rfl
  stack    := hstack.halted c p _
  esp0     := by simp only [Kernel.halted, Kernel.unwound, Kernel.haltCurr, Kernel.haltTss]

/-- A base shell is started in the place of the current one. -/
lemma restarted (h : Current chain 0 k c) (hstack : Stacks chain k)
    (hchain : chain k.scheduledTerminal = [c])
    (hn : ¬ ((k.haltCount.haltInactive c).pcbs n).Active) (argument : List Byte) :
    Inv (Function.update chain k.scheduledTerminal [n])
      ((k.haltCount.haltInactive c).base n argument) n := by
  have hbase := base (h.drop hchain rfl) (hstack.drop c []) hn (Function.update_self _ _ _) argument
  rwa [show (k.haltCount.haltInactive c).scheduledTerminal = k.scheduledTerminal from rfl,
    Function.update_idem] at hbase

/-- A tick goes on with a process that was waiting. -/
lemma resumed (h : Inv chain k c) {next : Tid} (hnext : next ≠ k.scheduledTerminal) (regs : Regs)
    (hchain : chain next = q :: rest) : Inv chain (k.resumed c q next regs) q where
  toMapped := h.toCurrent.resumed regs hchain
  stack    := (h.stack.switchedOut h.toCurrent h.esp0 next regs).congr
    (fun _ => ⟨id, rfl, rfl, rfl⟩) rfl fun _ _ => rfl
  esp0     := by
    have hhead : (chain next).head? = some q := by
      rw [hchain]
      rfl
    have htss := h.stack.tssEsp0 next hnext q hhead
    simp only [Kernel.resumed, Kernel.restoreTss, Kernel.setCurr, Kernel.setUpPaging_pcbs,
      (Kernel.switchedOut_spec c next regs k).1,
      Function.update_of_ne (h.toCurrent.ne_of_head hnext hhead)]
    exact htss

/-- A tick launches a base shell. -/
lemma launched (h : Inv chain k c) {next : Tid} (regs : Regs) (hchain : chain next = [])
    (hn : ¬ (k.pcbs n).Active) (argument : List Byte) :
    Inv (Function.update chain next [n]) ((k.switchedOut c next regs).base n argument) n := by
  have hsched := (Kernel.switchedOut_spec c next regs k).2.2.1
  have hbase := base (n := n) (h.toCurrent.switchedOut next regs).1
    (h.stack.switchedOut h.toCurrent h.esp0 next regs)
    (by rwa [Pcb.Active, Kernel.switchedOut_active]) (by rw [hsched]; exact hchain) argument
  rwa [hsched] at hbase

/-- `vidmap` fails and does nothing, or maps the user page anew. -/
lemma vidmap (h : Inv chain k c) (screenStart : Word) {r : Word}
    (heq : k.vidmap env screenStart = .ok (r, k')) : Inv chain k' c := by
  rcases Kernel.vidmap_cases env screenStart h.curr with heq' | ⟨u, paging, heq'⟩
  · obtain ⟨-, rfl⟩ := Prod.mk.inj (Except.ok.inj (heq.symm.trans heq'))
    exact h
  · obtain ⟨-, rfl⟩ := Prod.mk.inj (Except.ok.inj (heq.symm.trans heq'))
    refine ⟨⟨⟨h.toPlaced.congr (fun _ => .refl _) (fun t => ?_) rfl h.pid, h.curr, h.top⟩, by simp⟩,
      h.stack.congr (fun _ => ⟨id, rfl, rfl, rfl⟩) rfl fun _ _ => rfl, h.esp0⟩
    simp only [Kernel.setUpPaging_terminalList, Kernel.updateTerminal_terminalList]
    by_cases ht : t = u
    · subst ht
      rw [Function.update_self]
      exact ⟨rfl, rfl, rfl, rfl⟩
    · rw [Function.update_of_ne ht]
      exact .refl _

end Inv

end

end Osgods
