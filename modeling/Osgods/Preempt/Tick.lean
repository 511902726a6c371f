import Osgods.Process.Outcome
import Osgods.Preempt.Launch

/-!
# The scheduler under preemption

A PIT tick, cut where interrupts are on while it is handled: from the `sti` at the end of
`set_up_paging` on, when `scheduled_terminal` and `curr_pcb` are those of the next process while the
stack is still that of the previous one; and in the `execute` that launches a base shell. A further
interrupt may come at each of these points. `Nested.Safe` says which of them do no harm.
-/

namespace Osgods

open Transition

/-! ### Kernel stacks -/

/-- In the 8 KB block of the kernel stack with this top. -/
def OnStack (top a : Word) : Prop := a.toNat / kb8 = top.toNat / kb8

instance (top a : Word) : Decidable (OnStack top a) := inferInstanceAs (Decidable (_ = _))

structure Regs.OnStack (top : Word) (regs : Regs) : Prop where
  esp : Osgods.OnStack top regs.esp
  ebp : Osgods.OnStack top regs.ebp

instance (top : Word) (regs : Regs) : Decidable (regs.OnStack top) :=
  decidable_of_iff (Osgods.OnStack top regs.esp ∧ Osgods.OnStack top regs.ebp)
    ⟨fun h => ⟨h.1, h.2⟩, fun h => ⟨h.esp, h.ebp⟩⟩

/-- What the scheduler has stored in a PCB lies in the block of its process. -/
structure Pcb.OwnStack (p : Pcb) : Prop where
  regs    : Regs.OnStack (kernelStackTop p.pid) ⟨p.savedEsp, p.savedEbp⟩
  tssEsp0 : OnStack (kernelStackTop p.pid) p.tssEsp0

/-! ### The points of a tick -/

/-- What the processor goes on with. `process` is the code of a process, in user mode or in one of
its system calls; then come the statements of `scheduler` after `set_up_paging`, the last of which
is `leave; ret`, and those of the `execute` that it calls for a base shell. `next` is what `ret`
leads to. -/
inductive TickStage where
  | process
  | setCurr
  | readSaved
  | loadEbp (saved : Regs) (next : TickStage)
  | loadEsp (saved : Regs) (next : TickStage)
  | loadTss (next : TickStage)
  | leaving (next : TickStage)
  | launching (x : ExecCall) (s : ExecState) (next : TickStage)

/-- The system within its ticks. `esp` lies on the stack that a handler uses; `context` is what the
registers in a PCB lead to when they are loaded; `switchedOut` are the processes for which the
scheduler has stored a context. -/
structure Nested where
  system      : System
  stage       : TickStage
  esp         : Word
  context     : Slot → TickStage
  switchedOut : Slot → Bool

inductive NestedMove where
  | process (a : Action)
  | interrupt (regs : Regs)
  | statement

/-- A step in which the current process ends: a halt, or a page fault in the kernel. -/
def System.ends (env : Env) (s : System) : Action → Bool
  | .execute command regs =>
    match s.kernel.execute env (command.map Command.text) regs with
    | .ok _    => false
    | .error _ => true
  | .halt _ _             => true
  | .tick _               => false
  | .vidmap screenStart   =>
    match s.kernel.vidmap env screenStart with
    | .ok _    => false
    | .error _ => true

/-- A system call finds its registers on the kernel stack of the process. -/
def Action.OnStack (top : Word) : Action → Prop
  | .execute _ regs => regs.OnStack top
  | .halt _ regs    => regs.OnStack top
  | .tick _         => False
  | .vidmap _       => True

instance (top : Word) (a : Action) : Decidable (a.OnStack top) :=
  match a with
  | .execute _ regs => inferInstanceAs (Decidable (regs.OnStack top))
  | .halt _ regs    => inferInstanceAs (Decidable (regs.OnStack top))
  | .tick _         => .isFalse id
  | .vidmap _       => .isTrue trivial

namespace Nested

/-- The stack that an interrupt pushes to: that of the task state segment, or the one in use. -/
def top (n : Nested) : Word :=
  match n.stage with
  | .process => n.system.kernel.tss.esp0
  | _        => n.esp

def setKernel (k : Kernel) (n : Nested) : Nested :=
  { n with system := { n.system with kernel := k } }

/-- A system call of the current process. -/
def process (env : Env) (a : Action) (n : Nested) : Option Nested :=
  match n.stage with
  | .process =>
    if a.OnStack n.top then
      (n.system.step env a).map fun s =>
        { n with
          system      := s
          switchedOut := fun p =>
            n.switchedOut p && !(n.system.ends env a && decide (p = n.system.running)) }
    else none
  | _ => none

/-- The context that is stored is that of the code that was interrupted. -/
def store (n : Nested) : Nested :=
  match n.system.kernel.currPcb with
  | none   => n
  | some c =>
    if n.system.kernel.pid = noPid then n
    else { n with
      context     := Function.update n.context c n.stage
      switchedOut := Function.update n.switchedOut c true }

/-- `pit_intr_handler` up to the next point at which interrupts are on. A null `pcb_ptr` faults. -/
def interrupt (env : Env) (regs : Regs) (n : Nested) : Option Nested :=
  if n.system.kernel.interruptFlag ∧ regs.OnStack n.top then
    match n.system.kernel.cli.memorySwitch.storePcbPtr.saveContext regs with
    | .error _ => none
    | .ok k    =>
      match k.scheduled.nextTerminal with
      | none      => some (n.store.setKernel k.sti)
      | some next =>
        let k := k.setScheduled next
        if k.scheduled.countPcb = 0#32 then
          match execBegin env shellCommand regs k with
          | some (x, s) =>
            some { n.store.setKernel s.kernel with
              stage := .launching x s n.stage
              esp   := regs.esp }
          | none =>
            match k.execute env (some shellCommand.text) regs with
            | .ok (.returned _, k) => some (n.store.setKernel k.sti)
            | _                    => none
        else
          match k.scheduled.pcbPtr with
          | none   => none
          | some q =>
            some { n.store.setKernel (k.setUpPaging (k.pcbs q).pid) with
              stage := .setCurr
              esp   := regs.esp }
  else none

/-- The `execute` that `scheduler` has called, after a statement: it enters the new process, returns
to `scheduler`, or goes on. -/
def launch (x : ExecCall) (s : ExecState) (next : TickStage) (n : Nested) : Nested :=
  match s.stage with
  | .started q => { n with system := ⟨s.kernel.sti, q⟩, stage := .process }
  | .returned  => { n.setKernel s.kernel.sti with stage := next }
  | _          => { n.setKernel s.kernel with stage := .launching x s next }

/-- The next statement of `scheduler`, or of the `execute` that it has called. -/
def statement (env : Env) (n : Nested) : Option Nested :=
  let k := n.system.kernel
  match n.stage with
  | .process => none
  | .setCurr =>
    some { n.setKernel { k with currPcb := k.scheduled.pcbPtr } with stage := .readSaved }
  | .readSaved =>
    k.scheduled.pcbPtr.map fun q =>
      { n with stage := .loadEbp ⟨(k.pcbs q).savedEsp, (k.pcbs q).savedEbp⟩ (n.context q) }
  | .loadEbp saved next => some { n with stage := .loadEsp saved next }
  | .loadEsp saved next => some { n with stage := .loadTss next, esp := saved.esp }
  | .loadTss next =>
    k.scheduled.pcbPtr.map fun q =>
      { n with system := ⟨k.restoreTss q, q⟩, stage := .leaving next }
  | .leaving next => some { n.setKernel k.sti with stage := next }
  | .launching x s next => (x.inner env { s with kernel := k }).map fun s' => n.launch x s' next

def step (env : Env) (n : Nested) : NestedMove → Option Nested
  | .process a      => n.process env a
  | .interrupt regs => n.interrupt env regs
  | .statement      => n.statement env

/-- The first shell runs. -/
def start (s : System) : Nested := ⟨s, .process, 0#32, fun _ => .process, fun _ => false⟩

end Nested

/-! ### Harmless interrupts -/

/-- The stack, `tss.esp0` and `curr_pcb` are those of one process. -/
def TickStage.settled : TickStage → Bool
  | .process      => true
  | .leaving next => next.settled
  | _             => false

/-- No further interrupt comes from the `sti` of `set_up_paging` until `tss.esp0` is loaded, nor
while a base shell is launched; and one that has a base shell to launch finds a PCB for it. -/
def Nested.Safe (n : Nested) : NestedMove → Prop
  | .interrupt regs => n.stage.settled = true ∧ LaunchOk n.system (.tick regs)
  | _               => True

instance (n : Nested) (m : NestedMove) : Decidable (n.Safe m) :=
  match m with
  | .process _      => .isTrue trivial
  | .interrupt regs =>
    inferInstanceAs (Decidable (n.stage.settled = true ∧ LaunchOk n.system (.tick regs)))
  | .statement      => .isTrue trivial

/-- Every pair of registers that has been stored lies on the kernel stack of the process of its PCB.
So does the `tss_esp0` of a process that the scheduler has switched out, and these are the processes
that it will go on with. The `tss_esp0` of a process that it has not switched out is still what
`create_pcb` has found in the task state segment, the stack of the process that ran before it. -/
structure OwnStacks (first : Slot → Regs) (k : Kernel) (switchedOut : Slot → Bool) : Prop where
  regs    : ∀ s, k.saved s = first s ∨ (k.saved s).OnStack (kernelStackTop (slotWord s))
  active  : ∀ s, switchedOut s = true → (k.pcbs s).Active
  stored  : ∀ s, switchedOut s = true → (k.pcbs s).OwnStack
  waiting : ∀ t, t ≠ k.scheduledTerminal → ∀ q, (k.terminalList t).pcbPtr = some q →
    switchedOut q = true

section

variable {env : Env} {x : ExecCall} {e e' : ExecState} {chain chain' : Tid → List Slot}
  {k k' : Kernel} {stored stored' : Slot → Bool} {c q : Slot} {p : Pcb} {top : Word} {regs : Regs}
  {s s' : System} {a : Action} {n n' : Nested} {first : Slot → Regs}

/-! ### Stored contexts -/

namespace OwnStacks

/-- Stored contexts that stay as they are, except those of processes that ended. -/
lemma congr (h : OwnStacks first k stored) (hsub : ∀ t, stored' t = true → stored t = true)
    (hactive : ∀ t, stored' t = true → (k.pcbs t).Active → (k'.pcbs t).Active)
    (hown : ∀ t, stored' t = true → (k.pcbs t).OwnStack → (k'.pcbs t).OwnStack)
    (hsaved : ∀ t, k'.saved t = k.saved t ∨ (k'.saved t).OnStack (kernelStackTop (slotWord t)))
    (hsched : k'.scheduledTerminal = k.scheduledTerminal)
    (hptr : ∀ t, (k'.terminalList t).pcbPtr = (k.terminalList t).pcbPtr)
    (hkeep : ∀ t, t ≠ k.scheduledTerminal → ∀ q, (k.terminalList t).pcbPtr = some q →
      stored q = true → stored' q = true) : OwnStacks first k' stored' where
  regs    := fun t => by
    rcases hsaved t with heq | hstack
    · rw [heq]
      exact h.regs t
    · exact Or.inr hstack
  active  := fun t ht => hactive t ht (h.active t (hsub t ht))
  stored  := fun t ht => hown t ht (h.stored t (hsub t ht))
  waiting := fun t ht q hq => by
    rw [hsched] at ht
    rw [hptr] at hq
    exact hkeep t ht q hq (h.waiting t ht q hq)

/-- Changes to other data, and to PCBs of which nothing is stored. -/
lemma of_pcbs (h : OwnStacks first k stored) (hpcb : ∀ t, stored t = true → k'.pcbs t = k.pcbs t)
    (hsaved : k'.saved = k.saved) (hsched : k'.scheduledTerminal = k.scheduledTerminal)
    (hptr : ∀ t, (k'.terminalList t).pcbPtr = (k.terminalList t).pcbPtr) :
    OwnStacks first k' stored := by
  refine h.congr (fun _ => id) (fun t ht hactive => ?_) (fun t ht hown => ?_)
    (fun t => Or.inl (congrFun hsaved t)) hsched hptr fun _ _ _ _ => id
  · rw [Pcb.Active, hpcb t ht]
    exact hactive
  · rw [hpcb t ht]
    exact hown

lemma sti (h : OwnStacks first k stored) : OwnStacks first k.sti stored :=
  h.of_pcbs (fun _ _ => rfl) rfl rfl fun _ => rfl

end OwnStacks

lemma OnStack.trans {b d : Word} (h : OnStack top b) (h' : OnStack b d) : OnStack top d :=
  Eq.trans h' h

lemma Regs.OnStack.trans {b : Word} (h : Osgods.OnStack top b) (h' : regs.OnStack b) :
    regs.OnStack top :=
  ⟨h.trans h'.esp, h.trans h'.ebp⟩

/-- The kernel stack that the processor switches to is that of the current process. -/
lemma Inv.tss_top (h : Inv chain k c) : k.tss.esp0 = kernelStackTop (k.pcbs c).pid :=
  h.esp0.trans (h.stack.stackTop c h.active)

/-! ### System calls -/

lemma Halted.ownStacks (h : OwnStacks first k stored) (hc : Current chain 0 k c)
    (hhalt : Halted chain k c s' chain') :
    OwnStacks first s'.kernel fun t => stored t && !decide (t = c) := by
  have hsub : ∀ t, (stored t && !decide (t = c)) = true → stored t = true ∧ t ≠ c := by
    intro t ht
    simpa using ht
  have hkeep : ∀ t, t ≠ k.scheduledTerminal → ∀ q, (k.terminalList t).pcbPtr = some q →
      stored q = true → (stored q && !decide (q = c)) = true := by
    intro t ht q hq hstored
    rw [hc.waiting t ht] at hq
    simp [hstored, hc.ne_of_head ht hq]
  cases hhalt with
  | @resumed p rest hchain =>
    have hpcb : ∀ t, t ≠ c → (k.halted c p).pcbs t = k.pcbs t :=
      fun t ht => Kernel.unwound_pcbs_of_ne ht k.haltCount
    refine OwnStacks.sti (h.congr (fun t ht => (hsub t ht).1) (fun t ht hactive => ?_)
      (fun t ht hown => ?_) (fun t => Or.inl (congrFun (saved_halted k) t))
      (Kernel.unwound_scheduledTerminal c p _) (fun t => ?_) hkeep)
    · rw [Pcb.Active, hpcb t (hsub t ht).2]
      exact hactive
    · rw [hpcb t (hsub t ht).2]
      exact hown
    · refine (unwound_terminal_like c p t k.haltCount).2.2.2.trans ?_
      by_cases ht : t = k.scheduledTerminal
      · subst ht
        simp [Kernel.haltInactive, Kernel.haltCount]
      · simp [Kernel.haltInactive, Kernel.haltCount, Function.update_of_ne ht]
  | @restarted m argument hchain hm =>
    have hpcb : ∀ t, (stored t && !decide (t = c)) = true →
        ((k.haltCount.haltInactive c).base m argument).pcbs t = k.pcbs t := by
      intro t ht
      obtain ⟨hstored, hne⟩ := hsub t ht
      have htm : t ≠ m := by
        rintro rfl
        refine hm ?_
        rw [Pcb.Active, Kernel.haltInactive, Kernel.updatePcb_pcbs, Function.update_of_ne hne]
        exact h.active t hstored
      simp [Kernel.base, Kernel.started, Kernel.forNew, Kernel.haltInactive, Kernel.haltCount,
        Kernel.cli, Function.update_of_ne htm, Function.update_of_ne hne]
    have hsaved : ((k.haltCount.haltInactive c).base m argument).saved = k.saved := by
      rw [Kernel.base, saved_started, saved_forNew, saved_haltInactive, saved_haltCount]
    refine OwnStacks.sti (h.congr (fun t ht => (hsub t ht).1) (fun t ht hactive => ?_)
      (fun t ht hown => ?_) (fun t => Or.inl (congrFun hsaved t)) rfl (fun t => ?_) hkeep)
    · rw [Pcb.Active, hpcb t ht]
      exact hactive
    · rw [hpcb t ht]
      exact hown
    · by_cases ht : t = k.scheduledTerminal
      · subst ht
        simp [Kernel.base, Kernel.started, Kernel.forNew, Kernel.haltInactive, Kernel.haltCount,
          Kernel.cli, Kernel.scheduled]
      · simp [Kernel.base, Kernel.started, Kernel.forNew, Kernel.haltInactive, Kernel.haltCount,
          Kernel.cli, Function.update_of_ne ht]

/-- A system call stores the registers of the process in its own PCB, if anywhere. -/
lemma Outcome.ownStacks (h : OwnStacks first s.kernel stored) (hinv : Inv chain s.kernel s.running)
    (hout : Outcome env chain s a s' chain') (ha : a.OnStack s.kernel.tss.esp0) :
    OwnStacks first s'.kernel fun t =>
      stored t && !(s.ends env a && decide (t = s.running)) := by
  cases hout with
  | returned hpid heq =>
    simp only [System.ends, heq, Bool.false_and, Bool.not_false, Bool.and_true]
    exact h.of_pcbs (fun _ _ => rfl) rfl rfl fun _ => rfl
  | @child command regs m argument eip hm heq =>
    simp only [System.ends, heq, Bool.false_and, Bool.not_false, Bool.and_true]
    have hregs : regs.OnStack (kernelStackTop (s.kernel.pcbs s.running).pid) := by
      rw [← hinv.tss_top]
      exact ha
    have hne : ∀ t, stored t = true → t ≠ m := by
      rintro t ht rfl
      exact hm (h.active t ht)
    have hpcb : ∀ t, stored t = true →
        (s.kernel.child s.running m argument regs).pcbs t = if t = s.running then
          { s.kernel.pcbs t with savedEsp := regs.esp, savedEbp := regs.ebp }
        else s.kernel.pcbs t := by
      intro t ht
      by_cases hts : t = s.running
      · subst hts
        simp [Kernel.child, Kernel.started, Kernel.forNew, Kernel.cli,
          Function.update_of_ne (hne _ ht)]
      · simp [Kernel.child, Kernel.started, Kernel.forNew, Kernel.cli,
          Function.update_of_ne (hne _ ht), hts]
    have hsaved := saved_child (c := s.running) (n := m) argument regs s.kernel
    refine OwnStacks.sti (h.congr (fun _ => id) (fun t ht hactive => ?_) (fun t ht hown => ?_)
      (fun t => ?_) rfl (fun t => ?_) fun _ _ _ _ => id)
    · rw [Pcb.Active, hpcb t ht]
      split_ifs
      · exact hactive
      · exact hactive
    · rw [hpcb t ht]
      split_ifs with hts
      · subst hts
        exact ⟨hregs, hown.tssEsp0⟩
      · exact hown
    · rw [hsaved, Function.update_apply]
      split_ifs with hts
      · subst hts
        rw [hinv.pid_eq] at hregs
        exact Or.inr hregs
      · exact Or.inl rfl
    · by_cases ht : t = s.kernel.scheduledTerminal
      · subst ht
        simp [Kernel.child, Kernel.started, Kernel.forNew, Kernel.cli, Kernel.scheduled]
      · simp [Kernel.child, Kernel.started, Kernel.forNew, Kernel.cli, Function.update_of_ne ht]
  | @faulted command regs m _ _ hhalt heq =>
    simp only [System.ends, heq, Bool.true_and]
    have hnew : OwnStacks first (s.kernel.forNew m) stored :=
      h.of_pcbs (fun _ _ => rfl) rfl rfl fun _ => rfl
    exact hhalt.ownStacks hnew (hinv.toCurrent.forNew m)
  | halted hhalt =>
    simp only [System.ends, Bool.true_and]
    exact hhalt.ownStacks h hinv.toCurrent
  | resumed hchain => exact ha.elim
  | launched argument hchain hm => exact ha.elim
  | @vidmap screenStart r k' heq =>
    simp only [System.ends, heq, Bool.false_and, Bool.not_false, Bool.and_true]
    refine OwnStacks.sti ?_
    rcases Kernel.vidmap_cases env screenStart hinv.curr with heq' | ⟨u, paging, heq'⟩
    · obtain ⟨-, rfl⟩ := Prod.mk.inj (Except.ok.inj (heq.symm.trans heq'))
      exact h
    · obtain ⟨-, rfl⟩ := Prod.mk.inj (Except.ok.inj (heq.symm.trans heq'))
      refine h.of_pcbs (fun _ _ => rfl) rfl rfl fun t => ?_
      by_cases ht : t = u
      · subst ht
        simp
      · simp [Function.update_of_ne ht]

/-! ### The first half of a tick -/

/-- The context of the current process is stored in its own PCB. -/
lemma OwnStacks.switchedOut (h : OwnStacks first k stored) (hinv : Inv chain k c)
    (hregs : regs.OnStack k.tss.esp0) (next : Tid) :
    OwnStacks first (k.switchedOut c next regs) (Function.update stored c true) := by
  obtain ⟨hpcbs, hterms, hsched, -, -⟩ := Kernel.switchedOut_spec c next regs k
  have hpcb : ∀ t, t ≠ c → (k.switchedOut c next regs).pcbs t = k.pcbs t := by
    intro t ht
    rw [hpcbs, Function.update_of_ne ht]
  refine ⟨fun t => ?_, fun t ht => ?_, fun t ht => ?_, fun t ht q hq => ?_⟩
  · rw [saved_switchedOut, Function.update_apply]
    split_ifs with htc
    · subst htc
      rw [hinv.tss_top, hinv.pid_eq] at hregs
      exact Or.inr hregs
    · exact h.regs t
  · rw [Pcb.Active, Kernel.switchedOut_active]
    by_cases htc : t = c
    · subst htc
      exact hinv.active
    · rw [Function.update_of_ne htc] at ht
      exact h.active t ht
  · by_cases htc : t = c
    · subst htc
      rw [hinv.tss_top] at hregs
      rw [hpcbs, Function.update_self]
      exact ⟨hregs, congrArg (fun top : Word => top.toNat / kb8) hinv.tss_top⟩
    · rw [Function.update_of_ne htc] at ht
      rw [hpcb t htc]
      exact h.stored t ht
  · by_cases hqc : q = c
    · subst hqc
      exact Function.update_self _ _ _
    · rw [Function.update_of_ne hqc]
      rw [hterms] at hq
      by_cases hts : t = k.scheduledTerminal
      · subst hts
        rw [Function.update_self] at hq
        exact absurd (Option.some.inj (hq.symm.trans hinv.curr)) hqc
      · rw [Function.update_of_ne hts] at hq
        exact h.waiting t hts q hq

/-- An interrupt of a process that is current. -/
lemma Nested.interrupt_eq (h : Inv chain n.system.kernel n.system.running)
    (hregs : regs.OnStack n.top) (hflag : n.system.kernel.interruptFlag = true) :
    let next := n.system.kernel.scheduledTerminal + 1
    let k := n.system.kernel.switchedOut n.system.running next regs
    n.interrupt env regs =
      if k.scheduled.countPcb = 0#32 then
        match execBegin env shellCommand regs k with
        | some (x, s) =>
          some { n.store.setKernel s.kernel with
            stage := .launching x s n.stage
            esp   := regs.esp }
        | none =>
          match k.execute env (some shellCommand.text) regs with
          | .ok (.returned _, k) => some (n.store.setKernel k.sti)
          | _                    => none
      else
        match k.scheduled.pcbPtr with
        | none   => none
        | some q =>
          some { n.store.setKernel (k.setUpPaging (k.pcbs q).pid) with
            stage := .setCurr
            esp   := regs.esp } := by
  obtain ⟨v, w, y, g, heq, -⟩ := Kernel.memorySwitch_eq n.system.kernel.cli
  have hpid : n.system.kernel.cli.memorySwitch.pid ≠ noPid := by
    rw [heq]
    exact h.pid
  have hcurr : n.system.kernel.cli.memorySwitch.currPcb = some n.system.running := by
    rw [heq]
    exact h.curr
  have hnext : n.system.kernel.cli.memorySwitch.scheduled.nextTerminal =
      some (n.system.kernel.scheduledTerminal + 1) := by
    rw [heq]
    exact h.chains.next n.system.kernel.scheduledTerminal
  dsimp only
  rw [interrupt, if_pos ⟨hflag, hregs⟩, Kernel.saveContext_eq hpid hcurr]
  simp only [Kernel.scheduled_nextTerminal_stored, hnext]
  rfl

lemma Nested.store_eq (h : Inv chain n.system.kernel n.system.running) : n.store =
    { n with
      context     := Function.update n.context n.system.running n.stage
      switchedOut := Function.update n.switchedOut n.system.running true } := by
  rw [store, h.curr]
  exact if_neg h.pid

/-- It comes to a terminal with processes, and the user page is set up for the one that waits; or to
a terminal without, and a shell is launched. -/
lemma Nested.interrupt_cases (hshell : HasShell env.img)
    (h : Inv chain n.system.kernel n.system.running) (hregs : regs.OnStack n.top)
    (hflag : n.system.kernel.interruptFlag = true) (hlaunch : LaunchOk n.system (.tick regs)) :
    let next := n.system.kernel.scheduledTerminal + 1
    let k := n.system.kernel.switchedOut n.system.running next regs
    (∃ q rest, chain (n.system.kernel.scheduledTerminal + 1) = q :: rest ∧
      k.scheduled.countPcb ≠ 0#32 ∧ k.scheduled.pcbPtr = some q ∧ (k.pcbs q).pid = slotWord q ∧
      n.interrupt env regs = some { n.store.setKernel (k.setUpPaging (slotWord q)) with
        stage := .setCurr
        esp   := regs.esp }) ∨
    ∃ x e m argument eip, chain (n.system.kernel.scheduledTerminal + 1) = [] ∧
      k.scheduled.countPcb = 0#32 ∧ ¬ (n.system.kernel.pcbs m).Active ∧
      execBegin env shellCommand regs k = some (x, e) ∧
      k.execute env (some shellCommand.text) regs = .ok (.started m eip, k.base m argument) ∧
      n.interrupt env regs = some { n.store.setKernel e.kernel with
        stage := .launching x e n.stage
        esp   := regs.esp } := by
  intro next k
  obtain ⟨hplaced, hptr⟩ := h.toCurrent.switchedOut (n.system.kernel.scheduledTerminal + 1) regs
  obtain ⟨-, -, hsched, -, -⟩ := Kernel.switchedOut_spec n.system.running
    (n.system.kernel.scheduledTerminal + 1) regs n.system.kernel
  have hcount : k.scheduled.countPcb = 0#32 ↔
      chain (n.system.kernel.scheduledTerminal + 1) = [] := by
    rw [Kernel.scheduled, hsched]
    exact hplaced.count_eq_zero _
  have heq : n.interrupt env regs = _ := interrupt_eq h hregs hflag
  cases hchain : chain (n.system.kernel.scheduledTerminal + 1) with
  | nil =>
    have hzero := hcount.mpr hchain
    have hfree : k.determineWhichPcbEmpty ≠ none := by
      rw [Kernel.switchedOut_determineWhichPcbEmpty]
      exact hlaunch _ (h.chains.next _) ((h.count_eq_zero _).mpr hchain)
    obtain ⟨m, hslot⟩ := Option.ne_none_iff_exists'.mp hfree
    have hm := Kernel.determineWhichPcbEmpty_eq_some hslot
    rw [Pcb.Active, Kernel.switchedOut_active] at hm
    obtain ⟨argument, eip, hexec⟩ := execute_shell regs hshell hzero hslot
    obtain ⟨x, e, hbegin, -⟩ := exists_execBegin hexec
    refine Or.inr ⟨x, e, m, argument, eip, rfl, hzero, hm, hbegin, hexec, ?_⟩
    rw [heq, if_pos hzero, hbegin]
  | cons q rest =>
    have hnonzero : ¬ k.scheduled.countPcb = 0#32 := by
      rw [hcount, hchain]
      exact List.cons_ne_nil q rest
    have hq : k.scheduled.pcbPtr = some q := by
      rw [hptr, hchain]
      rfl
    have hpid : (k.pcbs q).pid = slotWord q :=
      hplaced.chains.pid q (hplaced.chains.active (hchain ▸ List.mem_cons_self))
    refine Or.inl ⟨q, rest, rfl, hnonzero, hq, hpid, ?_⟩
    rw [heq, if_neg hnonzero, hq]
    dsimp only
    rw [hpid]

/-! ### The invariant -/

/-- The process `q` is resumed when its `tss_esp0` is loaded. -/
structure Resuming (k : Kernel) (q : Slot) : Prop where
  ptr : k.scheduled.pcbPtr = some q
  inv : ∃ chain, Inv chain (k.restoreTss q) q

/-- The launch of a base shell, which comes to its end when nothing interrupts it. -/
structure Launching (env : Env) (x : ExecCall) (e : ExecState) (stored : Slot → Bool) : Prop where
  ok    : x.Ok env
  inv   : ExecInv env x e
  away  : e.away = none
  alone : e.stage.Alone x.selected e.kernel
  fresh : stored x.selected = false
  run   : ∃ m e' q chain, Run (Graph (x.step env)) e (List.replicate m .inner) e' ∧
    e'.stage = .started q ∧ Inv chain e'.kernel.sti q

namespace Nested

/-- Some process is current, and its stack is in use. -/
structure Settled (n : Nested) : Prop where
  inv : ∃ chain, Inv chain n.system.kernel n.system.running
  top : OnStack n.system.kernel.tss.esp0 n.top

def StageInv (env : Env) (n : Nested) : Prop :=
  match n.stage with
  | .process => n.Settled
  | .setCurr =>
    ∃ q, Resuming { n.system.kernel with currPcb := n.system.kernel.scheduled.pcbPtr } q ∧
      n.switchedOut q = true
  | .readSaved => ∃ q, Resuming n.system.kernel q ∧ n.switchedOut q = true
  | .loadEbp saved next | .loadEsp saved next => next.settled = true ∧
    ∃ q, Resuming n.system.kernel q ∧
      OnStack (kernelStackTop (n.system.kernel.pcbs q).pid) saved.esp
  | .loadTss next => next.settled = true ∧
    ∃ q, Resuming n.system.kernel q ∧ OnStack (kernelStackTop (n.system.kernel.pcbs q).pid) n.esp
  | .leaving next => next.settled = true ∧ n.Settled
  | .launching x e _ => Launching env x { e with kernel := n.system.kernel } n.switchedOut

end Nested

structure NestedInv (env : Env) (first : Slot → Regs) (n : Nested) : Prop where
  own     : OwnStacks first n.system.kernel n.switchedOut
  context : ∀ t, (n.context t).settled = true
  stage   : n.StageInv env

/-! ### Launches -/

namespace Launching

lemma launches (h : Launching env x e stored) :
    Launches env x e fun q k => ∃ chain, Inv chain k.sti q := by
  obtain ⟨m, e', q, chain, hrun, hstarted, hinv⟩ := h.run
  exact ⟨h.ok, h.inv, h.away, h.alone, m, e', q, hrun, hstarted, chain, hinv⟩

lemma of_launches (h : Launches env x e fun q k => ∃ chain, Inv chain k.sti q)
    (hfresh : stored x.selected = false) : Launching env x e stored := by
  obtain ⟨m, e', q, hrun, hstarted, chain, hinv⟩ := h.run
  exact ⟨h.ok, h.inv, h.away, h.alone, hfresh, m, e', q, chain, hrun, hstarted, hinv⟩

/-- The launch ends, or goes on. -/
lemma inner (h : Launching env x e stored) (hown : OwnStacks first e.kernel stored)
    (hstep : x.inner env e = some e') :
    OwnStacks first e'.kernel stored ∧
      ((∃ q chain, e'.stage = .started q ∧ Inv chain e'.kernel.sti q) ∨
        (∀ q, e'.stage ≠ .started q) ∧ e'.stage ≠ .returned ∧ Launching env x e' stored) := by
  obtain ⟨hpcbs, hsched, hptr, -⟩ := ExecCall.inner_frame h.inv.locals h.alone hstep
  constructor
  · refine hown.of_pcbs (fun t ht => hpcbs t ?_)
      (ExecCall.inner_saved h.inv.locals h.alone hstep) hsched hptr
    rintro rfl
    rw [h.fresh] at ht
    cases ht
  · rcases h.launches.inner hstep with ⟨q, hstarted, chain, hinv⟩ | ⟨hnot, hreturned, hrest⟩
    · exact Or.inl ⟨q, chain, hstarted, hinv⟩
    · exact Or.inr ⟨hnot, hreturned, of_launches hrest h.fresh⟩

/-- The launch of a shell on a terminal without processes. -/
lemma of_execBegin (hshell : HasShell env.img) (hcount : k.scheduled.countPcb = 0#32)
    (hown : OwnStacks first k stored) {m : Slot} {eip : Word}
    (hbegin : execBegin env shellCommand regs k = some (x, e))
    (hexec : k.execute env (some shellCommand.text) regs = .ok (.started m eip, k'))
    (hinv : Inv chain k' m) : OwnStacks first e.kernel stored ∧ Launching env x e stored := by
  have hlaunches := Launches.of_execBegin (P := fun q k => ∃ chain, Inv chain k.sti q) hshell hcount
    hbegin hexec ⟨chain, hinv.sti⟩
  obtain ⟨hfree, rfl⟩ := execBegin_spec hbegin
  refine ⟨hown.of_pcbs (fun _ _ => rfl) rfl rfl fun _ => rfl, of_launches hlaunches ?_⟩
  by_contra hstored
  exact hfree (hown.active x.selected (by simpa using hstored))

end Launching

lemma Nested.launch_started {next : TickStage} (h : e.stage = .started q) :
    n.launch x e next = { n with system := ⟨e.kernel.sti, q⟩, stage := .process } := by
  simp only [launch, h]

lemma Nested.launch_goes_on {next : TickStage} (hstarted : ∀ q, e.stage ≠ .started q)
    (hreturned : e.stage ≠ .returned) :
    n.launch x e next = { n.setKernel e.kernel with stage := .launching x e next } := by
  cases h : e.stage with
  | started q => exact absurd h (hstarted q)
  | returned => exact absurd h hreturned
  | _ => simp only [launch, h]

/-! ### Steps -/

namespace NestedInv

lemma settled (h : NestedInv env first n) (hs : n.stage.settled = true) : n.Settled := by
  have hstage := h.stage
  rw [Nested.StageInv] at hstage
  cases hn : n.stage with
  | process =>
    rw [hn] at hstage
    exact hstage
  | leaving next =>
    rw [hn] at hstage
    exact hstage.2
  | _ =>
    rw [hn] at hs
    cases hs

lemma of_settled (hown : OwnStacks first n.system.kernel n.switchedOut)
    (hcontext : ∀ t, (n.context t).settled = true) (hn : n.Settled)
    (hs : n.stage.settled = true) : NestedInv env first n := by
  refine ⟨hown, hcontext, ?_⟩
  rw [Nested.StageInv]
  cases hstage : n.stage with
  | process => exact hn
  | leaving next =>
    rw [hstage] at hs
    exact ⟨hs, hn⟩
  | _ =>
    rw [hstage] at hs
    cases hs

/-- A system call. -/
lemma process (hshell : HasShell env.img) (h : NestedInv env first n)
    (hstep : n.process env a = some n') : NestedInv env first n' := by
  obtain ⟨s, stage, esp, context, stored⟩ := n
  cases stage with
  | process =>
    obtain ⟨chain, hinv⟩ := (h.settled rfl).inv
    simp only [Nested.process] at hstep
    split_ifs at hstep with ha
    obtain ⟨s', hsystem, rfl⟩ := Option.map_eq_some_iff.mp hstep
    have hlaunch : LaunchOk s a := by
      cases a with
      | tick regs => exact ha.elim
      | _ => trivial
    obtain ⟨chain', hout⟩ := hinv.outcome hshell hlaunch hsystem
    exact of_settled (hout.ownStacks h.own hinv ha) h.context ⟨⟨chain', hout.inv hinv⟩, rfl⟩ rfl
  | _ => cases hstep

/-- An interrupt of a process. -/
lemma interrupt (hshell : HasShell env.img) (h : NestedInv env first n)
    (hsafe : n.Safe (.interrupt regs)) (hstep : n.interrupt env regs = some n') :
    NestedInv env first n' := by
  obtain ⟨hsettled, hlaunch⟩ := hsafe
  obtain ⟨⟨chain, hinv⟩, htop⟩ := h.settled hsettled
  obtain ⟨hflag, hregs⟩ : n.system.kernel.interruptFlag = true ∧ regs.OnStack n.top := by
    by_contra hnot
    rw [Nested.interrupt, if_neg hnot] at hstep
    cases hstep
  have hown := h.own.switchedOut hinv (Regs.OnStack.trans htop hregs)
    (n.system.kernel.scheduledTerminal + 1)
  have hcontext : ∀ t,
      (Function.update n.context n.system.running n.stage t).settled = true := by
    intro t
    rw [Function.update_apply]
    split_ifs
    · exact hsettled
    · exact h.context t
  rcases Nested.interrupt_cases hshell hinv hregs hflag hlaunch with
    ⟨q, rest, hchain, -, hptr, -, heq⟩ |
    ⟨x, e, m, argument, eip, hchain, hcount, hm, hbegin, hexec, heq⟩
  · rw [heq, Nested.store_eq hinv] at hstep
    cases hstep
    have hsucc : ∀ t : Tid, t + 1 ≠ t := by decide
    have hhead : (chain (n.system.kernel.scheduledTerminal + 1)).head? = some q := by
      rw [hchain]
      rfl
    have hstored : Function.update n.switchedOut n.system.running true q = true := by
      rw [Function.update_apply]
      split_ifs
      · rfl
      · exact h.own.waiting _ (hsucc _) q ((hinv.waiting _ (hsucc _)).trans hhead)
    refine ⟨hown.of_pcbs (fun _ _ => rfl) rfl rfl fun _ => rfl, hcontext, q, ⟨hptr, chain, ?_⟩,
      hstored⟩
    show Inv chain (Kernel.restoreTss q
      { (n.system.kernel.switchedOut n.system.running _ regs).setUpPaging (slotWord q) with
        currPcb := (n.system.kernel.switchedOut n.system.running _ regs).scheduled.pcbPtr }) q
    rw [hptr]
    exact hinv.resumed (hsucc _) regs hchain
  · rw [heq, Nested.store_eq hinv] at hstep
    cases hstep
    obtain ⟨hstart, hlaunching⟩ := Launching.of_execBegin hshell hcount hown hbegin hexec
      (hinv.launched regs hchain hm argument)
    exact ⟨hstart, hcontext, hlaunching⟩

/-- A statement of the scheduler. -/
lemma statement (h : NestedInv env first n) (hstep : n.statement env = some n') :
    NestedInv env first n' := by
  obtain ⟨⟨k, running⟩, stage, esp, context, stored⟩ := n
  obtain ⟨hown, hcontext, hstage⟩ := h
  cases stage with
  | process => cases hstep
  | setCurr =>
    cases hstep
    exact ⟨hown.of_pcbs (fun _ _ => rfl) rfl rfl fun _ => rfl, hcontext, hstage⟩
  | readSaved =>
    obtain ⟨q, hq, hstored⟩ := hstage
    simp only [Nested.statement, hq.ptr] at hstep
    cases hstep
    exact ⟨hown, hcontext, hcontext q, q, hq, (hown.stored q hstored).regs.esp⟩
  | loadEbp saved next =>
    cases hstep
    exact ⟨hown, hcontext, hstage⟩
  | loadEsp saved next =>
    cases hstep
    exact ⟨hown, hcontext, hstage⟩
  | loadTss next =>
    obtain ⟨hnext, q, ⟨hptr, chain, hinv⟩, hesp⟩ := hstage
    simp only [Nested.statement, hptr] at hstep
    cases hstep
    refine ⟨hown.of_pcbs (fun _ _ => rfl) rfl rfl fun _ => rfl, hcontext, hnext, ⟨chain, hinv⟩, ?_⟩
    show OnStack (k.restoreTss q).tss.esp0 esp
    rw [hinv.tss_top]
    exact hesp
  | leaving next =>
    cases hstep
    obtain ⟨hnext, ⟨chain, hinv⟩, hesp⟩ := hstage
    refine of_settled hown.sti hcontext ⟨⟨chain, hinv.sti⟩, ?_⟩ hnext
    cases next with
    | process => rfl
    | _ => exact hesp
  | launching x e next =>
    have hlaunching : Launching env x { e with kernel := k } stored := hstage
    obtain ⟨e', hinner, rfl⟩ := Option.map_eq_some_iff.mp hstep
    obtain ⟨hown', ⟨q, chain, hstarted, hinv⟩ | ⟨hnot, hreturned, hrest⟩⟩ :=
      hlaunching.inner hown hinner
    · rw [Nested.launch_started hstarted]
      exact ⟨hown'.sti, hcontext, ⟨chain, hinv⟩, rfl⟩
    · rw [Nested.launch_goes_on hnot hreturned]
      exact ⟨hown', hcontext, hrest⟩

lemma step (hshell : HasShell env.img) (h : NestedInv env first n) {m : NestedMove}
    (hsafe : n.Safe m) (hstep : n.step env m = some n') : NestedInv env first n' := by
  cases m with
  | process a => exact h.process hshell hstep
  | interrupt regs => exact h.interrupt hshell hsafe hstep
  | statement => exact h.statement hstep

lemma start (h : firstShell env regs = some s) :
    NestedInv env s.kernel.saved (.start s) := by
  obtain ⟨argument, rfl⟩ := firstShell_eq h
  refine of_settled ⟨fun _ => Or.inl rfl, by simp [Nested.start], by simp [Nested.start],
    fun t ht q hq => ?_⟩
    (fun _ => rfl) ⟨⟨_, bootKernel_base_inv env.layout argument⟩, rfl⟩ rfl
  have hnone := (bootKernel_base_inv env.layout argument).waiting t ht
  have ht' : t ≠ 0 := ht
  rw [Function.update_of_ne ht'] at hnone
  exact absurd (hnone.symm.trans hq) (by simp)

end NestedInv

/-! ### A tick to which nothing happens -/

lemma Nested.statement_readSaved (hstage : n.stage = .readSaved)
    (hptr : n.system.kernel.scheduled.pcbPtr = some q) : n.statement env = some { n with
      stage := .loadEbp ⟨(n.system.kernel.pcbs q).savedEsp, (n.system.kernel.pcbs q).savedEbp⟩
        (n.context q) } := by
  simp only [statement, hstage, hptr, Option.map_some]

lemma Nested.statement_loadTss {next : TickStage} (hstage : n.stage = .loadTss next)
    (hptr : n.system.kernel.scheduled.pcbPtr = some q) : n.statement env = some { n with
      system := ⟨n.system.kernel.restoreTss q, q⟩
      stage  := .leaving next } := by
  simp only [statement, hstage, hptr, Option.map_some]

variable (env) in
/-- The scheduler goes on with a process. -/
lemma Nested.resume_run (hstage : n.stage = .setCurr)
    (hptr : n.system.kernel.scheduled.pcbPtr = some q) :
    ∃ n', Run (Graph (Nested.step env)) n (List.replicate 6 .statement) n' ∧
      n'.system = ⟨((n.system.kernel.setCurr q).restoreTss q).sti, q⟩ := by
  obtain ⟨⟨k, running⟩, stage, esp, context, stored⟩ := n
  obtain rfl := hstage
  have hcurr : { k with currPcb := k.scheduled.pcbPtr } = k.setCurr q := by
    rw [hptr]
    rfl
  have hfirst : (Nested.mk ⟨k, running⟩ .setCurr esp context stored).statement env =
      some ⟨⟨k.setCurr q, running⟩, .readSaved, esp, context, stored⟩ := by
    rw [← hcurr]
    rfl
  have hread : (Nested.mk ⟨k.setCurr q, running⟩ .readSaved esp context stored).statement env =
      some ⟨⟨k.setCurr q, running⟩, .loadEbp ⟨(k.pcbs q).savedEsp, (k.pcbs q).savedEbp⟩ (context q),
        esp, context, stored⟩ := statement_readSaved rfl hptr
  have hload : (Nested.mk ⟨k.setCurr q, running⟩ (.loadTss (context q)) (k.pcbs q).savedEsp context
      stored).statement env = some ⟨⟨(k.setCurr q).restoreTss q, q⟩, .leaving (context q),
        (k.pcbs q).savedEsp, context, stored⟩ := statement_loadTss rfl hptr
  exact ⟨_, .cons hfirst <| .cons hread <| .cons rfl <| .cons rfl <| .cons hload <| .cons rfl <|
    .refl _, rfl⟩

/-- The `execute` that the scheduler has called goes through its statements. -/
lemma Nested.launch_run {next : TickStage} {m : ℕ} (hstage : n.stage = .launching x e next)
    (hkernel : n.system.kernel = e.kernel) (hnot : ∀ p, e.stage ≠ .started p)
    (hrun : Run (Graph (x.step env)) e (List.replicate m .inner) e')
    (hstarted : e'.stage = .started q) :
    ∃ n', Run (Graph (Nested.step env)) n (List.replicate m .statement) n' ∧
      n'.system = ⟨e'.kernel.sti, q⟩ := by
  induction m generalizing e n with
  | zero =>
    cases hrun
    exact absurd hstarted (hnot q)
  | succ m ih =>
    obtain ⟨-, e₁, hfirst, hrest⟩ := ExecCall.run_inner_succ hrun
    have hstep : n.statement env = some (n.launch x e₁ next) := by
      have he : { e with kernel := n.system.kernel } = e := by
        rw [hkernel]
      simp only [statement, hstage, he, hfirst, Option.map_some]
    rw [List.replicate_succ]
    rcases hrest with ⟨rfl, rfl⟩ | ⟨hnot₁, hreturned, -, hrun'⟩
    · exact ⟨_, .cons hstep (.refl _), by rw [launch_started hstarted]⟩
    · have hgoes : n.launch x e₁ next = _ := launch_goes_on hnot₁ hreturned
      obtain ⟨n', hrest, hsystem⟩ := ih (n := n.launch x e₁ next)
        (by rw [hgoes]) (by rw [hgoes]; rfl) hnot₁ hrun'
      exact ⟨n', .cons hstep hrest, hsystem⟩

/-- An interrupt and the statements after it, one after the other, are a tick of the system. -/
theorem tick_uninterrupted (hshell : HasShell env.img)
    (h : Inv chain n.system.kernel n.system.running) (hregs : regs.OnStack n.top)
    (hflag : n.system.kernel.interruptFlag = true) (hlaunch : LaunchOk n.system (.tick regs))
    (hstep : n.system.step env (.tick regs) = some s') :
    ∃ m n', Run (Graph (Nested.step env)) n (.interrupt regs :: List.replicate m .statement) n' ∧
      n'.system = s' := by
  rw [System.step, Kernel.pit_eq h.pid h.curr (h.chains.next _)] at hstep
  rcases Nested.interrupt_cases hshell h hregs hflag hlaunch with
    ⟨q, rest, -, hcount, hptr, hpid, heq⟩ |
    ⟨x, e, m, argument, eip, -, hcount, -, hbegin, hexec, heq⟩
  · rw [if_neg hcount, hptr] at hstep
    dsimp only at hstep
    rw [hpid] at hstep
    cases hstep
    obtain ⟨n', hrun, hsystem⟩ := Nested.resume_run env (n := { n.store.setKernel
      ((n.system.kernel.switchedOut n.system.running _ regs).setUpPaging (slotWord q)) with
        stage := .setCurr
        esp   := regs.esp }) rfl hptr
    exact ⟨6, n', .cons heq hrun, hsystem⟩
  · rw [if_pos hcount, hexec] at hstep
    cases hstep
    obtain ⟨j, e', hrun, hstarted, hkernel⟩ := execute_uninterrupted hbegin hexec
    have hnot : ∀ p, e.stage ≠ .started p := by
      rw [(execBegin_spec hbegin).2]
      simp
    obtain ⟨n', hrun', hsystem⟩ := Nested.launch_run (n := { n.store.setKernel e.kernel with
      stage := .launching x e n.stage
      esp   := regs.esp }) rfl rfl hnot hrun hstarted
    refine ⟨j, n', .cons heq hrun', ?_⟩
    rw [hsystem, hkernel]

/-! ### Runs -/

end

end Osgods
