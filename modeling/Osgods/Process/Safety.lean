import Osgods.Process.Outcome

/-!
# Chains, address space and launches

What every run of whole steps keeps, read off the invariant: the processes of a terminal form one
chain with the process that runs, or would run, on top; user code runs in the address space and on
the kernel stack of `curr_pcb`; and a tick leaves the scheduled terminal and `curr_pcb` in step as
long as it finds a PCB for the shell that it has to launch.
-/

namespace Osgods

open Transition

/-- The chains of the active processes, and how the kernel's variables point to their tops. -/
structure ProcessChains (chain : Tid → List Slot) (k : Kernel) : Prop where
  linked  : ∀ t, Linked slotWord (fun s => (k.pcbs s).parentId) noPid
    (pidOf (chain t).head?) (chain t)
  nodup   : ∀ t, (chain t).Nodup
  mem     : ∀ t s, s ∈ chain t ↔ (k.pcbs s).Active ∧ (k.pcbs s).tid = t
  count   : ∀ t, (k.terminalList t).countPcb.toNat = (chain t).length
  pos     : ∀ t, 1 ≤ (k.terminalList t).countPcb.toNat
  unique  : ∀ s, (k.pcbs s).Active → (∃! t, s ∈ chain t) ∧ (k.pcbs s).pid = slotWord s
  curr    : k.currPcb = (chain k.scheduledTerminal).head?
  waiting : ∀ t, t ≠ k.scheduledTerminal → (k.terminalList t).pcbPtr = (chain t).head?

/-- User code of `c` runs in its own address space, with its own kernel stack in the task state
segment. -/
structure AddressSpace (k : Kernel) (c : Slot) : Prop where
  curr     : k.currPcb = some c
  pid      : (k.pcbs c).pid = slotWord c
  userPage : k.paging.pageDir 32#10 = userPde (k.pcbs c).pid
  bits     : present (k.paging.pageDir 32#10) = true ∧
    useSupervisor (k.paging.pageDir 32#10) = true ∧ pageSize (k.paging.pageDir 32#10) = true
  tss      : k.tss.esp0 = (k.pcbs c).esp0
  esp0     : (k.pcbs c).esp0 = 0x800000#32 - 0x2000#32 * (k.pcbs c).pid - 4#32

/-- The process that runs is the current process of the scheduled terminal, and that terminal has a
process to halt. -/
structure InStep (s : System) : Prop where
  curr   : s.kernel.currPcb = some s.running
  active : (s.kernel.pcbs s.running).Active
  tid    : (s.kernel.pcbs s.running).tid = s.kernel.scheduled.tid
  count  : 1 ≤ s.kernel.scheduled.countPcb.toNat

section

variable {env : Env} {regs : Regs} {chain : Tid → List Slot} {k : Kernel} {c : Slot}
  {s₀ s : System} {as : List Action}

lemma Current.processChains (h : Current chain 0 k c) (hall : ∀ t, chain t ≠ []) :
    ProcessChains chain k where
  linked  := h.chains.linked
  nodup   := h.chains.nodup
  mem     := h.chains.mem
  count   := h.chains.count
  pos     := fun t => by
    have hcount : (k.terminalList t).countPcb.toNat = (chain t).length := h.chains.count t
    rw [hcount]
    exact List.length_pos_of_ne_nil (hall t)
  unique  := fun s hs => ⟨⟨_, h.chains.mem_tid hs, fun t ht => h.chains.eq_of_mem ht
    (h.chains.mem_tid hs)⟩, h.chains.pid s hs⟩
  curr    := h.curr.trans h.top.symm
  waiting := h.waiting

/-- The counters count the active processes of the terminals. -/
lemma ProcessChains.count_eq_card (h : ProcessChains chain k) (t : Tid) :
    (k.terminalList t).countPcb.toNat =
      (Finset.univ.filter fun s => (k.pcbs s).Active ∧ (k.pcbs s).tid = t).card := by
  have hset : (chain t).toFinset =
      Finset.univ.filter fun s => (k.pcbs s).Active ∧ (k.pcbs s).tid = t := by
    ext s
    rw [List.mem_toFinset, h.mem t s, Finset.mem_filter_univ]
  rw [h.count, ← hset, List.toFinset_card_of_nodup (h.nodup t)]

lemma Inv.addressSpace (h : Inv chain k c) : AddressSpace k c where
  curr     := h.curr
  pid      := h.pid_eq
  userPage := h.userPage
  bits     := by
    rw [h.userPage]
    exact userPde_bits _
  tss      := h.esp0
  esp0     := h.stack.stackTop c h.active

lemma Inv.inStep (h : Inv chain s.kernel s.running) : InStep s where
  curr   := h.curr
  active := h.active
  tid    := by
    rw [Kernel.scheduled, h.chains.tid]
    exact ((h.chains.mem _ _).mp h.mem).2
  count  := by
    rw [Nat.one_le_iff_ne_zero]
    intro hzero
    exact h.count_ne_zero (BitVec.eq_of_toNat_eq hzero)

/-- The active processes form one chain a terminal, and every step can be taken. -/
theorem process_chains (hboot : BootState env s₀) (hrun : Run (Graph (System.step env)) s₀ as s) :
    (∃ chain, ProcessChains chain s.kernel) ∧ ∀ a, (s.step env a).isSome = true := by
  obtain ⟨chain, hinv, hall⟩ := hboot.run_inv hrun
  refine ⟨⟨chain, hinv.toCurrent.processChains hall⟩, fun a => ?_⟩
  obtain ⟨s', -, heq, -⟩ := hinv.exists_outcome hboot.hasShell a (hinv.launchOk hall a)
  rw [heq]
  rfl

/-- The last shell runs a second one and is then switched out. -/
theorem process_chains_small : ∃ s : System, (s.kernel.terminalList 2).countPcb = 2#32 ∧
    (∃ chain, ProcessChains chain s.kernel) ∧ ∀ a, (s.step smallKernel a).isSome = true := by
  obtain ⟨s₀, s, hboot, hrun, hs⟩ := exists_booted smallKernel ⟨0#32, 0#32⟩
    [.tick ⟨0#32, 0#32⟩, .tick ⟨0#32, 0#32⟩]
    [.execute (some shellCommand) ⟨0#32, 0#32⟩, .tick ⟨0#32, 0#32⟩]
    (fun s => (s.kernel.terminalList 2).countPcb = 2#32) (by decide)
  exact ⟨s, of_decide_eq_true hs, process_chains hboot hrun⟩

/-- Whenever user code runs, it runs in the address space and on the kernel stack of `curr_pcb`. -/
theorem address_space (hboot : BootState env s₀) (hrun : Run (Graph (System.step env)) s₀ as s) :
    AddressSpace s.kernel s.running := by
  obtain ⟨chain, hinv, -⟩ := hboot.run_inv hrun
  exact hinv.addressSpace

/-- A tick goes from the third terminal to the shell of the first one, which runs another shell. -/
theorem address_space_small : ∃ s : System, s.running = 3 ∧ AddressSpace s.kernel s.running := by
  obtain ⟨s₀, s, hboot, hrun, hs⟩ := exists_booted smallKernel ⟨0#32, 0#32⟩
    [.tick ⟨0#32, 0#32⟩, .tick ⟨0#32, 0#32⟩]
    [.tick ⟨0#32, 0#32⟩, .vidmap 0x8000000#32, .execute (some shellCommand) ⟨0#32, 0#32⟩]
    (fun s => s.running = 3) (by decide)
  exact ⟨s, of_decide_eq_true hs, address_space hboot hrun⟩

/-! ### Launches -/

/-- A tick without a PCB for the next terminal's shell leaves the old process running there. -/
lemma Inv.not_inStep_tick (h : Inv chain s.kernel s.running) {s' : System}
    (hstep : s.step env (.tick regs) = some s') (hlaunch : ¬ LaunchOk s (.tick regs)) :
    ¬ InStep s' := by
  obtain ⟨hcount, hfull⟩ := h.not_launchOk hlaunch
  rw [System.step, h.toCurrent.pit_full regs hcount hfull] at hstep
  cases hstep
  intro hin
  obtain ⟨hpcbs, hterms, hsched, -, -⟩ := Kernel.switchedOut_spec s.running
    (s.kernel.scheduledTerminal + 1) regs s.kernel
  have hsucc : ∀ t : Tid, t ≠ t + 1 := by decide
  have htid := hin.tid
  simp only [Kernel.sti, Kernel.cli, Kernel.scheduled, hsched, hterms, hpcbs, Function.update_self,
    Function.update_of_ne (hsucc _).symm, h.chains.tid] at htid
  exact hsucc _ (((h.chains.mem _ _).mp h.mem).2.symm.trans htid)

/-- As long as every tick finds a PCB for the shell that it has to launch, the running process is
that of the scheduled terminal; the first tick that does not find one breaks this. -/
theorem launches_in_step (h : firstShell env regs = some s₀)
    (hrun : Run (Guarded (Graph (System.step env)) LaunchOk) s₀ as s) :
    InStep s ∧ ∀ a s', s.step env a = some s' → (InStep s' ↔ LaunchOk s a) := by
  obtain ⟨chain, hinv⟩ := firstShell_run_inv h hrun
  refine ⟨hinv.inStep, fun a s' hstep => ⟨fun hin => ?_, fun hlaunch => ?_⟩⟩
  · cases a with
    | tick regs => exact not_not.mp fun hlaunch => hinv.not_inStep_tick hstep hlaunch hin
    | execute command regs => trivial
    | halt status regs => trivial
    | vidmap screenStart => trivial
  · obtain ⟨chain', hout⟩ := hinv.outcome (firstShell_hasShell h) hlaunch hstep
    exact (hout.inv hinv).inStep

/-- The first shell runs four others before the second terminal gets its shell. -/
theorem launches_in_step_small : ∃ s : System, s.running = 5 ∧ InStep s ∧
    ∀ a s', s.step smallKernel a = some s' → (InStep s' ↔ LaunchOk s a) := by
  obtain ⟨s₀, s, hs₀, hrun, hs⟩ := exists_launched smallKernel ⟨0#32, 0#32⟩
    (List.replicate 4 (.execute (some shellCommand) ⟨0#32, 0#32⟩) ++ [.tick ⟨0#32, 0#32⟩])
    (fun s => s.running = 5) (by decide +kernel)
  exact ⟨s, of_decide_eq_true hs, launches_in_step hs₀ hrun⟩

/-- The first shell runs five others, and then the tick finds no PCB for the second terminal's
shell. The halt of the process that goes on wraps the counter of that terminal. -/
theorem launches_in_step_full : ∃ s₀ s s' as, firstShell smallKernel ⟨0#32, 0#32⟩ = some s₀ ∧
    Run (Graph (System.step smallKernel)) s₀ as s ∧ ¬ InStep s ∧
    s.step smallKernel (.halt 0#8 ⟨0#32, 0#32⟩) = some s' ∧
    (s.kernel.terminalList 1).countPcb = 0#32 ∧
    (s'.kernel.terminalList 1).countPcb = 0xffffffff#32 := by
  obtain ⟨s₀, hs₀, h⟩ : ∃ s₀, firstShell smallKernel ⟨0#32, 0#32⟩ = some s₀ ∧
      (runFrom (System.step smallKernel) s₀ (List.replicate 5
        (.execute (some shellCommand) ⟨0#32, 0#32⟩) ++ [.tick ⟨0#32, 0#32⟩])).any (fun s =>
          (s.kernel.pcbs s.running).tid ≠ s.kernel.scheduled.tid ∧
          (s.kernel.terminalList 1).countPcb = 0#32 ∧
          (s.step smallKernel (.halt 0#8 ⟨0#32, 0#32⟩)).any fun s' =>
            (s'.kernel.terminalList 1).countPcb = 0xffffffff#32) = true :=
    ⟨_, rfl, by decide +kernel⟩
  obtain ⟨s, hrun, hs⟩ := exists_run_of_any h
  rw [decide_eq_true_eq] at hs
  obtain ⟨htid, hcount, hwrap⟩ := hs
  obtain ⟨s', hs', hs⟩ := (Option.any_eq_true _ _).mp hwrap
  exact ⟨s₀, s, s', _, hs₀, hrun, fun hin => htid hin.tid, hs', hcount, of_decide_eq_true hs⟩

end

end Osgods
