import Osgods.Process.Invariant

/-!
# What a whole step does

`Outcome` lists the systems that a step can lead to from a state with the invariant, each with the
chains it has then. Every step has an outcome, and every outcome keeps the invariant; so do, then,
the runs from the first shell.
-/

namespace Osgods

open Transition

/-- What becomes of the system when the current process `c` halts in the kernel `k`. -/
inductive Halted (chain : Tid → List Slot) (k : Kernel) (c : Slot) :
    System → (Tid → List Slot) → Prop where
  | resumed {p : Slot} {rest : List Slot} (hchain : chain k.scheduledTerminal = c :: p :: rest) :
      Halted chain k c ⟨(k.halted c p).sti, p⟩
        (Function.update chain k.scheduledTerminal (p :: rest))
  | restarted {n : Slot} (argument : List Byte) (hchain : chain k.scheduledTerminal = [c])
      (hn : ¬ ((k.haltCount.haltInactive c).pcbs n).Active) :
      Halted chain k c ⟨((k.haltCount.haltInactive c).base n argument).sti, n⟩
        (Function.update chain k.scheduledTerminal [n])

/-- What a step does. -/
inductive Outcome (env : Env) (chain : Tid → List Slot) (s : System) :
    Action → System → (Tid → List Slot) → Prop where
  | returned {command : Option Command} {regs : Regs} {status pid : Word} (hpid : pid ≠ noPid)
      (heq : s.kernel.execute env (command.map Command.text) regs =
        .ok (.returned status, { s.kernel.cli with pid := pid })) :
      Outcome env chain s (.execute command regs)
        ⟨{ s.kernel.cli with pid := pid }.sti, s.running⟩ chain
  | child {command : Option Command} {regs : Regs} {n : Slot} {argument : List Byte} {eip : Word}
      (hn : ¬ (s.kernel.pcbs n).Active)
      (heq : s.kernel.execute env (command.map Command.text) regs =
        .ok (.started n eip, s.kernel.child s.running n argument regs)) :
      Outcome env chain s (.execute command regs)
        ⟨(s.kernel.child s.running n argument regs).sti, n⟩
        (Function.update chain s.kernel.scheduledTerminal (n :: chain s.kernel.scheduledTerminal))
  | faulted {command : Option Command} {regs : Regs} {n : Slot} {s' : System}
      {chain' : Tid → List Slot} (hhalt : Halted chain (s.kernel.forNew n) s.running s' chain')
      (heq : s.kernel.execute env (command.map Command.text) regs = .error (s.kernel.forNew n)) :
      Outcome env chain s (.execute command regs) s' chain'
  | halted {status : Byte} {regs : Regs} {s' : System} {chain' : Tid → List Slot}
      (hhalt : Halted chain s.kernel s.running s' chain') :
      Outcome env chain s (.halt status regs) s' chain'
  | resumed {regs : Regs} {q : Slot} {rest : List Slot}
      (hchain : chain (s.kernel.scheduledTerminal + 1) = q :: rest) :
      Outcome env chain s (.tick regs)
        ⟨(s.kernel.resumed s.running q (s.kernel.scheduledTerminal + 1) regs).sti, q⟩ chain
  | launched {regs : Regs} {n : Slot} (argument : List Byte)
      (hchain : chain (s.kernel.scheduledTerminal + 1) = [])
      (hn : ¬ (s.kernel.pcbs n).Active) :
      Outcome env chain s (.tick regs)
        ⟨((s.kernel.switchedOut s.running (s.kernel.scheduledTerminal + 1) regs).base n
          argument).sti, n⟩
        (Function.update chain (s.kernel.scheduledTerminal + 1) [n])
  | vidmap {screenStart r : Word} {k' : Kernel}
      (heq : s.kernel.vidmap env screenStart = .ok (r, k')) :
      Outcome env chain s (.vidmap screenStart) ⟨k'.sti, s.running⟩ chain

section

variable {env : Env} {chain chain' : Tid → List Slot} {k : Kernel} {c n : Slot} {regs : Regs}
  {s s' : System} {a : Action}

/-! ### Every step has an outcome -/

lemma Current.exists_halted (hshell : HasShell env.img) (h : Current chain 0 k c) (status : Byte)
    (regs : Regs) :
    ∃ r chain', k.halt env status regs = .ok r ∧ Halted chain k c (System.afterHalt r) chain' := by
  rcases h.halt_cases hshell rfl status regs with
    ⟨p, rest, hchain, heq⟩ | ⟨n, argument, eip, hchain, hn, heq⟩
  · exact ⟨_, _, heq, .resumed hchain⟩
  · exact ⟨_, _, heq, .restarted argument hchain hn⟩

lemma Inv.exists_outcome (hshell : HasShell env.img) (h : Inv chain s.kernel s.running)
    (a : Action) (hlaunch : LaunchOk s a) :
    ∃ s' chain', s.step env a = some s' ∧ Outcome env chain s a s' chain' := by
  cases a with
  | execute command regs =>
    rcases h.toCurrent.execute_cases env (command.map Command.text) regs with
      ⟨status, pid, heq, hpid⟩ | ⟨n, hn, heq⟩ | ⟨n, argument, eip, hn, heq⟩
    · exact ⟨_, _, by rw [System.step, heq], .returned hpid heq⟩
    · obtain ⟨r, chain', hfault, hhalt⟩ := (h.toCurrent.forNew n).exists_halted hshell 0#8 regs
      refine ⟨_, _, ?_, .faulted hhalt heq⟩
      rw [System.step, heq]
      simp only [Kernel.pageFault, hfault, Option.map_some]
    · exact ⟨_, _, by rw [System.step, heq], .child hn heq⟩
  | halt status regs =>
    obtain ⟨r, chain', heq, hhalt⟩ := h.toCurrent.exists_halted hshell status regs
    exact ⟨_, _, by rw [System.step, heq], .halted hhalt⟩
  | tick regs =>
    rcases h.toCurrent.pit_cases hshell regs (hlaunch _ (h.chains.next _)) with
      ⟨q, rest, hchain, heq⟩ | ⟨n, argument, eip, hchain, hn, heq⟩
    · exact ⟨_, _, by rw [System.step, heq], .resumed hchain⟩
    · refine ⟨_, _, by rw [System.step, heq], .launched argument hchain ?_⟩
      rwa [Pcb.Active, Kernel.switchedOut_active] at hn
  | vidmap screenStart =>
    rcases Kernel.vidmap_cases env screenStart h.curr with heq | ⟨u, paging, heq⟩
    · exact ⟨_, _, by rw [System.step, heq], .vidmap heq⟩
    · exact ⟨_, _, by rw [System.step, heq], .vidmap heq⟩

/-! ### Every outcome keeps the invariant -/

lemma Halted.inv (h : Current chain 0 k c) (hstack : Stacks chain k)
    (hhalt : Halted chain k c s' chain') : Inv chain' s'.kernel s'.running := by
  cases hhalt with
  | resumed hchain => exact (Inv.halted h hstack hchain).sti
  | restarted argument hchain hn => exact (Inv.restarted h hstack hchain hn argument).sti

lemma Outcome.inv (h : Inv chain s.kernel s.running) (hout : Outcome env chain s a s' chain') :
    Inv chain' s'.kernel s'.running := by
  cases hout with
  | returned hpid heq => exact (h.returned hpid).sti
  | child hn heq => exact (h.child hn _ _).sti
  | faulted hhalt heq => exact hhalt.inv (h.toCurrent.forNew _) (h.stack.forNew _)
  | halted hhalt => exact hhalt.inv h.toCurrent h.stack
  | resumed hchain =>
    have hsucc : ∀ t : Tid, t + 1 ≠ t := by decide
    exact (h.resumed (hsucc _) _ hchain).sti
  | launched argument hchain hn => exact (h.launched _ hchain hn argument).sti
  | vidmap heq => exact (h.vidmap _ heq).sti

/-- Chains do not become empty. -/
lemma Outcome.ne_nil (hout : Outcome env chain s a s' chain') {t : Tid} (ht : chain t ≠ []) :
    chain' t ≠ [] := by
  have hhalted : ∀ {k : Kernel}, Halted chain k s.running s' chain' → chain' t ≠ [] := by
    intro k hhalt
    cases hhalt with
    | resumed hchain => exact update_ne_nil (List.cons_ne_nil _ _) _ ht
    | restarted argument hchain hn => exact update_ne_nil (List.cons_ne_nil _ _) _ ht
  cases hout with
  | returned hpid heq => exact ht
  | child hn heq => exact update_ne_nil (List.cons_ne_nil _ _) _ ht
  | faulted hhalt heq => exact hhalted hhalt
  | halted hhalt => exact hhalted hhalt
  | resumed hchain => exact ht
  | launched argument hchain hn => exact update_ne_nil (List.cons_ne_nil _ _) _ ht
  | vidmap heq => exact ht

lemma Inv.launchOk {s : System} (h : Inv chain s.kernel s.running) (hall : ∀ t, chain t ≠ [])
    (a : Action) : LaunchOk s a := by
  cases a with
  | tick regs =>
    intro next _ hzero
    exact absurd ((h.count_eq_zero next).mp hzero) (hall next)
  | execute command regs => trivial
  | halt status regs => trivial
  | vidmap screenStart => trivial

/-- A launch that finds no PCB. -/
lemma Inv.not_launchOk (h : Inv chain s.kernel s.running) (hlaunch : ¬ LaunchOk s (.tick regs)) :
    (s.kernel.terminalList (s.kernel.scheduledTerminal + 1)).countPcb = 0#32 ∧
      s.kernel.determineWhichPcbEmpty = none := by
  obtain ⟨next, hnext, hcount, hfull⟩ : ∃ next, s.kernel.scheduled.nextTerminal = some next ∧
      (s.kernel.terminalList next).countPcb = 0#32 ∧ s.kernel.determineWhichPcbEmpty = none := by
    simpa [LaunchOk] using hlaunch
  obtain rfl : s.kernel.scheduledTerminal + 1 = next :=
    Option.some.inj ((h.chains.next _).symm.trans hnext)
  exact ⟨hcount, hfull⟩

/-- The steps of the system are its outcomes. -/
lemma Inv.outcome (hshell : HasShell env.img) (h : Inv chain s.kernel s.running)
    (hlaunch : LaunchOk s a) (hstep : s.step env a = some s') :
    ∃ chain', Outcome env chain s a s' chain' := by
  obtain ⟨s₁, chain', heq, hout⟩ := h.exists_outcome hshell a hlaunch
  obtain rfl := Option.some.inj (heq.symm.trans hstep)
  exact ⟨chain', hout⟩

/-! ### Boot -/

lemma bootKernel_placed (L : Layout) : Placed (fun _ => []) 0 ((bootKernel L).forNew 0) where
  chains  :=
    { linked := fun _ => rfl
      mem    := fun t s => by simp [Kernel.forNew, bootKernel, zeroPcb, Pcb.Active, Kernel.cli]
      count  := fun t => rfl
      pid    := fun s hs => absurd rfl hs
      tid    := fun t => rfl
      next   := fun t => rfl }
  owed    := fun t ht => absurd rfl ht
  waiting := fun t _ => rfl
  pid     := slotWord_ne_noPid 0

/-- The kernel starts a first shell only from an executable `shell`. -/
lemma firstShell_hasShell {s : System} (h : firstShell env regs = some s) : HasShell env.img := by
  rcases Kernel.execute_cases env (some shellCommand.text) regs (bootKernel env.layout) with
    ⟨status, pid, heq, -⟩ | ⟨text, n, prog, htext, -, hprog, ⟨heq, -⟩ | ⟨hload, -⟩⟩
  · rw [firstShell, heq] at h
    cases h
  · rw [firstShell, heq] at h
    cases h
  · cases htext
    have hdir : (bootKernel env.layout).paging.pageDir 33#10 = 0#32 := by
      simp [bootKernel, Function.update_of_ne]
    exact ⟨prog, hprog, Kernel.fits_of_canLoad hprog hdir hload⟩

lemma firstShell_eq {s : System} (h : firstShell env regs = some s) :
    ∃ argument, s = ⟨((bootKernel env.layout).base 0 argument).sti, 0⟩ := by
  obtain ⟨argument, eip, heq⟩ := execute_shell regs (k := bootKernel env.layout)
    (firstShell_hasShell h) rfl (rfl : _ = some (0 : Slot))
  rw [firstShell, heq] at h
  cases h
  exact ⟨argument, rfl⟩

/-- The first shell is the only process. -/
lemma bootKernel_base_inv (L : Layout) (argument : List Byte) :
    Inv (Function.update (fun _ => []) 0 [0]) ((bootKernel L).base 0 argument).sti 0 := by
  have hstack : Stacks (fun _ => []) ((bootKernel L).forNew 0) :=
    ⟨fun s hs => absurd rfl hs, fun t _ s hhead => by cases hhead⟩
  have hmapped := (bootKernel_placed L).started (n := 0) (fun h => h rfl) rfl
    (by simp [Kernel.forNew]) argument
  refine Inv.sti ⟨hmapped, hstack.started (fun t => List.not_mem_nil) noPid argument [0], ?_⟩
  simp [Kernel.base, Kernel.started, Kernel.newPcb]

/-- Along runs in which every base shell can be launched. -/
lemma firstShell_run_inv {s₀ s : System} {as : List Action} (h : firstShell env regs = some s₀)
    (hrun : Run (Guarded (Graph (System.step env)) LaunchOk) s₀ as s) :
    ∃ chain, Inv chain s.kernel s.running :=
  hrun.invariant (I := fun s => ∃ chain, Inv chain s.kernel s.running)
    (fun s a s' ⟨chain, hs⟩ ⟨hstep, hlaunch⟩ => by
      obtain ⟨chain', hout⟩ := hs.outcome (firstShell_hasShell h) hlaunch hstep
      exact ⟨chain', hout.inv hs⟩)
    (by
      obtain ⟨argument, rfl⟩ := firstShell_eq h
      exact ⟨_, bootKernel_base_inv env.layout argument⟩)

namespace BootState

lemma hasShell {s : System} (h : BootState env s) : HasShell env.img := by
  obtain ⟨⟨regs, s₀, as, hs₀, -⟩, -⟩ := h
  exact firstShell_hasShell hs₀

lemma inv {s : System} (h : BootState env s) :
    ∃ chain, Inv chain s.kernel s.running ∧ ∀ t, chain t ≠ [] := by
  obtain ⟨⟨regs, s₀, as, hs₀, hrun⟩, hall⟩ := h
  obtain ⟨chain, hinv⟩ := firstShell_run_inv hs₀ hrun
  exact ⟨chain, hinv, fun t hnil => hall t ((hinv.count_eq_zero t).mpr hnil)⟩

/-- What holds of every state that a run reaches. -/
lemma run_inv {s₀ s : System} {as : List Action} (hboot : BootState env s₀)
    (hrun : Run (Graph (System.step env)) s₀ as s) :
    ∃ chain, Inv chain s.kernel s.running ∧ ∀ t, chain t ≠ [] :=
  hrun.invariant (I := fun s => ∃ chain, Inv chain s.kernel s.running ∧ ∀ t, chain t ≠ [])
    (fun s a s' ⟨chain, hs, hall⟩ hstep => by
      obtain ⟨chain', hout⟩ := hs.outcome hboot.hasShell (hs.launchOk hall a) hstep
      exact ⟨chain', hout.inv hs, fun t => hout.ne_nil (hall t)⟩)
    hboot.inv

end BootState

end

end Osgods
