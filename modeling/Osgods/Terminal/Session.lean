import Osgods.Terminal.Sound

/-!
# The system under terminal switches

The steps of the system, and the switch to another terminal by Alt and a function key, which leaves
the processes alone.
-/

namespace Osgods

open Transition

namespace Session

inductive Action where
  | system (a : Osgods.Action)
  | switch (next : Tid)

def step (env : Env) (s : System) : Action → Option System
  | .system a    => s.step env a
  | .switch next => some ⟨s.kernel.altKey next, s.running⟩

/-- A tick that has a shell to start finds a free PCB for it. -/
def LaunchOk (s : System) : Action → Prop
  | .system a => Osgods.LaunchOk s a
  | .switch _ => True

instance (s : System) (a : Action) : Decidable (LaunchOk s a) :=
  match a with
  | .system a => inferInstanceAs (Decidable (Osgods.LaunchOk s a))
  | .switch _ => inferInstanceAs (Decidable True)

structure Sound (chain : Tid → List Slot) (s : System) : Prop where
  wired : Wired s.kernel
  inv   : Inv chain s.kernel s.running

end Session

section

variable {env : Env} {chain chain' : Tid → List Slot} {k k' : Kernel} {c : Slot} {s s' s₀ : System}
  {regs : Regs} {a : Osgods.Action} {next : Tid}

/-! ### What a step does to the screens -/

lemma Kernel.sameProcesses_altKey (k : Kernel) (next : Tid) : k.SameProcesses (k.altKey next) :=
  (((sameProcesses_cli k).trans (sameProcesses_loadDisplay _)).trans
    (sameProcesses_terminalSwitch _ next)).trans (sameProcesses_keybEnd _)

lemma Wired.altKey (h : Wired k) (next : Tid) : Wired (k.altKey next) :=
  (h.cli.loadDisplay.terminalSwitch next).keybEnd

lemma Wired.haltVidmap (h : Wired k) : Wired k.haltVidmap := by
  refine h.of_terminal (fun t => ?_) ?_ k.haltVidmap_scheduledTerminal
  · obtain ⟨v, heq⟩ := k.haltVidmap_terminalList t
    rw [heq]
    exact ⟨rfl, rfl, rfl⟩
  · unfold Kernel.haltVidmap
    split_ifs <;> rfl

/-- The halt of a child clears flags at most, and that of a base shell does not. -/
lemma Halted.sameVideo (h : Halted chain k c s' chain') :
    (∃ p rest, chain k.scheduledTerminal = c :: p :: rest ∧
      chain' = Function.update chain k.scheduledTerminal (p :: rest) ∧
        k.haltVidmap.SameVideo s'.kernel) ∨
    ∃ n, chain k.scheduledTerminal = [c] ∧
      chain' = Function.update chain k.scheduledTerminal [n] ∧
        (n = c ∨ ¬ (k.pcbs n).Active) ∧ k.SameVideo s'.kernel := by
  cases h with
  | @resumed p rest hchain =>
    exact Or.inl ⟨p, rest, hchain, rfl,
      (Kernel.sameVideo_halted k c p).trans (Kernel.sameVideo_sti _)⟩
  | @restarted n argument hchain hn =>
    refine Or.inr ⟨n, hchain, rfl, ?_, ((Kernel.sameVideo_drop k c).trans
      (Kernel.sameVideo_base _ n argument)).trans (Kernel.sameVideo_sti _)⟩
    by_cases hnc : n = c
    · exact Or.inl hnc
    · right
      rwa [Kernel.haltInactive, Kernel.updatePcb_pcbs, Function.update_of_ne hnc] at hn

/-- What `vidmap` does when it does not fail. -/
lemma Wired.vidmap_cases (h : Wired k) (env : Env) (screenStart : Word) (hc : k.currPcb = some c) :
    k.vidmap env screenStart = .ok (-1#32, k) ∨ k.vidmap env screenStart =
      .ok (0#32, { k.updateTerminal k.scheduledTerminal fun t => { t with vidmap := 1#32 } with
        paging := (k.paging.setUserVideoMap env.layout).setVidMap
          (screenBase k.currTerminalNum k.scheduledTerminal) 1#32 }.setUpPaging
            (k.pcbs c).pid) := by
  have hterminal : (if k.currTerminalNum ≠ k.scheduledTerminal then k.scheduledTerminal
      else k.currTerminalNum) = k.scheduledTerminal := by
    split_ifs with hsame
    · rfl
    · exact not_not.mp hsame
  have htarget : (if k.currTerminalNum ≠ k.scheduledTerminal then videoPage k.scheduledTerminal
      else videoMemoryAddr) = screenBase k.currTerminalNum k.scheduledTerminal := by
    split_ifs with hsame
    · exact (if_neg (Ne.symm hsame)).symm
    · exact (if_pos (not_not.mp hsame).symm).symm
  unfold Kernel.vidmap
  split_ifs
  · exact Or.inl rfl
  · exact Or.inl rfl
  · right
    simp only [Kernel.scheduled, h.tid, h.page, Kernel.updateTerminal_currPcb, hc, hterminal,
      htarget]
    rfl

/-! ### Every step keeps the terminals wired -/

lemma Kernel.sameVideo_returned (k : Kernel) (pid : Word) :
    k.SameVideo { k.cli with pid := pid }.sti :=
  ⟨fun _ => .refl _, rfl, rfl, rfl, rfl, rfl, rfl, rfl⟩

lemma Halted.wired (h : Wired k) (hhalt : Halted chain k c s' chain') : Wired s'.kernel := by
  rcases hhalt.sameVideo with ⟨p, rest, -, -, hsame⟩ | ⟨n, -, -, -, hsame⟩
  · exact h.haltVidmap.congr hsame
  · exact h.congr hsame

lemma Outcome.wired (h : Wired s.kernel) (hc : s.kernel.currPcb = some s.running)
    (hout : Outcome env chain s a s' chain') : Wired s'.kernel := by
  cases hout with
  | returned hpid heq => exact h.congr (Kernel.sameVideo_returned _ _)
  | child hn heq =>
    exact h.congr ((Kernel.sameVideo_child _ _ _ _ _).trans (Kernel.sameVideo_sti _))
  | faulted hhalt heq => exact hhalt.wired (h.congr (Kernel.sameVideo_forNew _ _))
  | halted hhalt => exact hhalt.wired h
  | resumed hchain =>
    exact (h.ticked _).congr ((Kernel.sameVideo_resumed _ _ _ _ _).trans (Kernel.sameVideo_sti _))
  | launched argument hchain hn =>
    exact (h.ticked _).congr
      ((Kernel.sameVideo_launched _ _ _ _ _ _).trans (Kernel.sameVideo_sti _))
  | @vidmap screenStart _ _ heq =>
    rcases h.vidmap_cases env screenStart hc with heq' | heq'
    · obtain ⟨-, rfl⟩ := Prod.mk.inj (Except.ok.inj (heq.symm.trans heq'))
      exact h.sti
    · obtain ⟨-, rfl⟩ := Prod.mk.inj (Except.ok.inj (heq.symm.trans heq'))
      have hset := h.updateTerminal (g := fun t => { t with vidmap := 1#32 })
        s.kernel.scheduledTerminal fun _ => ⟨rfl, rfl, rfl⟩
      exact ⟨hset.tid, hset.next, hset.page, hset.num⟩

namespace Session

lemma Sound.exists_outcome (hshell : HasShell env.img) (h : Sound chain s)
    (hlaunch : Osgods.LaunchOk s a) (hstep : s.step env a = some s') :
    ∃ chain', Outcome env chain s a s' chain' ∧ Sound chain' s' := by
  obtain ⟨chain', hout⟩ := h.inv.outcome hshell hlaunch hstep
  exact ⟨chain', hout, hout.wired h.wired h.inv.curr, hout.inv h.inv⟩

lemma Sound.switch (h : Sound chain s) (next : Tid) :
    Sound chain ⟨s.kernel.altKey next, s.running⟩ where
  wired := h.wired.altKey next
  inv   := h.inv.congr (Kernel.sameProcesses_altKey _ next)

lemma Sound.of_firstShell (h : firstShell env regs = some s₀) : ∃ chain, Sound chain s₀ := by
  obtain ⟨argument, rfl⟩ := firstShell_eq h
  exact ⟨_, Machine.bootKernel_base_wired _ argument, bootKernel_base_inv env.layout argument⟩

end Session

end

end Osgods
