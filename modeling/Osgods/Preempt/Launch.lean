import Osgods.Preempt.Execute
import Osgods.Process.Contexts

/-!
# A launch

The `execute` that starts a base shell, called by the scheduler or by `halt`. Left alone it comes to
its end, which `Launches` says of each of its statements, and it writes to the PCB of the new
process only.
-/

namespace Osgods

open Transition

/-- The shell that is launched has no parent: its terminal has no process when `parent_id` is
set. -/
def ExecStage.Alone (m : Slot) (k : Kernel) : ExecStage → Prop
  | .setUpPaging | .load _ | .newPcb | .callCreate _ => k.scheduled.countPcb = 0#32
  | .createFields _ _ | .createTssEsp0 _ _ | .createTid _ _ | .createActive _ _
  | .createEsp0 _ _ | .createParentId _ => k.scheduled.countPcb = 0#32
  | .createCountPcb _ | .setCurr _ | .saveParent _ => (k.pcbs m).parentId = noPid
  | .contextSwitch _ | .started _ | .returned => True

section

variable {env : Env} {x : ExecCall} {e e' e₁ : ExecState} {P : Slot → Kernel → Prop} {k k' : Kernel}
  {q : Slot} {regs : Regs}

/-! ### One statement -/

/-- The statements of a launch write to the PCB of the new process alone. -/
lemma ExecCall.inner_frame (hlocals : e.stage.LocalsOk x.selected)
    (halone : e.stage.Alone x.selected e.kernel) (hstep : x.inner env e = some e') :
    (∀ t, t ≠ x.selected → e'.kernel.pcbs t = e.kernel.pcbs t) ∧
      e'.kernel.scheduledTerminal = e.kernel.scheduledTerminal ∧
      (∀ t, (e'.kernel.terminalList t).pcbPtr = (e.kernel.terminalList t).pcbPtr) ∧
      e'.stage.Alone x.selected e'.kernel := by
  obtain ⟨k, stage, away, live, written, usedPid⟩ := e
  cases stage with
  | setUpPaging =>
    cases hstep
    exact ⟨fun _ _ => rfl, rfl, fun _ => rfl, halone⟩
  | load i =>
    simp only [ExecCall.inner] at hstep
    cases hget : (x.stores env)[i]? with
    | some st =>
      rw [hget] at hstep
      dsimp only at hstep
      split_ifs at hstep
      cases hstep
      exact ⟨fun _ _ => rfl, rfl, fun _ => rfl, halone⟩
    | none =>
      rw [hget] at hstep
      dsimp only at hstep
      split_ifs at hstep
      · cases hstep
        exact ⟨fun _ _ => rfl, rfl, fun _ => rfl, trivial⟩
      · cases hstep
        exact ⟨fun _ _ => rfl, rfl, fun _ => rfl, halone⟩
  | newPcb =>
    obtain ⟨m, -, rfl⟩ := Option.map_eq_some_iff.mp hstep
    exact ⟨fun _ _ => rfl, rfl, fun _ => rfl, halone⟩
  | callCreate m =>
    cases hstep
    exact ⟨fun _ _ => rfl, rfl, fun _ => rfl, halone⟩
  | createFields m pid =>
    cases hstep
    obtain ⟨rfl, -⟩ := hlocals
    exact ⟨fun t ht => Function.update_of_ne ht _ _, rfl, fun _ => rfl, halone⟩
  | createTssEsp0 m pid =>
    cases hstep
    obtain ⟨rfl, -⟩ := hlocals
    exact ⟨fun t ht => Function.update_of_ne ht _ _, rfl, fun _ => rfl, halone⟩
  | createTid m pid =>
    cases hstep
    obtain ⟨rfl, -⟩ := hlocals
    exact ⟨fun t ht => Function.update_of_ne ht _ _, rfl, fun _ => rfl, halone⟩
  | createActive m pid =>
    cases hstep
    obtain ⟨rfl, -⟩ := hlocals
    exact ⟨fun t ht => Function.update_of_ne ht _ _, rfl, fun _ => rfl, halone⟩
  | createEsp0 m pid =>
    cases hstep
    obtain ⟨rfl, -⟩ := hlocals
    exact ⟨fun t ht => Function.update_of_ne ht _ _, rfl, fun _ => rfl, halone⟩
  | createParentId m =>
    obtain rfl : m = x.selected := hlocals
    have hzero : k.scheduled.countPcb = 0#32 := halone
    simp only [ExecCall.inner, Kernel.createParentId, if_pos hzero] at hstep
    cases hstep
    refine ⟨fun t ht => Function.update_of_ne ht _ _, rfl, fun _ => rfl, ?_⟩
    simp [ExecStage.Alone]
  | createCountPcb m =>
    cases hstep
    refine ⟨fun _ _ => rfl, rfl, fun t => ?_, halone⟩
    by_cases ht : t = k.scheduledTerminal
    · subst ht
      simp [Kernel.createCountPcb]
    · simp [Kernel.createCountPcb, Function.update_of_ne ht]
  | setCurr m =>
    cases hstep
    exact ⟨fun _ _ => rfl, rfl, fun _ => rfl, halone⟩
  | saveParent m =>
    obtain rfl : m = x.selected := hlocals
    have hnone : (k.pcbs x.selected).parentId = noPid := halone
    simp only [ExecCall.inner, Kernel.saveParent_base hnone] at hstep
    cases hstep
    exact ⟨fun _ _ => rfl, rfl, fun _ => rfl, trivial⟩
  | contextSwitch m =>
    cases hstep
    exact ⟨fun _ _ => rfl, rfl, fun _ => rfl, trivial⟩
  | started m => cases hstep
  | returned => cases hstep

/-- They store no registers: the new process has no parent. -/
lemma ExecCall.inner_saved (hlocals : e.stage.LocalsOk x.selected)
    (halone : e.stage.Alone x.selected e.kernel) (hstep : x.inner env e = some e') :
    e'.kernel.saved = e.kernel.saved := by
  obtain ⟨k, stage, away, live, written, usedPid⟩ := e
  cases stage with
  | load i =>
    simp only [ExecCall.inner] at hstep
    split at hstep
    · split_ifs at hstep
      cases hstep
      rfl
    · split_ifs at hstep
      · cases hstep
        rfl
      · cases hstep
        rfl
  | newPcb =>
    obtain ⟨m, -, rfl⟩ := Option.map_eq_some_iff.mp hstep
    rfl
  | createFields m pid =>
    cases hstep
    exact saved_createFields pid _ k
  | createTssEsp0 m pid =>
    cases hstep
    exact saved_createTssEsp0 k
  | createTid m pid =>
    cases hstep
    exact saved_createTid k
  | createActive m pid =>
    cases hstep
    exact saved_createActive k
  | createEsp0 m pid =>
    cases hstep
    exact saved_createEsp0 pid k
  | createParentId m =>
    obtain rfl : m = x.selected := hlocals
    have hzero : k.scheduled.countPcb = 0#32 := halone
    simp only [ExecCall.inner, Kernel.createParentId, if_pos hzero] at hstep
    cases hstep
    exact saved_updatePcb (f := fun p => { p with parentId := noPid }) fun _ => ⟨rfl, rfl⟩
  | saveParent m =>
    obtain rfl : m = x.selected := hlocals
    have hnone : (k.pcbs x.selected).parentId = noPid := halone
    simp only [ExecCall.inner, Kernel.saveParent_base hnone] at hstep
    cases hstep
    rfl
  | started m => cases hstep
  | returned => cases hstep
  | _ =>
    cases hstep
    rfl

/-- A process that is started has no further statement in the kernel. -/
lemma ExecCall.inner_started (hstage : e.stage = .started q) : x.inner env e = none := by
  simp only [ExecCall.inner, hstage]

lemma ExecCall.inner_returned (hstage : e.stage = .returned) : x.inner env e = none := by
  simp only [ExecCall.inner, hstage]

lemma execBegin_spec {command : Command} (h : execBegin env command regs k = some (x, e)) :
    ¬ (k.pcbs x.selected).Active ∧ e =
      { kernel  := { k.cli with pid := slotWord x.selected }
        stage   := .setUpPaging
        away    := none
        live    := fun s => decide (k.pcbs s).Active
        written := []
        usedPid := none } := by
  unfold execBegin at h
  split at h
  · next m prog hslot hprog =>
    cases h
    exact ⟨Kernel.determineWhichPcbEmpty_eq_some hslot, rfl⟩
  · cases h

/-- An `execute` that starts a process comes to `set_up_paging`. -/
lemma exists_execBegin {command : Command} {eip : Word}
    (hexec : k.execute env (some command.text) regs = .ok (.started q eip, k')) :
    ∃ x e, execBegin env command regs k = some (x, e) ∧ x.prog.targetEip = eip := by
  rcases Kernel.execute_cases env (some command.text) regs k with
    ⟨status, pid, heq, -⟩ | ⟨text, m, prog, htext, hslot, hprog, ⟨heq, -⟩ | ⟨-, heq⟩⟩
  · rw [heq] at hexec
    cases hexec
  · rw [heq] at hexec
    cases hexec
  · cases htext
    rw [heq] at hexec
    unfold Except.map at hexec
    split at hexec
    · cases hexec
    · cases hexec
      simp only [execBegin, hslot, hprog]
      exact ⟨_, _, rfl, rfl⟩

/-! ### The rest of a launch -/

/-- A call that is left alone: the first of its statements is the last, or the call goes on. -/
lemma ExecCall.run_inner_succ {m : ℕ}
    (hrun : Run (Graph (x.step env)) e (List.replicate (m + 1) .inner) e₁) :
    e.away = none ∧ ∃ e', x.inner env e = some e' ∧ (m = 0 ∧ e' = e₁ ∨
      (∀ p, e'.stage ≠ .started p) ∧ e'.stage ≠ .returned ∧ e'.away = none ∧
        Run (Graph (x.step env)) e' (List.replicate m .inner) e₁) := by
  rw [List.replicate_succ, run_cons] at hrun
  obtain ⟨e', hfirst, hrun⟩ := hrun
  rw [Transition.Graph, ExecCall.step] at hfirst
  split_ifs at hfirst with haway
  refine ⟨haway, e', hfirst, ?_⟩
  cases m with
  | zero =>
    cases hrun
    exact Or.inl ⟨rfl, rfl⟩
  | succ m =>
    have hrest := hrun
    rw [List.replicate_succ, run_cons] at hrun
    obtain ⟨e₂, hsecond, -⟩ := hrun
    rw [Transition.Graph, ExecCall.step] at hsecond
    split_ifs at hsecond with haway'
    refine Or.inr ⟨fun p hp => ?_, fun hreturned => ?_, haway', hrest⟩
    · rw [inner_started hp] at hsecond
      cases hsecond
    · rw [inner_returned hreturned] at hsecond
      cases hsecond

/-- The launch of a base shell, which comes to an end with `P` when nothing interrupts it. -/
structure Launches (env : Env) (x : ExecCall) (e : ExecState) (P : Slot → Kernel → Prop) :
    Prop where
  ok    : x.Ok env
  inv   : ExecInv env x e
  away  : e.away = none
  alone : e.stage.Alone x.selected e.kernel
  run   : ∃ m e' q, Run (Graph (x.step env)) e (List.replicate m .inner) e' ∧
    e'.stage = .started q ∧ P q e'.kernel

namespace Launches

/-- The launch ends, or goes on. -/
lemma inner (h : Launches env x e P) (hstep : x.inner env e = some e') :
    (∃ q, e'.stage = .started q ∧ P q e'.kernel) ∨
      (∀ q, e'.stage ≠ .started q) ∧ e'.stage ≠ .returned ∧ Launches env x e' P := by
  obtain ⟨m, e₁, q, hrun, hstarted, hP⟩ := h.run
  cases m with
  | zero =>
    cases hrun
    rw [ExecCall.inner_started hstarted] at hstep
    cases hstep
  | succ m =>
    obtain ⟨-, e₂, hfirst, hrest⟩ := ExecCall.run_inner_succ hrun
    obtain rfl := Option.some.inj (hfirst.symm.trans hstep)
    rcases hrest with ⟨-, rfl⟩ | ⟨hnot, hreturned, haway, hrun'⟩
    · exact Or.inl ⟨q, hstarted, hP⟩
    · have halone := (ExecCall.inner_frame h.inv.locals h.alone hstep).2.2.2
      exact Or.inr ⟨hnot, hreturned, h.ok, h.inv.inner h.ok h.away hstep, haway, halone, m, e₁, q,
        hrun', hstarted, hP⟩

/-- The last three statements assign `curr_pcb` and the task state segment. -/
lemma of_setCurr (h : Launches env x e P) (hstage : e.stage = .setCurr q) :
    P q ({ e.kernel with currPcb := some q }.contextSwitch q) := by
  obtain ⟨k, stage, away, live, written, usedPid⟩ := e
  obtain rfl := hstage
  obtain rfl : q = x.selected := h.inv.locals
  have hnone : (k.pcbs x.selected).parentId = noPid := h.alone
  have hsave : ({ k with currPcb := some x.selected } : Kernel).saveParent x.selected x.regs =
      .ok { k with currPcb := some x.selected } := Kernel.saveParent_base hnone
  have hcurr : Launches env x ⟨{ k with currPcb := some x.selected }, .saveParent x.selected, away,
      live, written, usedPid⟩ P := by
    have hstep : x.inner env ⟨k, .setCurr x.selected, away, live, written, usedPid⟩ =
        some ⟨{ k with currPcb := some x.selected }, .saveParent x.selected, away, live, written,
          usedPid⟩ := rfl
    rcases h.inner hstep with ⟨q, hq, -⟩ | ⟨-, -, hrest⟩
    · cases hq
    · exact hrest
  have hsaved : Launches env x ⟨{ k with currPcb := some x.selected }, .contextSwitch x.selected,
      away, live, written, usedPid⟩ P := by
    have hstep : x.inner env ⟨{ k with currPcb := some x.selected }, .saveParent x.selected, away,
        live, written, usedPid⟩ = some ⟨{ k with currPcb := some x.selected },
          .contextSwitch x.selected, away, live, written, usedPid⟩ := by
      simp only [ExecCall.inner, hsave]
    rcases hcurr.inner hstep with ⟨q, hq, -⟩ | ⟨-, -, hrest⟩
    · cases hq
    · exact hrest
  have hstep : x.inner env ⟨{ k with currPcb := some x.selected }, .contextSwitch x.selected, away,
      live, written, usedPid⟩ =
      some ⟨{ k with currPcb := some x.selected }.contextSwitch x.selected, .started x.selected,
        away, live, written, usedPid⟩ := rfl
  rcases hsaved.inner hstep with ⟨q, hq, hP⟩ | ⟨hnot, -⟩
  · cases hq
    exact hP
  · exact absurd rfl (hnot x.selected)

/-- The launch of a shell on a terminal without processes. -/
lemma of_execBegin (hshell : HasShell env.img) (hcount : k.scheduled.countPcb = 0#32) {m : Slot}
    {eip : Word} (hbegin : execBegin env shellCommand regs k = some (x, e))
    (hexec : k.execute env (some shellCommand.text) regs = .ok (.started m eip, k')) (hP : P m k') :
    Launches env x e P := by
  obtain ⟨prog, hprog, hfits⟩ := hshell
  obtain ⟨hprog', hinv⟩ := execBegin_inv hbegin
  obtain ⟨j, e', hrun, hstarted, rfl⟩ := execute_uninterrupted hbegin hexec
  have hok : x.Ok env := by
    refine ExecCall.ok_of_fits hprog' ?_
    rwa [Option.some.inj (hprog'.symm.trans hprog)]
  obtain ⟨-, rfl⟩ := execBegin_spec hbegin
  exact ⟨hok, hinv, rfl, hcount, j, e', m, hrun, hstarted, hP⟩

end Launches

end

end Osgods
