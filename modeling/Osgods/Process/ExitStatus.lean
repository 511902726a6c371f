import Osgods.Process.Accept
import Osgods.Process.Contexts

/-!
# What `execute` returns

A process that calls `execute` is told how its child ended: with its own status, by an exception, or
not at all since it was not started. A ghost keeps which call waits for which process. What the
caller gets is compared with what it should get, whatever happens between the call and the end of
the child.
-/

namespace Osgods

open Transition

/-! ### The exception handlers (`idt.c`) -/

/-- An exception handler prints its name and halts the process. -/
abbrev Handler := Env → Regs → Kernel → Except Kernel (HaltResult × Kernel)

def haltHandler (status : Byte) : Handler := fun env regs k => k.halt env status regs

def divideErrorExcHandler           : Handler := haltHandler 0#8
def debugExcHandler                 : Handler := haltHandler 0#8
def nmiInterruptHandler             : Handler := haltHandler 0#8
def breakpointExcHandler            : Handler := haltHandler 0#8
def overflowExcHandler              : Handler := haltHandler 0#8
def boundRangeExceededExcHandler    : Handler := haltHandler 0#8
def invalidOpcodeExcHandler         : Handler := haltHandler 0#8
def deviceNotAvailableExcHandler    : Handler := haltHandler 0#8
def doubleFaultExcHandler           : Handler := haltHandler 0#8
def coprocessorSegmentOverrunHandler : Handler := haltHandler 0#8
def invalidTssExcHandler            : Handler := haltHandler 0#8
def segmentNotPresentHandler        : Handler := haltHandler 0#8
def stackFaultExceptionHandler      : Handler := haltHandler 0#8
def generalProtectionExcHandler     : Handler := haltHandler 0#8
def pageFaultExcHandler             : Handler := haltHandler 0#8
def preservedHandler                : Handler := haltHandler 0#8
def x87FpuFloatingPointErrorHandler : Handler := haltHandler 0#8
def alignmentCheckExcHandler        : Handler := haltHandler 0#8
def machineCheckExcHandler          : Handler := haltHandler 0#8
def simdFloatingPointExcHandler     : Handler := haltHandler 0#8

def exceptionHandlerTable : List Handler :=
  [divideErrorExcHandler, debugExcHandler, nmiInterruptHandler, breakpointExcHandler,
    overflowExcHandler, boundRangeExceededExcHandler, invalidOpcodeExcHandler,
    deviceNotAvailableExcHandler, doubleFaultExcHandler, coprocessorSegmentOverrunHandler,
    invalidTssExcHandler, segmentNotPresentHandler, stackFaultExceptionHandler,
    generalProtectionExcHandler, pageFaultExcHandler, preservedHandler,
    x87FpuFloatingPointErrorHandler, alignmentCheckExcHandler, machineCheckExcHandler,
    simdFloatingPointExcHandler]

/-- `init_idt`: the vectors below 32 that have no handler of their own share the reserved one. -/
def idtHandler (v : Fin 32) : Handler :=
  if h : v.val < 20 then exceptionHandlerTable.get ⟨v, h⟩ else preservedHandler

lemma exceptionHandlerTable_eq : exceptionHandlerTable = List.replicate 20 (haltHandler 0#8) := rfl

/-- All exceptions are handled alike. -/
lemma idtHandler_eq (v : Fin 32) : idtHandler v = haltHandler 0#8 := by
  rw [idtHandler]
  split
  · refine List.eq_of_mem_replicate (n := 20) ?_
    rw [← exceptionHandlerTable_eq]
    exact List.get_mem _ _
  · rfl

/-! ### Calls of `execute` -/

/-- How a call of `execute` ends: its child halts or dies by an exception, or is not started. -/
inductive Ending where
  | halted (status : Byte)
  | exception
  | failed

/-- What the caller should be told. -/
def Ending.value : Ending → Word
  | .halted status => status.setWidth 32
  | .exception     => 256#32
  | .failed        => -1#32

/-- A call of `execute`: the process that has made it, and the registers that lead back to it. -/
structure ExecuteCall where
  process : Slot
  regs    : Regs
  deriving DecidableEq

/-- A whole step, or an exception in the process that runs. -/
inductive ExitAction where
  | step (a : Action)
  | exception (v : Fin 32) (regs : Regs)

/-- The system, with the call that waits for each process. -/
structure ExitState where
  system : System
  caller : Slot → Option ExecuteCall

/-- The calls that wait. A call begins to wait when it has started its child, until that ends. -/
def noteCaller (env : Env) (s : ExitState) : ExitAction → Slot → Option ExecuteCall
  | .step (.execute command regs) =>
    match s.system.kernel.execute env (command.map Command.text) regs with
    | .ok (.started n _, _)  => Function.update s.caller n (some ⟨s.system.running, regs⟩)
    | .ok (.returned _, _)   => s.caller
    | .error _               => Function.update s.caller s.system.running none
  | .step (.halt _ _)        => Function.update s.caller s.system.running none
  | .step (.tick _)          => s.caller
  | .step (.vidmap _)        => s.caller
  | .exception _ _           => Function.update s.caller s.system.running none

def System.exitStep (env : Env) (s : System) : ExitAction → Option System
  | .step a => s.step env a
  | .exception v regs =>
    match idtHandler v env regs s.kernel with
    | .ok r    => some (System.afterHalt r)
    | .error k => (k.pageFault env regs).map System.afterHalt

def ExitState.step (env : Env) (s : ExitState) (a : ExitAction) : Option ExitState :=
  (s.system.exitStep env a).map fun s' => ⟨s', noteCaller env s a⟩

/-- A tick that has a shell to start finds a free PCB for it. -/
def ExitState.LaunchOk (s : ExitState) : ExitAction → Prop
  | .step a        => Osgods.LaunchOk s.system a
  | .exception _ _ => True

instance (s : ExitState) (a : ExitAction) : Decidable (s.LaunchOk a) :=
  match a with
  | .step a        => inferInstanceAs (Decidable (Osgods.LaunchOk s.system a))
  | .exception _ _ => .isTrue trivial

/-! ### What they return -/

/-- The call that a halt goes back to, with the value in `eax`. -/
def HaltResult.returned : HaltResult → Option (ExecuteCall × Word)
  | .resumed p status regs => some (⟨p, regs⟩, status)
  | .restarted _ _         => none

/-- The same after a page fault in the kernel. -/
def faultReturned (env : Env) (regs : Regs) (k : Kernel) : Option (ExecuteCall × Word) :=
  (k.pageFault env regs).bind fun r => r.1.returned

def haltReturned (env : Env) (regs : Regs) : Except Kernel (HaltResult × Kernel) →
    Option (ExecuteCall × Word)
  | .ok r    => r.1.returned
  | .error k => faultReturned env regs k

/-- The call of `execute` that returns in a step, and its value. -/
def returns (env : Env) (s : System) : ExitAction → Option (ExecuteCall × Word)
  | .step (.execute command regs) =>
    match s.kernel.execute env (command.map Command.text) regs with
    | .ok (.returned status, _) => some (⟨s.running, regs⟩, status)
    | .ok (.started _ _, _)     => none
    | .error k                  => faultReturned env regs k
  | .step (.halt status regs) => haltReturned env regs (s.kernel.halt env status regs)
  | .step (.tick regs) =>
    match s.kernel.pitIntrHandler env regs with
    | .ok _    => none
    | .error k => faultReturned env regs k
  | .step (.vidmap screenStart) =>
    match s.kernel.vidmap env screenStart with
    | .ok _    => none
    | .error k => faultReturned env ⟨0#32, 0#32⟩ k
  | .exception v regs => haltReturned env regs (idtHandler v env regs s.kernel)

/-- The call that should return, and how it has ended. -/
def ends (env : Env) (s : ExitState) : ExitAction → Option (ExecuteCall × Ending)
  | .step (.execute command regs) =>
    match s.system.kernel.execute env (command.map Command.text) regs with
    | .ok (.returned _, _)  => some (⟨s.system.running, regs⟩, .failed)
    | .ok (.started _ _, _) => none
    | .error _              => (s.caller s.system.running).map fun c => (c, .exception)
  | .step (.halt status _)  => (s.caller s.system.running).map fun c => (c, .halted status)
  | .step (.tick _)         => none
  | .step (.vidmap _)       => none
  | .exception _ _          => (s.caller s.system.running).map fun c => (c, .exception)

/-- In a step, the call that should return does so, with the value that says how it has ended. -/
def TellsEnding (env : Env) (s : ExitState) (a : ExitAction) : Prop :=
  returns env s.system a = (ends env s a).map fun e => (e.1, e.2.value)

instance (env : Env) (s : ExitState) (a : ExitAction) : Decidable (TellsEnding env s a) :=
  inferInstanceAs (Decidable (_ = _))

/-- The program is found, and its load runs out of the mapped pages. -/
def LoadFaults (env : Env) (k : Kernel) (command : Option Command) : Prop :=
  ∃ c n prog, command = some c ∧ k.determineWhichPcbEmpty = some n ∧
    checkExecutable env.img c.text = some prog ∧ ¬ (k.forNew n).canLoad env prog = true

/-- Nobody is told about an exception, nor about the status 15, and no start fails for want of a
PCB. -/
def EndsOk (env : Env) (s : ExitState) : ExitAction → Prop
  | .step (.execute command _) =>
    (command ≠ none → s.system.kernel.determineWhichPcbEmpty ≠ none) ∧
      (LoadFaults env s.system.kernel command → s.caller s.system.running = none)
  | .step (.halt status _) => status = 15#8 → s.caller s.system.running = none
  | .step (.tick _)        => True
  | .step (.vidmap _)      => True
  | .exception _ _         => s.caller s.system.running = none

/-- The three ways in which a call can end are told apart. -/
lemma value_injective : Function.Injective Ending.value := by
  have hbyte : ∀ b : Byte, (b.setWidth 32).toNat = b.toNat := by
    intro b
    have hlt := b.isLt
    rw [BitVec.toNat_setWidth]
    omega
  have hlarge : ∀ (b : Byte) (w : Word), 256 ≤ w.toNat → b.setWidth 32 ≠ w := by
    rintro b w hw rfl
    have hlt := b.isLt
    rw [hbyte] at hw
    omega
  intro e e' h
  cases e with
  | halted b =>
    cases e' with
    | halted b' =>
      have hnat := congrArg BitVec.toNat h
      simp only [Ending.value, hbyte] at hnat
      rw [BitVec.eq_of_toNat_eq hnat]
    | exception => exact absurd h (hlarge b _ (by decide))
    | failed => exact absurd h (hlarge b _ (by decide))
  | exception =>
    cases e' with
    | halted b => exact absurd h.symm (hlarge b _ (by decide))
    | exception => rfl
    | failed => exact absurd h (by decide)
  | failed =>
    cases e' with
    | halted b => exact absurd h.symm (hlarge b _ (by decide))
    | exception => exact absurd h (by decide)
    | failed => rfl

/-! ### The calls that wait -/

/-- A process has the caller that its PCB names, and the pair of registers stored for its halt is
the caller's. -/
structure Callers (k : Kernel) (created : Slot → Option Regs)
    (caller : Slot → Option ExecuteCall) : Prop where
  ended  : ∀ n, ¬ (k.pcbs n).Active → caller n = none
  parent : ∀ n, (k.pcbs n).Active →
    (k.pcbs n).parentId = pidOf ((caller n).map ExecuteCall.process)
  regs   : ∀ n call, caller n = some call → created n = some call.regs

section

variable {env : Env} {chain chain' : Tid → List Slot} {k k' : Kernel} {c n p : Slot} {h : History}
  {created : Slot → Option Regs} {caller : Slot → Option ExecuteCall} {regs : Regs}
  {argument : List Byte} {s : ExitState} {s' : System} {a : Action} {status : Byte}

namespace Callers

/-- The same processes, with the same parents. -/
lemma congr (hk : Callers k created caller) (hactive : ∀ n, (k'.pcbs n).Active ↔ (k.pcbs n).Active)
    (hparent : ∀ n, (k'.pcbs n).parentId = (k.pcbs n).parentId) : Callers k' created caller where
  ended  := fun n hn => hk.ended n fun hactive' => hn ((hactive n).mpr hactive')
  parent := fun n hn => (hparent n).trans (hk.parent n ((hactive n).mp hn))
  regs   := hk.regs

lemma of_pcbs (hk : Callers k created caller) (hpcbs : k'.pcbs = k.pcbs) :
    Callers k' created caller :=
  hk.congr (fun n => by rw [hpcbs]) fun n => by rw [hpcbs]

lemma sti (hk : Callers k created caller) : Callers k.sti created caller := hk.of_pcbs rfl

/-- The process in a slot ends, and with it the call that has waited. -/
lemma haltInactive (hk : Callers k created caller) (c : Slot) :
    Callers (k.haltInactive c) created (Function.update caller c none) where
  ended  := fun n hn => by
    by_cases hnc : n = c
    · subst hnc
      exact Function.update_self _ _ _
    · rw [Function.update_of_ne hnc]
      rw [Kernel.haltInactive, Kernel.updatePcb_pcbs, Function.update_of_ne hnc] at hn
      exact hk.ended n hn
  parent := fun n hn => by
    have hnc : n ≠ c := by
      rintro rfl
      rw [Kernel.haltInactive, Kernel.updatePcb_pcbs, Function.update_self] at hn
      exact absurd rfl hn
    rw [Kernel.haltInactive, Kernel.updatePcb_pcbs, Function.update_of_ne hnc] at hn ⊢
    rw [Function.update_of_ne hnc]
    exact hk.parent n hn
  regs   := fun n call hcall => by
    by_cases hnc : n = c
    · subst hnc
      rw [Function.update_self] at hcall
      cases hcall
    · rw [Function.update_of_ne hnc] at hcall
      exact hk.regs n call hcall

/-- A base shell, for which no call waits. -/
lemma base (hk : Callers k created caller) (hn : ¬ (k.pcbs n).Active) (argument : List Byte) :
    Callers (k.base n argument) created caller where
  ended  := fun m hm => by
    by_cases hmn : m = n
    · subst hmn
      exact hk.ended m hn
    · simp only [Kernel.base, Kernel.started, Function.update_of_ne hmn] at hm
      exact hk.ended m hm
  parent := fun m hm => by
    by_cases hmn : m = n
    · subst hmn
      rw [hk.ended m hn]
      simp [Kernel.base, Kernel.started, Kernel.newPcb]
    · simp only [Kernel.base, Kernel.started, Function.update_of_ne hmn] at hm ⊢
      exact hk.parent m hm
  regs   := hk.regs

/-- A child of the current process, for which its call waits. -/
lemma child (hk : Callers k created caller) (hc : (k.pcbs c).Active) (hn : ¬ (k.pcbs n).Active)
    (argument : List Byte) (regs : Regs) :
    Callers (k.child c n argument regs)
      (Function.update created n (some regs)) (Function.update caller n (some ⟨c, regs⟩)) := by
  have hcn : n ≠ c := by
    rintro rfl
    exact hn hc
  have hother : ∀ m, m ≠ n → (((k.child c n argument regs).pcbs m).Active ↔ (k.pcbs m).Active) ∧
      ((k.child c n argument regs).pcbs m).parentId = (k.pcbs m).parentId := by
    intro m hm
    have hlike := like_updatePcb (c := c) (f := fun q =>
      { q with savedEsp := regs.esp, savedEbp := regs.ebp })
      ((k.forNew n).started n (slotWord c) argument) ⟨rfl, rfl, rfl, rfl⟩ m
    have hold : ((k.forNew n).started n (slotWord c) argument).pcbs m = k.pcbs m :=
      Function.update_of_ne hm _ _
    rw [hold] at hlike
    obtain ⟨-, hparent, hactive, -⟩ := hlike
    exact ⟨by rw [Pcb.Active, Pcb.Active, ← hactive]; rfl, hparent⟩
  refine ⟨fun m hm => ?_, fun m hm => ?_, fun m call hcall => ?_⟩
  · by_cases hmn : m = n
    · subst hmn
      simp [Kernel.child, Kernel.started, Kernel.newPcb, Function.update_of_ne hcn,
        Pcb.Active] at hm
    · rw [Function.update_of_ne hmn]
      exact hk.ended m fun hactive => hm ((hother m hmn).1.mpr hactive)
  · by_cases hmn : m = n
    · subst hmn
      rw [Function.update_self]
      simp [Kernel.child, Kernel.started, Kernel.newPcb, Function.update_of_ne hcn]
    · rw [Function.update_of_ne hmn, (hother m hmn).2]
      exact hk.parent m ((hother m hmn).1.mp hm)
  · by_cases hmn : m = n
    · subst hmn
      rw [Function.update_self] at hcall
      cases hcall
      exact Function.update_self _ _ _
    · rw [Function.update_of_ne hmn] at hcall
      exact (Function.update_of_ne hmn _ _).trans (hk.regs m call hcall)

/-- The current process ends. -/
lemma halted (hk : Callers k created caller) (hhalt : Halted chain k c s' chain') :
    Callers s'.kernel created (Function.update caller c none) := by
  have hcount : Callers k.haltCount created caller := hk.of_pcbs rfl
  have hend := hcount.haltInactive c
  cases hhalt with
  | @resumed p rest hchain =>
    refine hend.congr (fun m => ?_) fun m => ?_
    · obtain ⟨-, -, hactive, -⟩ := unwound_like c p m k.haltCount
      rw [Pcb.Active, Pcb.Active, ← hactive]
      rfl
    · obtain ⟨-, hparent, -, -⟩ := unwound_like c p m k.haltCount
      exact hparent
  | restarted argument hchain hn => exact (hend.base hn argument).of_pcbs rfl

end Callers

lemma Callers.switchedOut (hk : Callers k created caller) (next : Tid) :
    Callers (k.switchedOut c next regs) created caller := by
  refine hk.congr (fun m => ?_) fun m => (switchedOut_like next m).2.1
  rw [Pcb.Active, (switchedOut_like next m).2.2.1]
  rfl

lemma Outcome.callers (hinv : Inv chain s.system.kernel s.system.running)
    (hk : Callers s.system.kernel h.created s.caller)
    (hout : Outcome env chain s.system a s' chain') :
    Callers s'.kernel (h.note env s.system a).created (noteCaller env s (.step a)) := by
  cases hout with
  | returned hpid heq =>
    rw [History.note, noteCaller, heq]
    exact hk.of_pcbs rfl
  | child hn heq =>
    rw [History.note, noteCaller, heq]
    exact (hk.child hinv.active hn _ _).of_pcbs rfl
  | @faulted command regs n s' chain' hhalt heq =>
    have hnew : Callers (s.system.kernel.forNew n) h.created s.caller := hk.of_pcbs rfl
    rw [History.note, noteCaller, heq]
    exact hnew.halted hhalt
  | halted hhalt => exact hk.halted hhalt
  | @resumed regs q rest hchain =>
    have hswitch : Callers (s.system.kernel.switchedOut s.system.running
        (s.system.kernel.scheduledTerminal + 1) regs) h.created s.caller := hk.switchedOut _
    exact (hswitch.of_pcbs (Kernel.resumed_pcbs _ _ _ _ _)).sti
  | @launched regs n argument hchain hn =>
    have hswitch : Callers (s.system.kernel.switchedOut s.system.running
        (s.system.kernel.scheduledTerminal + 1) regs) h.created s.caller := hk.switchedOut _
    have hfree : ¬ ((s.system.kernel.switchedOut s.system.running
        (s.system.kernel.scheduledTerminal + 1) regs).pcbs n).Active := by
      rwa [Pcb.Active, Kernel.switchedOut_active]
    exact (hswitch.base hfree argument).sti
  | vidmap heq =>
    rcases Kernel.vidmap_cases env _ hinv.curr with heq' | ⟨u, paging, heq'⟩
    · obtain ⟨-, rfl⟩ := Prod.mk.inj (Except.ok.inj (heq.symm.trans heq'))
      exact hk.of_pcbs rfl
    · obtain ⟨-, rfl⟩ := Prod.mk.inj (Except.ok.inj (heq.symm.trans heq'))
      exact hk.of_pcbs rfl

/-! ### What one step returns -/

/-- A halt goes back to the call that waits, if there is one. -/
lemma Callers.haltReturned (hshell : HasShell env.img) (hc : Current chain 0 k c)
    (hctx : Contexts chain k h) (hk : Callers k h.created caller) (status : Byte) (regs : Regs) :
    haltReturned env regs (k.halt env status regs) =
      (caller c).map fun call => (call, haltStatus status) := by
  have hparent := hk.parent c hc.active
  rcases hc.halt_cases hshell rfl status regs with
    ⟨p, rest, hchain, heq⟩ | ⟨n, argument, eip, hchain, -, heq⟩
  · have hsaved := hctx.halt_saved hshell hc heq
    rw [hc.chains.parentId_head hchain] at hparent
    rw [heq]
    cases hcall : caller c with
    | none =>
      rw [hcall] at hparent
      exact absurd hparent (slotWord_ne_noPid p)
    | some call =>
      rw [hcall] at hparent
      have hprocess : p = call.process := slotWord_injective hparent
      have hregs := Option.some.inj (hsaved.symm.trans (hk.regs c call hcall))
      simp only [Osgods.haltReturned, HaltResult.returned, hprocess, Option.map_some] at hregs ⊢
      rw [hregs]
  · rw [hc.chains.parentId_head hchain] at hparent
    rw [heq]
    cases hcall : caller c with
    | none => rfl
    | some call =>
      rw [hcall] at hparent
      exact absurd hparent.symm (slotWord_ne_noPid call.process)

/-- So does a page fault in the kernel. -/
lemma Callers.faultReturned (hshell : HasShell env.img) (hc : Current chain 0 k c)
    (hctx : Contexts chain k h) (hk : Callers k h.created caller) (regs : Regs) :
    faultReturned env regs k = (caller c).map fun call => (call, haltStatus 0#8) := by
  obtain ⟨r, chain', heq, -⟩ := hc.exists_halted hshell 0#8 regs
  have hreturned := hk.haltReturned hshell hc hctx 0#8 regs
  rw [heq] at hreturned
  rw [Osgods.faultReturned, Kernel.pageFault, heq, ← hreturned]
  rfl

lemma haltStatus_eq : haltStatus status = status.setWidth 32 ↔ status ≠ 15#8 := by
  rw [haltStatus]
  split_ifs with h
  · subst h
    exact iff_of_false (by decide) (not_not.mpr rfl)
  · exact iff_of_true rfl h

/-- The value for a call says how it has ended, if there is a call. -/
lemma map_value_iff {o : Option ExecuteCall} {w : Word} {e : Ending} :
    (o.map fun c => (c, w)) = ((o.map fun c => (c, e)).map fun e => (e.1, e.2.value)) ↔
      (w ≠ e.value → o = none) := by
  cases o with
  | none => exact iff_of_true rfl fun _ => rfl
  | some c => simp

/-- Why `execute` fails, and with which value. -/
lemma execute_returned_value {command : Option Command} {w : Word}
    (heq : k.execute env (command.map Command.text) regs = .ok (.returned w, k')) :
    w = -1#32 ↔ (command ≠ none → k.determineWhichPcbEmpty ≠ none) := by
  cases command with
  | none =>
    cases heq
    exact iff_of_true rfl fun h => absurd rfl h
  | some command =>
    rw [Option.map_some] at heq
    cases hslot : k.determineWhichPcbEmpty with
    | none =>
      rw [Kernel.execute_full hslot] at heq
      cases heq
      exact iff_of_false (by decide) fun h => h (by simp) rfl
    | some n =>
      cases hprog : checkExecutable env.img command.text with
      | none =>
        rw [Kernel.execute_rejected hslot hprog] at heq
        cases heq
        exact iff_of_true rfl fun _ => by simp
      | some prog => exact absurd heq (Kernel.execute_ne_returned hslot hprog)

variable (env regs) in
/-- `execute` faults when it loads a program into pages that are not mapped. -/
lemma loadFaults_iff (command : Option Command) (hc : Current chain 0 k c) :
    LoadFaults env k command ↔
      ∃ n, k.execute env (command.map Command.text) regs = .error (k.forNew n) := by
  constructor
  · rintro ⟨command, n, prog, rfl, hslot, hprog, hload⟩
    exact ⟨n, Kernel.execute_of_not_canLoad hslot hprog hload⟩
  · rintro ⟨n, heq⟩
    cases command with
    | none => cases heq
    | some command =>
      rw [Option.map_some] at heq
      cases hslot : k.determineWhichPcbEmpty with
      | none =>
        rw [Kernel.execute_full hslot] at heq
        cases heq
      | some m =>
        cases hprog : checkExecutable env.img command.text with
        | none =>
          rw [Kernel.execute_rejected hslot hprog] at heq
          cases heq
        | some prog =>
          refine ⟨command, m, prog, rfl, hslot, hprog, fun hload => ?_⟩
          have hne : c ≠ m := by
            rintro rfl
            exact Kernel.determineWhichPcbEmpty_eq_some hslot hc.active
          rw [Kernel.execute_of_canLoad hslot hprog hload, Kernel.startProcess_child prog.argument
            regs (show (k.forNew m).pid = slotWord m from rfl)
            (show (k.forNew m).scheduled.countPcb ≠ 0#32 from hc.count_ne_zero)
            (show (k.forNew m).currPcb = some c from hc.curr)
            (show ((k.forNew m).pcbs c).pid = slotWord c from hc.pid_eq) hne] at heq
          cases heq

end

/-! ### Every step -/

/-- What holds of the system, and of the calls that wait, between two steps. -/
def ExitState.Ok (s : ExitState) : Prop :=
  ∃ chain h, Inv chain s.system.kernel s.system.running ∧ Contexts chain s.system.kernel h ∧
    Callers s.system.kernel h.created s.caller

section

variable {env : Env} {s s' : ExitState} {regs : Regs} {k : Kernel}

namespace ExitState.Ok

lemma tells_halt (hshell : HasShell env.img) (h : s.Ok) (status : Byte) (regs : Regs) :
    TellsEnding env s (.step (.halt status regs)) ↔ EndsOk env s (.step (.halt status regs)) := by
  obtain ⟨chain, h, hinv, hctx, hk⟩ := h
  simp only [TellsEnding, returns, ends, EndsOk]
  rw [hk.haltReturned hshell hinv.toCurrent hctx, map_value_iff, Ending.value, ne_eq,
    haltStatus_eq, not_not]

lemma tells_exception (hshell : HasShell env.img) (h : s.Ok) (v : Fin 32) (regs : Regs) :
    TellsEnding env s (.exception v regs) ↔ EndsOk env s (.exception v regs) := by
  obtain ⟨chain, h, hinv, hctx, hk⟩ := h
  simp only [TellsEnding, returns, ends, EndsOk, idtHandler_eq, haltHandler]
  rw [hk.haltReturned hshell hinv.toCurrent hctx, map_value_iff]
  exact forall_prop_of_true (by decide)

lemma tells_execute (hshell : HasShell env.img) (h : s.Ok) (command : Option Command)
    (regs : Regs) :
    TellsEnding env s (.step (.execute command regs)) ↔
      EndsOk env s (.step (.execute command regs)) := by
  obtain ⟨chain, h, hinv, hctx, hk⟩ := h
  have hfault := loadFaults_iff env regs command hinv.toCurrent
  rcases hinv.toCurrent.execute_cases env (command.map Command.text) regs with
    ⟨status, pid, heq, -⟩ | ⟨n, hn, heq⟩ | ⟨n, argument, eip, hn, heq⟩
  · -- the child is not started
    have hnofault : ¬ LoadFaults env s.system.kernel command := by
      rw [hfault, heq]
      simp
    simp only [TellsEnding, returns, ends, EndsOk, heq, Option.map_some, Option.some.injEq,
      Prod.mk.injEq, true_and, Ending.value, execute_returned_value heq, hnofault, false_implies,
      and_true]
  · -- the load of the program ends the running process
    have hload := hfault.mpr ⟨n, heq⟩
    obtain ⟨-, m, -, -, hslot, -⟩ := hfault.mpr ⟨n, heq⟩
    have hnew : Callers (s.system.kernel.forNew n) h.created s.caller := hk.of_pcbs rfl
    have hreturned := hnew.faultReturned hshell (hinv.toCurrent.forNew n) hctx.forNew regs
    simp only [TellsEnding, returns, ends, EndsOk, heq, hreturned, hslot, hload, map_value_iff]
    simp [Ending.value, haltStatus]
  · -- the child is started
    have hnofault : ¬ LoadFaults env s.system.kernel command := by
      rw [hfault, heq]
      simp
    obtain ⟨-, hslot, -⟩ := Kernel.execute_started heq
    simp only [TellsEnding, returns, ends, EndsOk, heq, hslot, hnofault]
    simp

lemma tells_step (hshell : HasShell env.img) (h : s.Ok) (a : ExitAction) :
    TellsEnding env s a ↔ EndsOk env s a := by
  cases a with
  | exception v regs => exact h.tells_exception hshell v regs
  | step a =>
    cases a with
    | execute command regs => exact h.tells_execute hshell command regs
    | halt status regs => exact h.tells_halt hshell status regs
    | tick regs =>
      obtain ⟨chain, h, hinv, -, -⟩ := h
      refine iff_of_true ?_ trivial
      by_cases hlaunch : Osgods.LaunchOk s.system (.tick regs)
      · rcases hinv.toCurrent.pit_cases hshell regs (hlaunch _ (hinv.chains.next _)) with
          ⟨q, rest, -, heq⟩ | ⟨n, argument, eip, -, -, heq⟩
        · simp only [TellsEnding, returns, ends, heq, Option.map_none]
        · simp only [TellsEnding, returns, ends, heq, Option.map_none]
      · obtain ⟨hcount, hfull⟩ := hinv.not_launchOk hlaunch
        simp only [TellsEnding, returns, ends, hinv.toCurrent.pit_full regs hcount hfull,
          Option.map_none]
    | vidmap screenStart =>
      obtain ⟨chain, h, hinv, -, -⟩ := h
      refine iff_of_true ?_ trivial
      rcases Kernel.vidmap_cases env screenStart hinv.curr with heq | ⟨u, paging, heq⟩
      · simp only [TellsEnding, returns, ends, heq, Option.map_none]
      · simp only [TellsEnding, returns, ends, heq, Option.map_none]

/-- A step in which every base shell can be launched. -/
lemma step (hshell : HasShell env.img) (h : s.Ok) {a : ExitAction}
    (hstep : s.step env a = some s') (hlaunch : s.LaunchOk a) : s'.Ok := by
  obtain ⟨chain, h, hinv, hctx, hk⟩ := h
  obtain ⟨system, hsystem, rfl⟩ := Option.map_eq_some_iff.mp hstep
  cases a with
  | step a =>
    obtain ⟨chain', hout⟩ := hinv.outcome hshell hlaunch hsystem
    exact ⟨chain', _, hout.inv hinv, hout.contexts hinv hctx, hout.callers hinv hk⟩
  | exception v regs =>
    -- the handlers are calls of `halt`
    have hhalt : s.system.step env (.halt 0#8 regs) = some system := by
      rw [System.exitStep, idtHandler_eq] at hsystem
      exact hsystem
    obtain ⟨chain', hout⟩ := hinv.outcome hshell (a := .halt 0#8 regs) trivial hhalt
    exact ⟨chain', _, hout.inv hinv, hout.contexts hinv hctx, hout.callers hinv hk⟩

/-- The first shell has no caller. -/
lemma of_firstShell {system : System} (hs₀ : firstShell env regs = some system) :
    ExitState.Ok ⟨system, fun _ => none⟩ := by
  obtain ⟨argument, rfl⟩ := firstShell_eq hs₀
  have hempty : Contexts (fun _ => []) (bootKernel env.layout) .empty :=
    ⟨fun s p hs => absurd rfl hs, fun t _ s hhead => by cases hhead⟩
  have hcallers : Callers (bootKernel env.layout) History.empty.created fun _ => none :=
    ⟨fun n _ => rfl, fun n hn => absurd rfl hn, fun n call hcall => by cases hcall⟩
  exact ⟨_, _, bootKernel_base_inv env.layout argument, (hempty.base argument [0]).sti,
    (hcallers.base (fun hn => hn rfl) argument).sti⟩

end ExitState.Ok

end

/-- From the first shell on, over any interleaving in which every base shell can be launched: a call
of `execute` is told how it has ended exactly when it has not ended by an exception, by the status
15, or for want of a PCB. -/
theorem exit_status (env : Env) {regs : Regs} {system : System} {as : List ExitAction}
    {s : ExitState} (hs₀ : firstShell env regs = some system)
    (hrun : Run (Guarded (Graph (ExitState.step env)) ExitState.LaunchOk)
      ⟨system, fun _ => none⟩ as s) :
    (∀ a, TellsEnding env s a ↔ EndsOk env s a) ∧ Function.Injective Ending.value := by
  have hshell := firstShell_hasShell hs₀
  have hs : s.Ok := hrun.invariant (I := ExitState.Ok)
    (fun _ _ _ h hstep => h.step hshell hstep.1 hstep.2) (.of_firstShell hs₀)
  exact ⟨hs.tells_step hshell, value_injective⟩

/-- The first shell runs another one and is then switched out. -/
theorem exit_status_small : ∃ s : ExitState,
    s.caller 1 = some ⟨0, ⟨0x7fff80#32, 0x7fffa0#32⟩⟩ ∧ s.system.running = 2 ∧
      (∀ a, TellsEnding smallKernel s a ↔ EndsOk smallKernel s a) ∧
      Function.Injective Ending.value := by
  have has : ((firstShell smallKernel ⟨0#32, 0#32⟩).bind fun system =>
      runFrom (guardedStep (ExitState.step smallKernel) fun s a => s.LaunchOk a)
        ⟨system, fun _ => none⟩
        [.step (.execute (some shellCommand) ⟨0x7fff80#32, 0x7fffa0#32⟩),
          .step (.tick ⟨0#32, 0#32⟩)]).any (fun s =>
            s.caller 1 = some ⟨0, ⟨0x7fff80#32, 0x7fffa0#32⟩⟩ ∧ s.system.running = 2) = true := by
    decide
  obtain ⟨system, s, hsystem, hrun, hs⟩ := exists_guarded_run_of_any has
  obtain ⟨hcaller, hrunning⟩ := of_decide_eq_true hs
  exact ⟨s, hcaller, hrunning, exit_status smallKernel hsystem hrun⟩

/-- The first shell runs five others, each from the one before. The last but one is then told 0 if
the last one dies of a page fault and 256 if it halts with 15; the last one is told 0 when it tries
to start another. -/
theorem exit_status_misread : ∃ (s₀ : System) (as : List ExitAction) (s : ExitState),
    firstShell smallKernel ⟨0#32, 0#32⟩ = some s₀ ∧
      Run (Guarded (Graph (ExitState.step smallKernel)) ExitState.LaunchOk)
        ⟨s₀, fun _ => none⟩ as s ∧
      ¬ TellsEnding smallKernel s (.exception 14 ⟨0#32, 0#32⟩) ∧
      ¬ TellsEnding smallKernel s (.step (.halt 15#8 ⟨0#32, 0#32⟩)) ∧
      ¬ TellsEnding smallKernel s (.step (.execute (some shellCommand) ⟨0#32, 0#32⟩)) := by
  have has : ((firstShell smallKernel ⟨0#32, 0#32⟩).bind fun system =>
      runFrom (guardedStep (ExitState.step smallKernel) fun s a => s.LaunchOk a)
        ⟨system, fun _ => none⟩
        (List.replicate 5 (.step (.execute (some shellCommand) ⟨0#32, 0#32⟩)))).any (fun s =>
          ¬ TellsEnding smallKernel s (.exception 14 ⟨0#32, 0#32⟩) ∧
          ¬ TellsEnding smallKernel s (.step (.halt 15#8 ⟨0#32, 0#32⟩)) ∧
          ¬ TellsEnding smallKernel s (.step (.execute (some shellCommand) ⟨0#32, 0#32⟩))) =
            true := by
    decide +kernel
  obtain ⟨system, s, hsystem, hrun, hs⟩ := exists_guarded_run_of_any has
  exact ⟨system, _, s, hsystem, hrun, of_decide_eq_true hs⟩

end Osgods
