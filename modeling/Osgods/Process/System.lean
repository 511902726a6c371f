import Osgods.Process.Halt
import Osgods.Process.Scheduler
import Osgods.Library.Transition

/-!
# The system in whole steps

Between two steps some process runs user code. A step is one system call of that process, or one
PIT tick; interrupts are on again when user code runs.
-/

namespace Osgods

open Transition

structure System where
  kernel  : Kernel
  running : Slot

/-- A step of the system. The registers are those that the code finds when it stores them. -/
inductive Action where
  | execute (command : Option Command) (regs : Regs)
  | halt (status : Byte) (regs : Regs)
  | tick (regs : Regs)
  | vidmap (screenStart : Word)

namespace Kernel

/-- `vidmap`: its result, and the kernel after it. -/
def vidmap (env : Env) (screenStart : Word) (k : Kernel) : Except Kernel (Word × Kernel) :=
  if screenStart = 0#32 then .ok (-1#32, k)
  else if screenStart.slt (BitVec.ofNat 32 mb128) ∨
      (BitVec.ofNat 32 mb132 - 4#32).slt screenStart then .ok (-1#32, k)
  else
    let k := { k with paging := k.paging.setUserVideoMap env.layout }
    let t := if k.currTerminalNum ≠ k.scheduled.tid then k.scheduled.tid else k.currTerminalNum
    let target := if k.currTerminalNum ≠ k.scheduled.tid
      then (k.terminalList k.scheduled.tid).videoPage else videoMemoryAddr
    let k := k.updateTerminal t fun t => { t with vidmap := 1#32 }
    let k := { k with paging := k.paging.setVidMap target 1#32 }
    match k.currPcb with
    | none   => .error k
    | some c => .ok (0#32, k.setUpPaging (k.pcbs c).pid)

/-- What `vidmap` changes. -/
lemma vidmap_cases {k : Kernel} {c : Slot} (env : Env) (screenStart : Word)
    (hc : k.currPcb = some c) :
    k.vidmap env screenStart = .ok (-1#32, k) ∨ ∃ t paging, k.vidmap env screenStart =
      .ok (0#32, { k.updateTerminal t fun t => { t with vidmap := 1#32 } with
        paging := paging }.setUpPaging (k.pcbs c).pid) := by
  unfold vidmap
  split_ifs
  · exact Or.inl rfl
  · exact Or.inl rfl
  · simp only [updateTerminal_currPcb, hc]
    exact Or.inr ⟨_, _, rfl⟩

/-- A page fault in the kernel: its handler calls `halt(0)`. A second fault is not followed. -/
def pageFault (env : Env) (regs : Regs) (k : Kernel) : Option (HaltResult × Kernel) :=
  match k.halt env 0#8 regs with
  | .ok r    => some r
  | .error _ => none

end Kernel

/-- The process that runs after a halt. -/
def HaltResult.next : HaltResult → Slot
  | .resumed p _ _  => p
  | .restarted s _  => s

/-- The system after a halt. -/
def System.afterHalt (r : HaltResult × Kernel) : System := ⟨r.2.sti, r.1.next⟩

def System.step (env : Env) (s : System) : Action → Option System
  | .execute command regs =>
    match s.kernel.execute env (command.map Command.text) regs with
    | .ok (.returned _, k)  => some ⟨k.sti, s.running⟩
    | .ok (.started q _, k) => some ⟨k.sti, q⟩
    | .error k              => (k.pageFault env regs).map System.afterHalt
  | .halt status regs =>
    match s.kernel.halt env status regs with
    | .ok r    => some (System.afterHalt r)
    | .error k => (k.pageFault env regs).map System.afterHalt
  | .tick regs =>
    match s.kernel.pitIntrHandler env regs with
    | .ok (.returned, k)     => some ⟨k.sti, s.running⟩
    | .ok (.resumed q _, k)  => some ⟨k.sti, q⟩
    | .ok (.launched q _, k) => some ⟨k.sti, q⟩
    | .error k               => (k.pageFault env regs).map System.afterHalt
  | .vidmap screenStart =>
    match s.kernel.vidmap env screenStart with
    | .ok (_, k) => some ⟨k.sti, s.running⟩
    | .error k   => (k.pageFault env ⟨0#32, 0#32⟩).map System.afterHalt

/-! ### Boot -/

/-- A terminal as `terminal_init` leaves it. -/
def initTerminal (t : Tid) : Terminal where
  tid          := t
  videoPage    := videoPage t
  xCursor      := 0
  yCursor      := 0
  pcbPtr       := none
  countPcb     := 0#32
  nextTerminal := some (t + 1)
  vidmap       := 0#32

/-- The PCBs lie in memory that nothing has used yet. -/
def zeroPcb : Pcb where
  pid            := 0#32
  parentId       := 0#32
  fileDescriptor := fun _ => .zero
  savedEsp       := 0#32
  savedEbp       := 0#32
  esp0           := 0#32
  active         := 0#32
  argument       := []
  tssEsp0        := 0#32
  tid            := 0

/-- The kernel when `entry` calls `execute` for the first time. -/
def bootKernel (L : Layout) : Kernel where
  pcbs                 := fun _ => zeroPcb
  terminalList         := initTerminal
  scheduledTerminal    := 0
  scheduledTerminalNum := 0
  currTerminalNum      := 0
  currPcb              := none
  pid                  := noPid
  tss                  := ⟨0x800000#32, kernelDs⟩
  paging               := bootTables L
  screenX              := 0
  screenY              := 0
  videoMem             := videoMemoryAddr
  interruptFlag        := true

/-- The call of `execute` in `entry`, if it starts the first shell. -/
def firstShell (env : Env) (regs : Regs) : Option System :=
  match (bootKernel env.layout).execute env (some shellCommand.text) regs with
  | .ok (.started q _, k) => some ⟨k.sti, q⟩
  | _                     => none

/-- The file system holds an executable `shell` that fits the user page. -/
def HasShell (img : Image) : Prop :=
  ∃ prog, checkExecutable img shellCommand.text = some prog ∧ prog.Fits img

/-- A tick that has a shell to start finds a free PCB for it. -/
def LaunchOk (s : System) : Action → Prop
  | .tick _ => ∀ next, s.kernel.scheduled.nextTerminal = some next →
      (s.kernel.terminalList next).countPcb = 0#32 → s.kernel.determineWhichPcbEmpty ≠ none
  | _       => True

instance (s : System) (a : Action) : Decidable (LaunchOk s a) :=
  match a with
  | .tick _      => inferInstanceAs (Decidable (∀ _, _ → _ → _))
  | .execute _ _ => inferInstanceAs (Decidable True)
  | .halt _ _    => inferInstanceAs (Decidable True)
  | .vidmap _    => inferInstanceAs (Decidable True)

/-- The states that boot reaches when each terminal has started its base shell. -/
def BootState (env : Env) (s : System) : Prop :=
  (∃ regs s₀ as, firstShell env regs = some s₀ ∧
    Run (Guarded (Graph (System.step env)) LaunchOk) s₀ as s) ∧
    ∀ t, (s.kernel.terminalList t).countPcb ≠ 0#32

/-! ### Evaluation -/

section

variable (env : Env) (regs : Regs) (as bs : List Action) (q : System → Bool)

/-- A run from the first shell in which every base shell can be launched. -/
lemma exists_launched (h : ((firstShell env regs).bind fun s =>
    runFrom (guardedStep (System.step env) fun s a => LaunchOk s a) s as).any q = true) :
    ∃ s₀ s, firstShell env regs = some s₀ ∧
      Run (Guarded (Graph (System.step env)) LaunchOk) s₀ as s ∧ q s = true :=
  exists_guarded_run_of_any h

/-- A state that boot reaches. -/
lemma exists_boot (h : ((firstShell env regs).bind fun s =>
    runFrom (guardedStep (System.step env) fun s a => LaunchOk s a) s as).any (fun s₀ =>
      decide (∀ t, (s₀.kernel.terminalList t).countPcb ≠ 0#32) && q s₀) = true) :
    ∃ s₀, BootState env s₀ ∧ q s₀ = true := by
  obtain ⟨s₀, s₁, hs₀, hrun, hs₁⟩ := exists_launched env regs as _ h
  rw [Bool.and_eq_true, decide_eq_true_eq] at hs₁
  exact ⟨s₁, ⟨⟨regs, s₀, as, hs₀, hrun⟩, hs₁.1⟩, hs₁.2⟩

/-- A run from a state that boot reaches. -/
lemma exists_booted (h : ((firstShell env regs).bind fun s =>
    runFrom (guardedStep (System.step env) fun s a => LaunchOk s a) s as).any (fun s₀ =>
      decide (∀ t, (s₀.kernel.terminalList t).countPcb ≠ 0#32) &&
        (runFrom (System.step env) s₀ bs).any q) = true) :
    ∃ s₀ s, BootState env s₀ ∧ Run (Graph (System.step env)) s₀ bs s ∧ q s = true := by
  obtain ⟨s₀, hboot, hs₀⟩ := exists_boot env regs as _ h
  obtain ⟨s, hrun, hs⟩ := exists_run_of_any hs₀
  exact ⟨s₀, s, hboot, hrun, hs⟩

end

/-- The kernel with `smallImage` as its file system. -/
def smallKernel : Env := ⟨smallImage, ⟨1, 2, by decide, fun _ _ => 0#32⟩⟩

lemma exists_firstShell_small : ∃ s, firstShell smallKernel ⟨0#32, 0#32⟩ = some s := by
  have hfirst : (firstShell smallKernel ⟨0#32, 0#32⟩).isSome = true := by
    decide +kernel
  exact Option.isSome_iff_exists.mp hfirst

end Osgods
