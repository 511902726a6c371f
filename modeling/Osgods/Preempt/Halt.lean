import Osgods.Process.Safety
import Osgods.Preempt.Launch

/-!
# `halt` under preemption

One call of `halt`, statement by statement. System calls come through a trap gate, so interrupts are
on from the start; `cli` turns them off and the `sti` in `set_up_paging` on again. A PIT tick may
switch the call out wherever they are on, and the processes that run meanwhile may call `execute`.
The call runs on the kernel stack of the process that halts, whose PCB it sets free before it leaves
that stack. `HaltState.Safe` says which of these steps do no harm.
-/

namespace Osgods

open Transition

/-! ### The statements of a call -/

/-- The statement that comes next, with the locals of the call. Interrupts are off from `cli` to the
end of `set_up_paging`, which is one step. -/
inductive HaltStage where
  | countPcb
  | base
  | inactive
  | execute
  | relaunch (y : ExecCall) (e : ExecState)
  | cli
  | vidmap (p : Slot)
  | tss (p : Slot)
  | loadRegs (p : Slot)
  | setCurr (p : Slot) (parentRegs : Regs)
  | jump (p : Slot) (parentRegs : Regs)
  | done (r : HaltResult)

/-- What a call has come to. -/
def HaltStage.result : HaltStage → Option HaltResult
  | .done r => some r
  | _       => none

/-- Where the call is: it runs, a PCB holds its context, or its context has been overwritten or its
kernel stack has become that of another process. -/
inductive HaltPlace where
  | here
  | held (c : Slot)
  | lost
  deriving DecidableEq

/-- `stack` is the process in whose block the kernel stack of the call lies. -/
structure HaltState where
  kernel : Kernel
  stage  : HaltStage
  place  : HaltPlace
  stack  : Slot

/-- The argument of a call, and the registers that its `execute` stores. -/
structure HaltCall where
  status : Byte
  regs   : Regs

/-- After a statement of the `execute` that starts a new base shell. -/
def HaltState.relaunch (y : ExecCall) (e : ExecState) (s : HaltState) : HaltState :=
  match e.stage with
  | .started q =>
    { s with kernel := e.kernel, stage := .done (.restarted q y.prog.targetEip), stack := q }
  | .returned  => { s with kernel := e.kernel, stage := .cli }
  | _          => { s with kernel := e.kernel, stage := .relaunch y e }

/-- The next statement of the call; a fault is not followed. -/
def HaltCall.inner (env : Env) (x : HaltCall) (s : HaltState) : Option HaltState :=
  let k := s.kernel
  match s.stage with
  | .countPcb => some { s with kernel := k.haltCount, stage := .base }
  | .base =>
    k.currPcb.map fun c =>
      { s with stage := if (k.pcbs c).parentId = noPid then .inactive else .cli }
  | .inactive => k.currPcb.map fun c => { s with kernel := k.haltInactive c, stage := .execute }
  | .execute =>
    match execBegin env shellCommand x.regs k with
    | some (y, e) => some { s with kernel := e.kernel, stage := .relaunch y e }
    | none =>
      match k.execute env (some shellCommand.text) x.regs with
      | .ok (.returned _, k) => some { s with kernel := k, stage := .cli }
      | _                    => none
  | .relaunch y e => (y.inner env { e with kernel := k }).map fun e' => s.relaunch y e'
  | .cli =>
    match k.currPcb with
    | none   => none
    | some c =>
      let parentId := (k.pcbs c).parentId
      (slotOf parentId).map fun p =>
        { s with
          kernel := ((k.cli.haltFiles c).haltInactive c).setUpPaging parentId
          stage  := .vidmap p }
  | .vidmap p   => some { s with kernel := k.haltVidmap, stage := .tss p }
  | .tss p      => some { s with kernel := k.haltTss p, stage := .loadRegs p }
  | .loadRegs p => some { s with stage := .setCurr p ⟨(k.pcbs p).savedEsp, (k.pcbs p).savedEbp⟩ }
  | .setCurr p parentRegs => some { s with kernel := k.haltCurr p, stage := .jump p parentRegs }
  | .jump p parentRegs =>
    some { s with stage := .done (.resumed p (haltStatus x.status) parentRegs), stack := p }
  | .done _ => none

/-! ### Steps -/

inductive HaltMove where
  | inner
  | tick (regs : Regs)
  | other (command : Option Command) (regs : Regs)

namespace HaltPlace

/-- Registers are stored in a PCB. -/
def overwrite (c : Option Slot) : HaltPlace → HaltPlace
  | .held d => if c = some d then .lost else .held d
  | place   => place

/-- The code that runs is switched out, and its registers are stored in a PCB. -/
def leave (c : Option Slot) : HaltPlace → HaltPlace
  | .here => c.elim .lost .held
  | place => place.overwrite c

/-- The code whose registers are stored in the PCB of `q` goes on. -/
def resume (q : Slot) : HaltPlace → HaltPlace
  | .held c => if c = q then .here else .held c
  | place   => place

/-- A process is started in the slot `q`, and the kernel stack there is its own. -/
def start (stack q : Slot) (place : HaltPlace) : HaltPlace := if q = stack then .lost else place

end HaltPlace

/-- The PCB in which a tick stores a context. -/
def Kernel.contextPcb (k : Kernel) : Option Slot := if k.pid = noPid then none else k.currPcb

namespace HaltState

def tick (env : Env) (regs : Regs) (s : HaltState) : Option HaltState :=
  if s.kernel.interruptFlag then
    let c := s.kernel.contextPcb
    match s.kernel.pitIntrHandler env regs with
    | .error _               => none
    | .ok (.returned, k)     => some { s with kernel := k.sti, place := s.place.overwrite c }
    | .ok (.resumed q _, k)  => some { s with kernel := k.sti, place := (s.place.leave c).resume q }
    | .ok (.launched q _, k) =>
      some { s with kernel := k.sti, place := (s.place.leave c).start s.stack q }
  else none

/-- An `execute` by the process that runs meanwhile. It stores registers in the PCB of the parent of
the process that it starts. A fault in it halts the process, and a base shell starts another one. -/
def other (env : Env) (command : Option Command) (regs : Regs) (s : HaltState) :
    Option HaltState :=
  match s.kernel.execute env (command.map Command.text) regs with
  | .error k              => (k.pageFault env regs).map fun r => { s with
      kernel := r.2.sti
      place  := match r.1 with
        | .restarted q _ => s.place.start s.stack q
        | .resumed _ _ _ => s.place }
  | .ok (.returned _, k)  => some { s with kernel := k.sti }
  | .ok (.started q _, k) => some { s with
      kernel := k.sti
      place  := (s.place.overwrite (slotOf (k.pcbs q).parentId)).start s.stack q }

end HaltState

def HaltCall.step (env : Env) (x : HaltCall) (s : HaltState) : HaltMove → Option HaltState
  | .inner              => if s.place = .here then x.inner env s else none
  | .tick regs          => s.tick env regs
  | .other command regs => if s.place = .here then none else s.other env command regs

/-- The process `c` makes a call. -/
def haltBegin (c : Slot) (k : Kernel) : HaltState := ⟨k, .countPcb, .here, c⟩

/-! ### Harmless steps -/

/-- A tick may switch the call out before this statement. A process with a parent is the top of its
chain until its `active` is cleared, and its parent is from the assignment to `curr_pcb` on. A base
shell is not counted and then not active, until its successor is both and `curr_pcb`. -/
def HaltStage.harmless (k : Kernel) : HaltStage → Bool
  | .countPcb | .jump _ _ | .done _ => true
  | .base | .cli => k.currPcb.all fun c => decide ((k.pcbs c).parentId ≠ noPid)
  | .relaunch _ e =>
    match e.stage with
    | .setCurr q                        => decide (k.currPcb = some q)
    | .saveParent _ | .contextSwitch _  => true
    | _                                 => false
  | .inactive | .execute | .vidmap _ | .tss _ | .loadRegs _ | .setCurr _ _ => false

/-- No tick switches the call out before other statements than these; and when the PCB with the
kernel stack of the call is the one that an `execute` is given, that names no executable. -/
def HaltState.Safe (env : Env) (s : HaltState) : HaltMove → Prop
  | .inner           => True
  | .tick _          => s.place = .here → s.stage.harmless s.kernel = true
  | .other command _ => s.kernel.determineWhichPcbEmpty = some s.stack →
      ∀ text ∈ command.map Command.text, checkExecutable env.img text = none

instance HaltState.decidableSafe (env : Env) (s : HaltState) (m : HaltMove) :
    Decidable (s.Safe env m) :=
  match m with
  | .inner     => .isTrue trivial
  | .tick _    => inferInstanceAs (Decidable (_ → _))
  | .other _ _ => inferInstanceAs (Decidable (_ → ∀ _ ∈ _, _))

/-! ### What a completed call leaves -/

/-- A process with this `parent_id` is followed by its parent; a base shell by another one, where
`next` is the `parent_id` of that. -/
def HaltResult.Succeeds (parentId next : Word) : HaltResult → Prop
  | .resumed p _ _ => parentId = slotWord p
  | .restarted _ _ => parentId = noPid ∧ next = noPid

/-- The user page and `curr_pcb` are those of the process that goes on, every active PCB is on the
chain of its terminal, and `count_pcb` counts them. -/
structure HaltSafe (parentId : Word) (k : Kernel) (r : HaltResult) : Prop where
  succeeds : r.Succeeds parentId (k.pcbs r.next).parentId
  curr     : k.currPcb = some r.next
  userPage : k.paging.pageDir 32#10 = userPde (slotWord r.next)
  chains   : ∃ chain, ProcessChains chain k
  count    : ∀ t, (k.terminalList t).countPcb.toNat =
    (Finset.univ.filter fun s => (k.pcbs s).Active ∧ (k.pcbs s).tid = t).card

/-- The call runs, or the scheduler goes on with it when it comes to its terminal. -/
def HaltState.Resumable (t : Tid) (s : HaltState) : Prop :=
  s.place = .here ∨ ∃ c, s.place = .held c ∧ (s.kernel.terminalList t).pcbPtr = some c ∧
    (s.kernel.terminalList t).countPcb ≠ 0#32

section

variable {env : Env} {x : HaltCall} {s s' : HaltState} {t : Tid} {c p q : Slot}
  {stack : Slot} {parentId : Word} {place : HaltPlace} {debt : Tid → ℕ} {chain : Tid → List Slot}
  {k k' : Kernel} {regs : Regs} {command : Option Command}

lemma HaltStage.result_eq_some {stage : HaltStage} {r : HaltResult} :
    stage.result = some r ↔ stage = .done r := by
  cases stage with
  | done r' => simp [result]
  | _ => simp [result]

/-- A program that is started is not given the PCB with the stack of the call. -/
lemma HaltState.Safe.slot_ne (h : s.Safe env (.other command regs))
    (hprog : ∃ text, command.map Command.text = some text ∧ checkExecutable env.img text ≠ none)
    (hslot : s.kernel.determineWhichPcbEmpty = some p) : p ≠ s.stack := by
  rintro rfl
  obtain ⟨text, htext, hprog⟩ := hprog
  exact hprog (h hslot text htext)

/-! ### The process of the call -/

/-- The process `c` is the top of the chain of `t`, and runs or waits there. The stack that is used
is its own, or that of a PCB that is free. -/
structure OnTop (t : Tid) (stack c : Slot) (parentId : Word) (place : HaltPlace) (debt : Tid → ℕ)
    (k : Kernel) : Prop where
  mapped : ∃ chain cur, Mapped chain debt k cur ∧ (∀ u, chain u ≠ []) ∧ (chain t).head? = some c
  debt   : ∀ u, u ≠ t → debt u = 0
  parent : (k.pcbs c).parentId = parentId
  place  : place = .here ∧ k.scheduledTerminal = t ∨ place = .held c ∧ k.scheduledTerminal ≠ t
  stack  : stack = c ∨ ¬ (k.pcbs stack).Active

namespace OnTop

lemma of_mapped (h : Mapped chain debt k c) (hall : ∀ u, chain u ≠ [])
    (hdebt : ∀ u, u ≠ k.scheduledTerminal → debt u = 0)
    (hstack : stack = c ∨ ¬ (k.pcbs stack).Active) :
    OnTop k.scheduledTerminal stack c (k.pcbs c).parentId .here debt k :=
  ⟨⟨chain, c, h, hall, h.top⟩, hdebt, rfl, Or.inl ⟨rfl, rfl⟩, hstack⟩

/-- It is the current process while the call runs. -/
lemma current (h : OnTop t stack c parentId .here debt k) : k.scheduledTerminal = t ∧
    ∃ chain, Mapped chain debt k c ∧ ∀ u, chain u ≠ [] := by
  obtain ⟨⟨chain, cur, hmapped, hall, htop⟩, -, -, ⟨-, hsched⟩ | ⟨hheld, -⟩, -⟩ := h
  · subst hsched
    obtain rfl := Option.some.inj (hmapped.top.symm.trans htop)
    exact ⟨rfl, chain, hmapped, hall⟩
  · cases hheld

lemma currPcb (h : OnTop t stack c parentId .here debt k) : k.currPcb = some c := by
  obtain ⟨-, chain, hmapped, -⟩ := h.current
  exact hmapped.curr

/-- The scheduler goes on with it while the call waits. -/
lemma resumable (h : OnTop t s.stack c parentId s.place debt s.kernel) : s.Resumable t := by
  obtain ⟨⟨chain, cur, hmapped, hall, htop⟩, -, -, ⟨hhere, -⟩ | ⟨hheld, hsched⟩, -⟩ := h
  · exact Or.inl hhere
  · refine Or.inr ⟨c, hheld, (hmapped.waiting t hsched.symm).trans htop, ?_⟩
    intro hzero
    exact hall t ((hmapped.count_eq_zero t).mp hzero)

/-- Other data. -/
lemma congr (h : OnTop t stack c parentId place debt k) (hpcb : ∀ s, (k.pcbs s).Like (k'.pcbs s))
    (hterm : ∀ t, (k.terminalList t).Like (k'.terminalList t))
    (hs : k'.scheduledTerminal = k.scheduledTerminal) (hpid : k'.pid = k.pid)
    (hcurr : k'.currPcb = k.currPcb) (hdir : k'.paging.pageDir = k.paging.pageDir) :
    OnTop t stack c parentId place debt k' := by
  obtain ⟨⟨chain, cur, hmapped, hall, htop⟩, hdebt, hparent, hplace, hstack⟩ := h
  refine ⟨⟨chain, cur, hmapped.congr hpcb hterm hs ?_ hcurr hdir, hall, htop⟩, hdebt,
    (hpcb c).2.1.trans hparent, ?_, ?_⟩
  · rw [hpid]
    exact hmapped.pid
  · rw [hs]
    exact hplace
  · rw [Pcb.Active, (hpcb stack).2.2.1]
    exact hstack

lemma sti (h : OnTop t stack c parentId place debt k) : OnTop t stack c parentId place debt k.sti :=
  h.congr (fun _ => .refl _) (fun _ => .refl _) rfl rfl rfl rfl

/-- What lies below it on its chain. -/
lemma chain_eq (h : OnTop t stack c parentId .here debt k) : ∃ chain rest, Mapped chain debt k c ∧
    (∀ u, chain u ≠ []) ∧ chain k.scheduledTerminal = c :: rest ∧ parentId = pidOf rest.head? := by
  obtain ⟨-, chain, hmapped, hall⟩ := h.current
  obtain ⟨rest, hchain⟩ := hmapped.chain_eq
  have hparent := hmapped.chains.parentId_head hchain
  exact ⟨chain, rest, hmapped, hall, hchain, h.parent.symm.trans hparent⟩

/-- A base shell is alone on its terminal. -/
lemma chain_base (h : OnTop t stack c noPid .here debt k) : ∃ chain, Mapped chain debt k c ∧
    (∀ u, chain u ≠ []) ∧ chain k.scheduledTerminal = [c] := by
  obtain ⟨chain, rest, hmapped, hall, hchain, hparent⟩ := h.chain_eq
  cases rest with
  | nil => exact ⟨chain, hmapped, hall, hchain⟩
  | cons p rest => exact absurd hparent.symm (slotWord_ne_noPid p)

lemma chain_child (h : OnTop t stack c parentId .here debt k) (hparent : parentId ≠ noPid) :
    ∃ chain p rest, Mapped chain debt k c ∧ (∀ u, chain u ≠ []) ∧
      chain k.scheduledTerminal = c :: p :: rest ∧ parentId = slotWord p := by
  obtain ⟨chain, rest, hmapped, hall, hchain, hrest⟩ := h.chain_eq
  cases rest with
  | nil => exact absurd hrest hparent
  | cons p rest => exact ⟨chain, p, rest, hmapped, hall, hchain, hrest⟩

/-- The stack lies behind a free PCB when that of the process is free. -/
lemma stack_dropped (h : OnTop t stack c parentId place debt k) :
    ¬ ((k.haltInactive c).pcbs stack).Active := by
  rw [Kernel.haltInactive, Kernel.updatePcb_pcbs, Function.update_apply]
  split_ifs with hne
  · simp [Pcb.Active]
  · exact h.stack.resolve_left hne

/-- The process goes on on its own stack. -/
lemma arrive (h : OnTop t stack c parentId place debt k) : OnTop t c c parentId place debt k :=
  ⟨h.mapped, h.debt, h.parent, h.place, Or.inl rfl⟩

/-! ### What happens meanwhile -/

/-- A tick goes on to the next terminal, and to the call if that is its own. -/
lemma tick (hshell : HasShell env.img) (h : OnTop t s.stack c parentId s.place debt s.kernel)
    (hstep : s.tick env regs = some s') : s'.stage = s.stage ∧ s'.stack = s.stack ∧
      OnTop t s.stack c parentId s'.place debt s'.kernel := by
  obtain ⟨k, stage, place, stack⟩ := s
  obtain ⟨⟨chain, cur, hmapped, hall, htop⟩, hdebt, hparent, hplace, hstack⟩ := h
  have hcontext : k.contextPcb = some cur := (if_neg hmapped.pid).trans hmapped.curr
  have hsucc : ∀ t : Tid, t + 1 ≠ t := by decide
  have hlaunch : (k.terminalList (k.scheduledTerminal + 1)).countPcb = 0#32 →
      k.determineWhichPcbEmpty ≠ none :=
    fun hzero => absurd ((hmapped.count_eq_zero _).mp hzero) (hall _)
  unfold HaltState.tick at hstep
  split_ifs at hstep
  rcases hmapped.toCurrent.pit_cases hshell regs hlaunch with
    ⟨q, rest, hchain, heq⟩ | ⟨n, argument, eip, hchain, -⟩
  · dsimp only at hstep
    rw [heq, hcontext] at hstep
    cases hstep
    have hhead : (chain (k.scheduledTerminal + 1)).head? = some q := by
      rw [hchain]
      rfl
    have hsched := Kernel.resumed_scheduledTerminal cur q (k.scheduledTerminal + 1) regs k
    have hresumed := hmapped.toCurrent.resumed regs hchain
    have hlike : ∀ m,
        (k.pcbs m).Like ((k.resumed cur q (k.scheduledTerminal + 1) regs).pcbs m) := by
      intro m
      rw [Kernel.resumed_pcbs]
      exact switchedOut_like (k.scheduledTerminal + 1) m
    refine ⟨rfl, rfl, OnTop.sti ⟨⟨chain, q, hresumed, hall, htop⟩, hdebt,
      (hlike c).2.1.trans hparent, ?_, ?_⟩⟩
    · rw [hsched]
      rcases hplace with ⟨rfl, rfl⟩ | ⟨rfl, ht⟩
      · obtain rfl : cur = c := Option.some.inj (hmapped.top.symm.trans htop)
        have hne : cur ≠ q := (hmapped.toCurrent.ne_of_head (hsucc _) hhead).symm
        refine Or.inr ⟨?_, hsucc _⟩
        simp [HaltPlace.leave, HaltPlace.resume, hne]
      · have hne : cur ≠ c := (hmapped.toCurrent.ne_of_head ht.symm htop).symm
        by_cases hnext : k.scheduledTerminal + 1 = t
        · subst hnext
          obtain rfl : q = c := Option.some.inj (hhead.symm.trans htop)
          refine Or.inl ⟨?_, rfl⟩
          simp [HaltPlace.leave, HaltPlace.overwrite, HaltPlace.resume, hne]
        · have hcq : c ≠ q := by
            rintro rfl
            exact hnext (hmapped.chains.eq_of_mem (List.mem_of_mem_head? hhead)
              (List.mem_of_mem_head? htop))
          refine Or.inr ⟨?_, hnext⟩
          simp [HaltPlace.leave, HaltPlace.overwrite, HaltPlace.resume, hne, hcq]
    · rw [Pcb.Active, (hlike stack).2.2.1]
      exact hstack
  · exact absurd hchain (hall _)

/-- Another terminal's chain has changed. -/
lemma of_update {l : List Slot}
    (hmapped : Mapped (Function.update chain k.scheduledTerminal l) debt k' q) (hl : l ≠ [])
    (hall : ∀ u, chain u ≠ []) (htop : (chain t).head? = some c) (ht : k.scheduledTerminal ≠ t)
    (hdebt : ∀ u, u ≠ t → debt u = 0) (hparent : (k'.pcbs c).parentId = parentId)
    (hsched : k'.scheduledTerminal = k.scheduledTerminal)
    (hstack : stack = c ∨ ¬ (k'.pcbs stack).Active) :
    OnTop t stack c parentId (.held c) debt k' := by
  refine ⟨⟨_, q, hmapped, fun u => update_ne_nil hl _ (hall u), ?_⟩, hdebt, hparent,
    Or.inr ⟨rfl, hsched ▸ ht⟩, hstack⟩
  rwa [Function.update_of_ne ht.symm]

/-- A process of another terminal halts when the first free PCB is not that of the stack in use. -/
lemma halted {cur m : Slot} (hshell : HasShell env.img) (h : Current chain debt k cur)
    (hall : ∀ u, chain u ≠ []) (htop : (chain t).head? = some c) (ht : k.scheduledTerminal ≠ t)
    (hdebt : ∀ u, u ≠ t → debt u = 0) (hstack : stack = c ∨ ¬ (k.pcbs stack).Active)
    (hm : k.determineWhichPcbEmpty = some m) (hne : m ≠ stack) (status : Byte) (regs : Regs) :
    ∃ r, k.halt env status regs = .ok r ∧ (∀ n eip, r.1 = .restarted n eip → n ≠ stack) ∧
      OnTop t stack c (k.pcbs c).parentId (.held c) debt r.2 := by
  have hccur : c ≠ cur := h.ne_of_head ht.symm htop
  have hactive : (k.pcbs c).Active := h.chains.active (List.mem_of_mem_head? htop)
  have hscur : stack ≠ cur := by
    rcases hstack with rfl | hfree
    · exact hccur
    · rintro rfl
      exact hfree h.active
  rcases h.halt_cases hshell (hdebt _ ht) status regs with
    ⟨p, rest, hchain, heq⟩ | ⟨n, argument, eip, hchain, hn, heq⟩
  · have hpcbs : ∀ s, s ≠ cur → (k.halted cur p).pcbs s = k.pcbs s :=
      fun s hs => Kernel.unwound_pcbs_of_ne hs k.haltCount
    refine ⟨_, heq, by simp, of_update (h.halt_child hchain (hdebt _ ht)) (List.cons_ne_nil p rest)
      hall htop ht hdebt ?_ (Kernel.unwound_scheduledTerminal cur p _) ?_⟩
    · rw [hpcbs c hccur]
    · rwa [hpcbs stack hscur]
  · have hdropped : ∀ s, s ≠ cur → (k.haltCount.haltInactive cur).pcbs s = k.pcbs s :=
      fun s hs => by simp [Kernel.haltInactive, Kernel.haltCount, Function.update_of_ne hs]
    have hcn : c ≠ n := by
      rintro rfl
      refine hn ?_
      rw [hdropped c hccur]
      exact hactive
    have hstackn : n ≠ stack := by
      rintro rfl
      have hfree : ¬ (k.pcbs n).Active := by
        rwa [← hdropped n hscur]
      have hmcur : m ≠ cur := by
        rintro rfl
        exact Kernel.determineWhichPcbEmpty_eq_some hm h.active
      have hnm : n ≤ m := Kernel.determineWhichPcbEmpty_le (Kernel.halt_restarted h.curr heq) (by
        rw [hdropped m hmcur]
        exact Kernel.determineWhichPcbEmpty_eq_some hm)
      exact hne (le_antisymm (Kernel.determineWhichPcbEmpty_le hm hfree) hnm)
    have hbase := (h.drop hchain (hdebt _ ht)).base hn (Function.update_self _ _ _) argument
    rw [show (k.haltCount.haltInactive cur).scheduledTerminal = k.scheduledTerminal from rfl,
      Function.update_idem] at hbase
    have hpcbs : ∀ s, s ≠ cur → s ≠ n →
        ((k.haltCount.haltInactive cur).base n argument).pcbs s = k.pcbs s := by
      intro s hs hsn
      rw [← hdropped s hs]
      simp [Kernel.base, Kernel.started, Kernel.forNew, Kernel.cli, Function.update_of_ne hsn]
    refine ⟨_, heq, fun n' eip' heq' => ?_, of_update hbase (List.cons_ne_nil n []) hall htop ht
      hdebt ?_ rfl ?_⟩
    · cases heq'
      exact hstackn
    · rw [hpcbs c hccur hcn]
    · rwa [hpcbs stack hscur hstackn.symm]

/-- A process of another terminal calls `execute`. -/
lemma other (hshell : HasShell env.img) (h : OnTop t s.stack c parentId s.place debt s.kernel)
    (haway : s.place ≠ .here) (hsafe : s.Safe env (.other command regs))
    (hstep : s.other env command regs = some s') : s'.stage = s.stage ∧ s'.stack = s.stack ∧
      OnTop t s.stack c parentId s'.place debt s'.kernel := by
  obtain ⟨k, stage, place, stack⟩ := s
  obtain ⟨⟨chain, cur, hmapped, hall, htop⟩, hdebt, hparent, ⟨hhere, -⟩ | ⟨hheld, ht⟩, hstack⟩ := h
  · exact absurd hhere haway
  · have hplace : place = .held c := hheld
    subst hplace
    have hne : c ≠ cur := hmapped.toCurrent.ne_of_head ht.symm htop
    have hactive : (k.pcbs c).Active := hmapped.chains.active (List.mem_of_mem_head? htop)
    unfold HaltState.other at hstep
    dsimp only at hstep
    have hscur : stack ≠ cur := by
      rintro rfl
      rcases hstack with heq | hfree
      · exact hne heq.symm
      · exact hfree hmapped.active
    rcases hmapped.toCurrent.execute_cases env (command.map Command.text) regs with
      ⟨status, pid, heq, hpid⟩ | ⟨n, hn, heq⟩ | ⟨n, argument, eip, hn, heq⟩
    · rw [heq] at hstep
      cases hstep
      exact ⟨rfl, rfl, ⟨chain, cur, hmapped.congr (fun _ => .refl _) (fun _ => .refl _) rfl hpid rfl
        rfl, hall, htop⟩, hdebt, hparent, Or.inr ⟨rfl, ht⟩, hstack⟩
    · obtain ⟨hprog, m, hslot⟩ := Kernel.execute_error heq
      obtain ⟨⟨result, k'⟩, hhalt, hkeep, htops⟩ := halted (m := m) hshell
        (hmapped.toCurrent.forNew n) hall htop ht hdebt hstack hslot (hsafe.slot_ne hprog hslot) 0#8
        regs
      have hfault : (k.forNew n).pageFault env regs = some (result, k') := by
        rw [Kernel.pageFault, hhalt]
      have htops' : OnTop t stack c parentId (.held c) debt k'.sti := by
        rw [← hparent]
        exact htops.sti
      simp only [heq, hfault, Option.map_some] at hstep
      cases hstep
      cases result with
      | resumed p r saved => exact ⟨rfl, rfl, htops'⟩
      | restarted q eip =>
        dsimp only
        rw [HaltPlace.start, if_neg (hkeep q eip rfl)]
        exact ⟨rfl, rfl, htops'⟩
    · obtain ⟨hprog, hslot, -⟩ := Kernel.execute_started heq
      have hstackn : n ≠ stack := hsafe.slot_ne hprog hslot
      rw [heq] at hstep
      cases hstep
      have hcn : c ≠ n := by
        rintro rfl
        exact hn hactive
      have hnc : n ≠ cur := by
        rintro rfl
        exact hn hmapped.active
      have hparentId : ((k.child cur n argument regs).pcbs n).parentId = slotWord cur := by
        simp [Kernel.child, Kernel.started, Kernel.newPcb, Function.update_of_ne hnc]
      have hpcbs : ∀ s, s ≠ cur → s ≠ n → (k.child cur n argument regs).pcbs s = k.pcbs s := by
        intro s hs hsn
        simp [Kernel.child, Kernel.started, Kernel.forNew, Kernel.cli, Function.update_of_ne hsn,
          Function.update_of_ne hs]
      have hchild : OnTop t stack c parentId (.held c) debt (k.child cur n argument regs) := by
        refine of_update (hmapped.toCurrent.child hn argument regs) (List.cons_ne_nil n _) hall htop
          ht hdebt ?_ rfl ?_
        · rw [hpcbs c hne hcn]
          exact hparent
        · rwa [hpcbs stack hscur hstackn.symm]
      dsimp only
      rw [hparentId, slotOf_slotWord, HaltPlace.overwrite, if_neg (by simpa using hne.symm),
        HaltPlace.start, if_neg hstackn]
      exact ⟨rfl, rfl, hchild.sti⟩

end OnTop

/-! ### The invariant -/

/-- Nothing has come between a state of the kernel with the process `c` on top and this one. -/
structure HaltState.After (t : Tid) (c : Slot) (parentId : Word) (debt : Tid → ℕ)
    (f : Kernel → Kernel) (s : HaltState) : Prop where
  place  : s.place = .here
  kernel : ∃ k, OnTop t s.stack c parentId .here debt k ∧ s.kernel = f k

/-- The statement comes before the assignment to `curr_pcb`, or is that assignment. -/
def ExecStage.beforeCurr : ExecStage → Bool
  | .saveParent _ | .contextSwitch _ | .started _ | .returned => false
  | _ => true

/-- The new base shell is current when this statement comes. -/
def ExecStage.AfterCurr (q : Slot) (stage : ExecStage) : Prop :=
  stage = .setCurr q ∨ stage = .saveParent q ∨ stage = .contextSwitch q

/-- A new base shell is about to be started, or is current. -/
def HaltState.Relaunching (env : Env) (t : Tid) (y : ExecCall) (e : ExecState) (s : HaltState) :
    Prop :=
  s.place = .here ∧ e.stage.beforeCurr = true ∧
      Launches env y { e with kernel := s.kernel } (fun q k => OnTop t s.stack q noPid .here 0 k) ∨
    ∃ q, e.stage.AfterCurr q ∧ OnTop t s.stack q noPid s.place 0 s.kernel

/-- One process of the terminal of the call is no longer counted. -/
def uncounted (t : Tid) : Tid → ℕ := Function.update 0 t 1

/-- The kernel when the user page has been set up for the parent. -/
def Kernel.leaving (c p : Slot) (k : Kernel) : Kernel :=
  ((k.cli.haltFiles c).haltInactive c).setUpPaging (slotWord p)

/-- The process `c` of the terminal `t` halts, whose parent is `parentId`. -/
def HaltInv (env : Env) (t : Tid) (c : Slot) (parentId : Word) (s : HaltState) : Prop :=
  match s.stage with
  | .countPcb => OnTop t s.stack c parentId s.place 0 s.kernel
  | .base => parentId ≠ noPid ∧ OnTop t s.stack c parentId s.place (uncounted t) s.kernel ∨
    parentId = noPid ∧ s.After t c parentId 0 Kernel.haltCount
  | .inactive => parentId = noPid ∧ s.After t c parentId 0 Kernel.haltCount
  | .execute => parentId = noPid ∧ s.After t c parentId 0 fun k => k.haltCount.haltInactive c
  | .relaunch y e => parentId = noPid ∧ s.Relaunching env t y e
  | .cli => parentId ≠ noPid ∧ OnTop t s.stack c parentId s.place (uncounted t) s.kernel
  | .vidmap p => parentId = slotWord p ∧ s.After t c parentId (uncounted t) (Kernel.leaving c p)
  | .tss p => parentId = slotWord p ∧
    s.After t c parentId (uncounted t) fun k => (k.leaving c p).haltVidmap
  | .loadRegs p | .setCurr p _ => parentId = slotWord p ∧
    s.After t c parentId (uncounted t) fun k => (k.leaving c p).haltVidmap.haltTss p
  | .jump p _ => parentId = slotWord p ∧ ∃ parentId', OnTop t s.stack p parentId' s.place 0 s.kernel
  | .done r => ∃ next, r.Succeeds parentId next ∧ OnTop t s.stack r.next next s.place 0 s.kernel

/-! ### The new base shell -/

/-- The assignment to `curr_pcb` divides the statements of a launch. -/
lemma ExecCall.inner_beforeCurr {y : ExecCall} {e e' : ExecState} (h : e.stage.beforeCurr = true)
    (hstep : y.inner env e = some e') : e'.stage.beforeCurr = true ∨ e'.stage = .returned ∨
      ∃ q, e.stage = .setCurr q ∧
        e' = { e with kernel := { e.kernel with currPcb := some q }, stage := .saveParent q } := by
  obtain ⟨k, stage, away, live, written, usedPid⟩ := e
  cases stage with
  | setCurr q =>
    cases hstep
    exact Or.inr (Or.inr ⟨q, rfl, rfl⟩)
  | load i =>
    simp only [ExecCall.inner] at hstep
    split at hstep
    · split_ifs at hstep
      cases hstep
      exact Or.inl rfl
    · split_ifs at hstep
      · cases hstep
        exact Or.inr (Or.inl rfl)
      · cases hstep
        exact Or.inl rfl
  | newPcb =>
    obtain ⟨m, -, rfl⟩ := Option.map_eq_some_iff.mp hstep
    exact Or.inl rfl
  | createParentId m =>
    simp only [ExecCall.inner] at hstep
    split at hstep
    · cases hstep
    · cases hstep
      exact Or.inl rfl
  | saveParent q => cases h
  | contextSwitch q => cases h
  | started q => cases h
  | returned => cases h
  | _ =>
    cases hstep
    exact Or.inl rfl

/-- The new base shell is on top from the assignment to `curr_pcb` on. -/
lemma Launches.onTop {y : ExecCall} {e : ExecState}
    (h : Launches env y e fun q k => OnTop t stack q noPid .here 0 k)
    (hstage : e.stage = .setCurr q) :
    OnTop t stack q noPid .here 0 { e.kernel with currPcb := some q } :=
  (h.of_setCurr hstage).congr (fun _ => .refl _) (fun _ => .refl _) rfl rfl rfl rfl

lemma HaltState.relaunch_goes_on {y : ExecCall} {e : ExecState}
    (hstarted : ∀ q, e.stage ≠ .started q) (hreturned : e.stage ≠ .returned) :
    s.relaunch y e = { s with kernel := e.kernel, stage := .relaunch y e } := by
  cases h : e.stage with
  | started q => exact absurd h (hstarted q)
  | returned => exact absurd h hreturned
  | _ => simp only [relaunch, h]

namespace HaltInv

lemma begin (h : Mapped chain 0 k c) (hall : ∀ u, chain u ≠ []) :
    HaltInv env k.scheduledTerminal c (k.pcbs c).parentId (haltBegin c k) :=
  OnTop.of_mapped h hall (fun _ _ => rfl) (Or.inl rfl)

/-- The first statement takes a process with a parent, or a base shell, off the counter. -/
lemma countPcb (h : OnTop t stack c parentId .here 0 k) :
    HaltInv env t c parentId ⟨k.haltCount, .base, .here, stack⟩ := by
  by_cases hparent : parentId = noPid
  · exact Or.inr ⟨hparent, rfl, k, h, rfl⟩
  · obtain ⟨chain, p, rest, hmapped, hall, hchain, -⟩ := h.chain_child hparent
    obtain ⟨rfl, -⟩ := h.current
    have hcount := hmapped.toCurrent.haltCount hchain rfl
    have hafter : Mapped chain (uncounted k.scheduledTerminal) k.haltCount c :=
      ⟨hcount, hmapped.userPage⟩
    refine Or.inl ⟨hparent, ?_⟩
    have htop := OnTop.of_mapped hafter hall (fun u hu => Function.update_of_ne hu _ _) h.stack
    rwa [show (k.haltCount.pcbs c).parentId = parentId from h.parent] at htop

lemma base (h : HaltInv env t c parentId ⟨k, .base, .here, stack⟩)
    (hstep : x.inner env ⟨k, .base, .here, stack⟩ = some s') : HaltInv env t c parentId s' := by
  rcases h with ⟨hparent, htop⟩ | ⟨hparent, hafter⟩
  · have hcurr : k.currPcb = some c := htop.currPcb
    have hsome : (k.pcbs c).parentId ≠ noPid := by
      rw [show (k.pcbs c).parentId = parentId from htop.parent]
      exact hparent
    simp only [HaltCall.inner, hcurr, Option.map_some, if_neg hsome] at hstep
    cases hstep
    exact ⟨hparent, htop⟩
  · obtain ⟨-, k₀, htop, hk⟩ := hafter
    obtain rfl : k = k₀.haltCount := hk
    have hcurr : k₀.haltCount.currPcb = some c := htop.currPcb
    have hnone : (k₀.haltCount.pcbs c).parentId = noPid := htop.parent.trans hparent
    simp only [HaltCall.inner, hcurr, Option.map_some, hnone, if_true] at hstep
    cases hstep
    exact ⟨hparent, rfl, k₀, htop, rfl⟩

/-- A base shell whose PCB is free has a successor. -/
lemma execute (hshell : HasShell env.img) (h : OnTop t stack c noPid .here 0 k)
    (hstep : x.inner env ⟨k.haltCount.haltInactive c, .execute, .here, stack⟩ = some s') :
    HaltInv env t c noPid s' := by
  obtain ⟨chain, hmapped, hall, hchain⟩ := h.chain_base
  obtain ⟨rfl, -⟩ := h.current
  obtain ⟨n, argument, eip, hn, hcount, hexec⟩ :=
    hmapped.toCurrent.execute_relaunch hshell hchain rfl x.regs
  obtain ⟨y, e, hbegin, -⟩ := exists_execBegin hexec
  have hbase := (hmapped.toCurrent.drop hchain rfl).base hn (Function.update_self _ _ _) argument
  rw [show (k.haltCount.haltInactive c).scheduledTerminal = k.scheduledTerminal from rfl,
    Function.update_idem] at hbase
  have hstack :
      stack = n ∨ ¬ (((k.haltCount.haltInactive c).base n argument).pcbs stack).Active := by
    by_cases hn' : stack = n
    · exact Or.inl hn'
    · refine Or.inr ?_
      have hpcb : ((k.haltCount.haltInactive c).base n argument).pcbs stack =
          (k.haltCount.haltInactive c).pcbs stack := by
        simp [Kernel.base, Kernel.started, Kernel.forNew, Kernel.cli, Function.update_of_ne hn']
      rw [hpcb]
      exact h.stack_dropped
  have htop : OnTop k.scheduledTerminal stack n noPid .here 0
      ((k.haltCount.haltInactive c).base n argument) := by
    have htop := OnTop.of_mapped hbase (fun u => update_ne_nil (List.cons_ne_nil n []) _ (hall u))
      (fun _ _ => rfl) hstack
    rwa [show (((k.haltCount.haltInactive c).base n argument).pcbs n).parentId = noPid by
      simp [Kernel.base, Kernel.started, Kernel.newPcb]] at htop
  have hlaunches := Launches.of_execBegin
    (P := fun q k' => OnTop k.scheduledTerminal stack q noPid .here 0 k')
    hshell hcount hbegin hexec htop
  simp only [HaltCall.inner, hbegin] at hstep
  cases hstep
  obtain ⟨-, rfl⟩ := execBegin_spec hbegin
  exact ⟨rfl, Or.inl ⟨rfl, rfl, hlaunches⟩⟩

/-- The call goes back to the parent, whose user page is set up. -/
lemma cli (h : OnTop t stack c parentId .here (uncounted t) k)
    (hstep : x.inner env ⟨k, .cli, .here, stack⟩ = some s') : HaltInv env t c parentId s' := by
  have hcurr : k.currPcb = some c := h.currPcb
  have hparent : (k.pcbs c).parentId = parentId := h.parent
  simp only [HaltCall.inner, hcurr, hparent] at hstep
  obtain ⟨p, hp, rfl⟩ := Option.map_eq_some_iff.mp hstep
  obtain rfl := slotOf_eq_some.mp hp
  exact ⟨rfl, rfl, k, h, rfl⟩

/-- Then the parent is current. -/
lemma setCurr {parentRegs : Regs} (h : OnTop t stack c (slotWord p) .here (uncounted t) k) :
    HaltInv env t c (slotWord p) ⟨k.unwound c p, .jump p parentRegs, .here, stack⟩ := by
  obtain ⟨chain, p', rest, hmapped, hall, hchain, hp⟩ := h.chain_child (slotWord_ne_noPid p)
  obtain rfl := slotWord_injective hp
  obtain ⟨rfl, -⟩ := h.current
  have hunwound := hmapped.toCurrent.unwound hchain (Function.update_self _ _ _)
  have hdebt : Function.update (uncounted k.scheduledTerminal) k.scheduledTerminal 0 = 0 := by
    rw [uncounted, Function.update_idem]
    exact Function.update_eq_self _ _
  have hsched := Kernel.unwound_scheduledTerminal c p k
  rw [hdebt] at hunwound
  have hfree : ¬ ((k.unwound c p).pcbs stack).Active := by
    rw [Pcb.Active, (unwound_like c p stack k).2.2.1]
    exact h.stack_dropped
  have htop := OnTop.of_mapped hunwound
    (fun u => update_ne_nil (List.cons_ne_nil p rest) _ (hall u)) (fun _ _ => rfl) (Or.inr hfree)
  rw [hsched] at htop
  exact ⟨rfl, _, htop⟩

/-- A statement of the `execute` that starts the new base shell. -/
lemma relaunch {y : ExecCall} {e : ExecState}
    (h : HaltState.Relaunching env t y e ⟨k, .relaunch y e, .here, stack⟩)
    (hstep : x.inner env ⟨k, .relaunch y e, .here, stack⟩ = some s') :
    HaltInv env t c noPid s' := by
  obtain ⟨e', hinner, rfl⟩ := Option.map_eq_some_iff.mp hstep
  rcases h with ⟨-, hbefore, hlaunches⟩ | ⟨q, hafter, htop⟩
  · rcases hlaunches.inner hinner with ⟨q, hstarted, -⟩ | ⟨hnot, hreturned, hrest⟩
    · have hcurr := ExecCall.inner_beforeCurr (e := { e with kernel := k }) hbefore hinner
      rcases hcurr with hb | hr | ⟨m, -, rfl⟩
      · rw [hstarted] at hb
        cases hb
      · rw [hstarted] at hr
        cases hr
      · cases hstarted
    · rw [HaltState.relaunch_goes_on hnot hreturned]
      have hcurr := ExecCall.inner_beforeCurr (e := { e with kernel := k }) hbefore hinner
      rcases hcurr with hb | hr | ⟨q, hstage, rfl⟩
      · exact ⟨rfl, Or.inl ⟨rfl, hb, hrest⟩⟩
      · exact absurd hr hreturned
      · exact ⟨rfl, Or.inr ⟨q, Or.inr (Or.inl rfl), hlaunches.onTop hstage⟩⟩
  · obtain ⟨k₁, stage, away, live, written, usedPid⟩ := e
    have hcurr : k.currPcb = some q := htop.currPcb
    rcases hafter with rfl | rfl | rfl
    · cases hinner
      have hsame : { k with currPcb := some q } = k := by
        rw [← hcurr]
      refine ⟨rfl, Or.inr ⟨q, Or.inr (Or.inl rfl), ?_⟩⟩
      show OnTop t stack q noPid .here 0 { k with currPcb := some q }
      rw [hsame]
      exact htop
    · have hsave : k.saveParent q y.regs = .ok k := Kernel.saveParent_base htop.parent
      simp only [ExecCall.inner, hsave] at hinner
      cases hinner
      exact ⟨rfl, Or.inr ⟨q, Or.inr (Or.inr rfl), htop⟩⟩
    · cases hinner
      refine ⟨noPid, ⟨rfl, rfl⟩, ?_⟩
      exact htop.arrive.congr (fun _ => .refl _) (fun _ => .refl _) rfl rfl rfl rfl

/-- A statement of the call. -/
lemma inner (hshell : HasShell env.img) (h : HaltInv env t c parentId s) (hhere : s.place = .here)
    (hstep : x.inner env s = some s') : HaltInv env t c parentId s' := by
  obtain ⟨k, stage, place, stack⟩ := s
  obtain rfl : place = .here := hhere
  cases stage with
  | countPcb =>
    cases hstep
    exact countPcb h
  | base => exact h.base hstep
  | inactive =>
    obtain ⟨rfl, -, k₀, htop, hk⟩ := h
    obtain rfl : k = k₀.haltCount := hk
    have hcurr : k₀.haltCount.currPcb = some c := htop.currPcb
    simp only [HaltCall.inner, hcurr, Option.map_some] at hstep
    cases hstep
    exact ⟨rfl, rfl, k₀, htop, rfl⟩
  | execute =>
    obtain ⟨rfl, -, k₀, htop, hk⟩ := h
    obtain rfl : k = k₀.haltCount.haltInactive c := hk
    exact execute hshell htop hstep
  | relaunch y e =>
    obtain ⟨rfl, hrelaunch⟩ := h
    exact relaunch hrelaunch hstep
  | cli => exact cli h.2 hstep
  | vidmap p =>
    cases hstep
    obtain ⟨rfl, -, k₀, htop, rfl⟩ := h
    exact ⟨rfl, rfl, k₀, htop, rfl⟩
  | tss p =>
    cases hstep
    obtain ⟨rfl, -, k₀, htop, rfl⟩ := h
    exact ⟨rfl, rfl, k₀, htop, rfl⟩
  | loadRegs p =>
    cases hstep
    obtain ⟨rfl, -, k₀, htop, rfl⟩ := h
    exact ⟨rfl, rfl, k₀, htop, rfl⟩
  | setCurr p parentRegs =>
    cases hstep
    obtain ⟨rfl, -, k₀, htop, rfl⟩ := h
    exact setCurr htop
  | jump p parentRegs =>
    cases hstep
    obtain ⟨hparent, next, htop⟩ := h
    exact ⟨next, hparent, htop.arrive⟩
  | done r => cases hstep

/-- Where a tick does no harm, the process of the call or its successor is on top, and it is all
that the invariant asks for. -/
lemma elsewhere (h : HaltInv env t c parentId s)
    (hsafe : s.place = .here → s.stage.harmless s.kernel = true) :
    ∃ q next debt, OnTop t s.stack q next s.place debt s.kernel ∧
      ∀ place k, OnTop t s.stack q next place debt k →
        HaltInv env t c parentId ⟨k, s.stage, place, s.stack⟩ := by
  obtain ⟨k, stage, place, stack⟩ := s
  cases stage with
  | countPcb => exact ⟨c, parentId, 0, h, fun _ _ => id⟩
  | base =>
    rcases h with ⟨hparent, htop⟩ | ⟨hparent, hhere, k₀, htop, hk⟩
    · exact ⟨c, parentId, _, htop, fun _ _ htop => Or.inl ⟨hparent, htop⟩⟩
    · obtain rfl : k = k₀.haltCount := hk
      have hcurr : k₀.haltCount.currPcb = some c := htop.currPcb
      have hnone : (k₀.haltCount.pcbs c).parentId = noPid := htop.parent.trans hparent
      have hharmless := hsafe hhere
      simp [HaltStage.harmless, hcurr, hnone] at hharmless
  | inactive => cases hsafe h.2.place
  | execute => cases hsafe h.2.place
  | relaunch y e =>
    obtain ⟨hparent, ⟨hhere, hbefore, hlaunches⟩ | ⟨q, hafter, htop⟩⟩ := h
    · have hplace : place = .here := hhere
      have hharmless := hsafe hhere
      rw [HaltStage.harmless] at hharmless
      cases hstage : e.stage with
      | setCurr q =>
        rw [hstage] at hharmless
        have hcurr : k.currPcb = some q := of_decide_eq_true hharmless
        have htop := hlaunches.onTop hstage
        rw [show ({ k with currPcb := some q } : Kernel) = k by rw [← hcurr]] at htop
        subst hplace
        exact ⟨q, noPid, 0, htop, fun _ _ htop => ⟨hparent, Or.inr ⟨q, Or.inl hstage, htop⟩⟩⟩
      | saveParent q =>
        rw [hstage] at hbefore
        cases hbefore
      | contextSwitch q =>
        rw [hstage] at hbefore
        cases hbefore
      | _ =>
        rw [hstage] at hharmless
        cases hharmless
    · exact ⟨q, noPid, 0, htop, fun _ _ htop => ⟨hparent, Or.inr ⟨q, hafter, htop⟩⟩⟩
  | cli =>
    obtain ⟨hparent, htop⟩ := h
    exact ⟨c, parentId, _, htop, fun _ _ htop => ⟨hparent, htop⟩⟩
  | vidmap p => cases hsafe h.2.place
  | tss p => cases hsafe h.2.place
  | loadRegs p => cases hsafe h.2.place
  | setCurr p parentRegs => cases hsafe h.2.place
  | jump p parentRegs =>
    obtain ⟨hparent, next, htop⟩ := h
    exact ⟨p, next, 0, htop, fun _ _ htop => ⟨hparent, next, htop⟩⟩
  | done r =>
    obtain ⟨next, hnext, htop⟩ := h
    exact ⟨r.next, next, 0, htop, fun _ _ htop => ⟨next, hnext, htop⟩⟩

lemma step (hshell : HasShell env.img) (h : HaltInv env t c parentId s) {m : HaltMove}
    (hsafe : s.Safe env m) (hstep : x.step env s m = some s') : HaltInv env t c parentId s' := by
  cases m with
  | inner =>
    simp only [HaltCall.step] at hstep
    split_ifs at hstep with hhere
    exact h.inner hshell hhere hstep
  | tick regs =>
    obtain ⟨q, next, debt, htop, hrest⟩ := h.elsewhere hsafe
    obtain ⟨hstage, hstack, htop'⟩ := htop.tick hshell hstep
    rw [← hstage, ← hstack] at hrest
    rw [← hstack] at htop'
    exact hrest _ _ htop'
  | other command regs =>
    simp only [HaltCall.step] at hstep
    split_ifs at hstep with hhere
    obtain ⟨q, next, debt, htop, hrest⟩ := h.elsewhere fun h => absurd h hhere
    obtain ⟨hstage, hstack, htop'⟩ := htop.other hshell hhere hsafe hstep
    rw [← hstage, ← hstack] at hrest
    rw [← hstack] at htop'
    exact hrest _ _ htop'

/-- The call is not abandoned. -/
lemma resumable (h : HaltInv env t c parentId s) : s.Resumable t := by
  by_cases hhere : s.place = .here
  · exact Or.inl hhere
  · obtain ⟨q, next, debt, htop, -⟩ := h.elsewhere fun h => absurd h hhere
    exact htop.resumable

/-- The call has completed. -/
lemma haltSafe {r : HaltResult} (h : HaltInv env t c parentId ⟨k, .done r, .here, stack⟩) :
    HaltSafe parentId k r := by
  obtain ⟨next, hnext, htop⟩ := h
  obtain ⟨-, chain, hmapped, hall⟩ := htop.current
  have hchains := hmapped.toCurrent.processChains hall
  refine ⟨?_, hmapped.curr, ?_, ⟨chain, hchains⟩, hchains.count_eq_card⟩
  · rw [show (k.pcbs r.next).parentId = next from htop.parent]
    exact hnext
  · rw [← hmapped.pid_eq]
    exact hmapped.userPage

end HaltInv

/-! ### A call to which nothing happens -/

/-- The `execute` that starts the new base shell goes through its statements. -/
lemma HaltState.relaunch_run (stack : Slot) {y : ExecCall} {e e' : ExecState} {m : ℕ}
    (hnot : ∀ p, e.stage ≠ .started p)
    (hrun : Run (Graph (y.step env)) e (List.replicate m .inner) e')
    (hstarted : e'.stage = .started q) :
    ∃ s', Run (Graph (x.step env)) ⟨e.kernel, .relaunch y e, .here, stack⟩
        (List.replicate m .inner) s' ∧
      s'.stage = .done (.restarted q y.prog.targetEip) ∧ s'.kernel = e'.kernel := by
  induction m generalizing e with
  | zero =>
    cases hrun
    exact absurd hstarted (hnot q)
  | succ m ih =>
    obtain ⟨-, e₁, hfirst, hrest⟩ := ExecCall.run_inner_succ hrun
    have hstep : x.step env ⟨e.kernel, .relaunch y e, .here, stack⟩ .inner =
        some (HaltState.relaunch y e₁ ⟨e.kernel, .relaunch y e, .here, stack⟩) := by
      simp only [HaltCall.step, HaltCall.inner, if_true, hfirst, Option.map_some]
    rw [List.replicate_succ]
    rcases hrest with ⟨rfl, rfl⟩ | ⟨hnot₁, hreturned, -, hrun'⟩
    · refine ⟨_, .cons hstep (.refl _), ?_⟩
      simp only [relaunch, hstarted, and_self]
    · rw [relaunch_goes_on hnot₁ hreturned] at hstep
      obtain ⟨s', hrest, hdone⟩ := ih hnot₁ hrun'
      exact ⟨s', .cons hstep hrest, hdone⟩

/-- The statements of a call, one after the other, do what `halt` does. -/
theorem halt_uninterrupted (hshell : HasShell env.img) (h : Current chain 0 k c) {r : HaltResult}
    (hhalt : k.halt env x.status x.regs = .ok (r, k')) :
    ∃ n s, Run (Graph (x.step env)) (haltBegin c k) (List.replicate n .inner) s ∧
      s.stage = .done r ∧ s.kernel = k' := by
  obtain ⟨rest, hchain⟩ := h.chain_eq
  have hcurr : k.haltCount.currPcb = some c := h.curr
  cases rest with
  | cons p rest =>
    have hparent : (k.haltCount.pcbs c).parentId = slotWord p := h.chains.parentId_head hchain
    rw [Kernel.halt_child h.curr hparent] at hhalt
    cases hhalt
    have hbase : x.step env ⟨k.haltCount, .base, .here, c⟩ .inner =
        some ⟨k.haltCount, .cli, .here, c⟩ := by
      simp [HaltCall.step, HaltCall.inner, hcurr, hparent, slotWord_ne_noPid]
    have hcli : x.step env ⟨k.haltCount, .cli, .here, c⟩ .inner =
        some ⟨k.haltCount.leaving c p, .vidmap p, .here, c⟩ := by
      simp [HaltCall.step, HaltCall.inner, hcurr, hparent, Kernel.leaving]
    exact ⟨8, _, .cons rfl <| .cons hbase <| .cons hcli <| .cons rfl <| .cons rfl <| .cons rfl <|
      .cons rfl <| .cons rfl <| .refl _, rfl, rfl⟩
  | nil =>
    have hparent : (k.haltCount.pcbs c).parentId = noPid := h.chains.parentId_head hchain
    obtain ⟨n, argument, eip, -, -, hexec⟩ := h.execute_relaunch hshell hchain rfl x.regs
    rw [Kernel.halt_base h.curr hparent, hexec] at hhalt
    cases hhalt
    obtain ⟨y, e, hbegin, rfl⟩ := exists_execBegin hexec
    obtain ⟨m, e', hrun, hstarted, hkernel⟩ := execute_uninterrupted hbegin hexec
    have hnot : ∀ p, e.stage ≠ .started p := by
      rw [(execBegin_spec hbegin).2]
      simp
    obtain ⟨s', hrun', hdone, hkernel'⟩ :=
      HaltState.relaunch_run (x := x) c hnot hrun hstarted
    have hbase : x.step env ⟨k.haltCount, .base, .here, c⟩ .inner =
        some ⟨k.haltCount, .inactive, .here, c⟩ := by
      simp [HaltCall.step, HaltCall.inner, hcurr, hparent]
    have hinactive : x.step env ⟨k.haltCount, .inactive, .here, c⟩ .inner =
        some ⟨k.haltCount.haltInactive c, .execute, .here, c⟩ := by
      simp [HaltCall.step, HaltCall.inner, hcurr]
    have hexecute : x.step env ⟨k.haltCount.haltInactive c, .execute, .here, c⟩ .inner =
        some ⟨e.kernel, .relaunch y e, .here, c⟩ := by
      simp [HaltCall.step, HaltCall.inner, hbegin]
    exact ⟨m + 1 + 1 + 1 + 1, s',
      .cons rfl <| .cons hbase <| .cons hinactive <| .cons hexecute hrun', hdone,
      hkernel'.trans hkernel⟩

/-! ### Runs -/

/-- A call of `halt` by the process that runs, among ticks that do no harm and calls of `execute` on
the other terminals: it is not abandoned, and when it has completed its terminal is in order. -/
theorem halt_preempted {s₀ s₁ : System} {as : List Action} {moves : List HaltMove}
    (hboot : BootState env s₀) (hsystem : Run (Graph (System.step env)) s₀ as s₁)
    (hrun : Run (Guarded (Graph (x.step env)) (HaltState.Safe env)) (haltBegin s₁.running s₁.kernel)
      moves s) :
    s.Resumable s₁.kernel.scheduledTerminal ∧ ∀ r, s.stage = .done r → s.place = .here →
      HaltSafe (s₁.kernel.pcbs s₁.running).parentId s.kernel r := by
  obtain ⟨chain, hinv, hall⟩ := hboot.run_inv hsystem
  have h := hrun.invariant
    (I := HaltInv env s₁.kernel.scheduledTerminal s₁.running (s₁.kernel.pcbs s₁.running).parentId)
    (fun _ _ _ h hstep => h.step hboot.hasShell hstep.2 hstep.1) (.begin hinv.toMapped hall)
  refine ⟨h.resumable, fun r hstage hplace => ?_⟩
  obtain ⟨k, stage, place, stack⟩ := s
  obtain rfl := hstage
  obtain rfl := hplace
  exact h.haltSafe

/-- The child of the third shell halts. It is switched out before its `cli`, when the first shell
executes another one, and again when the third shell is current. -/
theorem halt_preempted_small : ∃ s : HaltState,
    s.stage.result = some (.resumed 2 0#32 ⟨0#32, 0#32⟩) ∧
    (s.kernel.terminalList 0).countPcb = 2#32 ∧ s.Resumable 2 ∧
    HaltSafe 2#32 s.kernel (.resumed 2 0#32 ⟨0#32, 0#32⟩) := by
  obtain ⟨s₀, s₁, hboot, hrun, h⟩ := exists_booted smallKernel ⟨0#32, 0#32⟩
    [.tick ⟨0#32, 0#32⟩, .tick ⟨0#32, 0#32⟩] [.execute (some shellCommand) ⟨0#32, 0#32⟩]
    (fun s₁ => decide (s₁.kernel.scheduledTerminal = 2 ∧
        (s₁.kernel.pcbs s₁.running).parentId = 2#32) &&
      (runFrom (guardedStep (HaltCall.step smallKernel ⟨0#8, ⟨0#32, 0#32⟩⟩) fun s m =>
        s.Safe smallKernel m) (haltBegin s₁.running s₁.kernel) (List.replicate 2 .inner ++
          [.tick ⟨0#32, 0#32⟩, .other (some shellCommand) ⟨0#32, 0#32⟩, .tick ⟨0#32, 0#32⟩,
            .tick ⟨0#32, 0#32⟩] ++ List.replicate 5 .inner ++
          List.replicate 3 (.tick ⟨0#32, 0#32⟩) ++ [.inner])).any fun s =>
            s.place = .here ∧ s.stage.result = some (.resumed 2 0#32 ⟨0#32, 0#32⟩) ∧
              (s.kernel.terminalList 0).countPcb = 2#32) (by decide +kernel)
  rw [Bool.and_eq_true, decide_eq_true_eq] at h
  obtain ⟨⟨hsched, hparent⟩, h⟩ := h
  obtain ⟨s, hcall, hs⟩ := exists_run_of_any h
  rw [decide_eq_true_eq] at hs
  obtain ⟨hplace, hresult, hcount⟩ := hs
  obtain ⟨hresumable, hsafe⟩ := halt_preempted hboot hrun
    (guarded_graph (fun _ _ hp => of_decide_eq_true hp) hcall)
  rw [hsched] at hresumable
  rw [hparent] at hsafe
  exact ⟨s, hresult, hcount, hresumable, hsafe _ (HaltStage.result_eq_some.mp hresult) hplace⟩

/-- The child of the third shell halts and is switched out when the user page of its parent is set
up. The call goes on with the user page of the child. If it is switched out when the parent is
current, the first shell can start a program on the kernel stack that the call still uses. -/
theorem halt_preempted_page : ∃ s₀ s₁ as moves s moves' s', BootState smallKernel s₀ ∧
    Run (Graph (System.step smallKernel)) s₀ as s₁ ∧
    Run (Graph (HaltCall.step smallKernel ⟨0#8, ⟨0#32, 0#32⟩⟩))
      (haltBegin s₁.running s₁.kernel) moves s ∧
    s.stage = .done (.resumed 2 0#32 ⟨0#32, 0#32⟩) ∧ s.place = .here ∧
    s.kernel.paging.pageDir 32#10 = userPde 3#32 ∧
    ¬ HaltSafe (s₁.kernel.pcbs s₁.running).parentId s.kernel (.resumed 2 0#32 ⟨0#32, 0#32⟩) ∧
    Run (Graph (HaltCall.step smallKernel ⟨0#8, ⟨0#32, 0#32⟩⟩))
      (haltBegin s₁.running s₁.kernel) moves' s' ∧
    s'.place = .lost ∧ ¬ s'.Resumable s₁.kernel.scheduledTerminal := by
  obtain ⟨s₀, s₁, hboot, hrun, h⟩ := exists_booted smallKernel ⟨0#32, 0#32⟩
    [.tick ⟨0#32, 0#32⟩, .tick ⟨0#32, 0#32⟩] [.execute (some shellCommand) ⟨0#32, 0#32⟩]
    (fun s₁ => (runFrom (HaltCall.step smallKernel ⟨0#8, ⟨0#32, 0#32⟩⟩)
        (haltBegin s₁.running s₁.kernel) (List.replicate 3 .inner ++
          List.replicate 3 (.tick ⟨0#32, 0#32⟩) ++ List.replicate 5 .inner)).any (fun s =>
            s.stage.result = some (.resumed 2 0#32 ⟨0#32, 0#32⟩) ∧ s.place = .here ∧
              s.kernel.paging.pageDir 32#10 = userPde 3#32) &&
      (runFrom (HaltCall.step smallKernel ⟨0#8, ⟨0#32, 0#32⟩⟩)
        (haltBegin s₁.running s₁.kernel) (List.replicate 7 .inner ++
          [.tick ⟨0#32, 0#32⟩, .other (some shellCommand) ⟨0#32, 0#32⟩])).any fun s =>
            s.place = .lost) (by decide +kernel)
  rw [Bool.and_eq_true] at h
  obtain ⟨s, hcall, hs⟩ := exists_run_of_any h.1
  obtain ⟨s', hcall', hs'⟩ := exists_run_of_any h.2
  rw [decide_eq_true_eq] at hs hs'
  obtain ⟨hresult, hplace, hpage⟩ := hs
  refine ⟨s₀, s₁, _, _, s, _, s', hboot, hrun, hcall, HaltStage.result_eq_some.mp hresult, hplace,
    hpage, fun hsafe => ?_, hcall', hs', ?_⟩
  · have hother : userPde 3#32 ≠ userPde 2#32 := by decide
    exact hother (hpage.symm.trans hsafe.userPage)
  · rintro (hhere | ⟨c, hheld, -⟩)
    · rw [hs'] at hhere
      cases hhere
    · rw [hs'] at hheld
      cases hheld

end

end Osgods
