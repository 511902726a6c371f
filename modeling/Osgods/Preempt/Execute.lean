import Osgods.Process.System

/-!
# `execute` under preemption

One call of `execute`, statement by statement from `set_up_paging` on, where `sti` turns interrupts
on again. A PIT tick may then switch the call out, and the processes that run meanwhile may call
`execute` themselves. `ExecCall.Safe` says which of these steps do no harm.
-/

namespace Osgods

open Transition ByteCopy

/-! ### The statements of a call -/

/-- The statement that comes next, with the locals of the call. -/
inductive ExecStage where
  | setUpPaging
  | load (i : ℕ)
  | newPcb
  | callCreate (q : Slot)
  | createFields (q : Slot) (pid : Word)
  | createTssEsp0 (q : Slot) (pid : Word)
  | createTid (q : Slot) (pid : Word)
  | createActive (q : Slot) (pid : Word)
  | createEsp0 (q : Slot) (pid : Word)
  | createParentId (q : Slot)
  | createCountPcb (q : Slot)
  | setCurr (q : Slot)
  | saveParent (q : Slot)
  | contextSwitch (q : Slot)
  | started (q : Slot)
  | returned
  deriving DecidableEq

/-- What a call knows when it comes to `set_up_paging`. -/
structure ExecCall where
  selected : Slot
  prog     : Program
  regs     : Regs

/-- The kernel and the call. `away` is the PCB that holds the call's context while it is switched
out. `live` are the slots of the processes that were active before the call or have been started
since by others; `written` are the directory entries through which the bytes of the program image
went so far; `usedPid` is the value of `pid` that `create_pcb` got. -/
structure ExecState where
  kernel  : Kernel
  stage   : ExecStage
  away    : Option Slot
  live    : Slot → Bool
  written : List Word
  usedPid : Option Word

/-- A call up to `set_up_paging`, while interrupts are off, if it does not return before. -/
def execBegin (env : Env) (command : Command) (regs : Regs) (k : Kernel) :
    Option (ExecCall × ExecState) :=
  match k.determineWhichPcbEmpty, checkExecutable env.img command.text with
  | some s, some prog => some (⟨s, prog, regs⟩,
      { kernel  := { k.cli with pid := slotWord s }
        stage   := .setUpPaging
        away    := none
        live    := fun s => decide (k.pcbs s).Active
        written := []
        usedPid := none })
  | _, _ => none

namespace ExecCall

/-- The bytes of the program image, in the order in which they are stored. -/
def stores (env : Env) (x : ExecCall) : List (Word × Byte) :=
  env.img.stores (x.prog.load env.img).2

/-- The next statement of the call; a fault is not followed. -/
def inner (env : Env) (x : ExecCall) (s : ExecState) : Option ExecState :=
  match s.stage with
  | .setUpPaging =>
    some { s with kernel := s.kernel.setUpPaging s.kernel.pid, stage := .load 0 }
  | .load i =>
    match (x.stores env)[i]? with
    | some (a, _) =>
      if s.kernel.mapped env a then
        some { s with
          written := s.written ++ [s.kernel.paging.pageDir (dirIndex a)]
          stage   := .load (i + 1) }
      else none
    | none =>
      if x.prog.length env.img ≠ (x.prog.load env.img).1 then some { s with stage := .returned }
      else some { s with stage := .newPcb }
  | .newPcb => (slotOf s.kernel.pid).map fun q => { s with stage := .callCreate q }
  | .callCreate q =>
    some { s with stage := .createFields q s.kernel.pid, usedPid := some s.kernel.pid }
  | .createFields q pid =>
    some { s with
      kernel := s.kernel.createFields q pid x.prog.argument
      stage  := .createTssEsp0 q pid }
  | .createTssEsp0 q pid =>
    some { s with kernel := s.kernel.createTssEsp0 q, stage := .createTid q pid }
  | .createTid q pid => some { s with kernel := s.kernel.createTid q, stage := .createActive q pid }
  | .createActive q pid =>
    some { s with kernel := s.kernel.createActive q, stage := .createEsp0 q pid }
  | .createEsp0 q pid =>
    some { s with kernel := s.kernel.createEsp0 q pid, stage := .createParentId q }
  | .createParentId q =>
    match s.kernel.createParentId q with
    | .error _ => none
    | .ok k    => some { s with kernel := k, stage := .createCountPcb q }
  | .createCountPcb q => some { s with kernel := s.kernel.createCountPcb, stage := .setCurr q }
  | .setCurr q =>
    some { s with kernel := { s.kernel with currPcb := some q }, stage := .saveParent q }
  | .saveParent q =>
    match s.kernel.saveParent q x.regs with
    | .error _ => none
    | .ok k    => some { s with kernel := k, stage := .contextSwitch q }
  | .contextSwitch q => some { s with kernel := s.kernel.contextSwitch q, stage := .started q }
  | .started _ | .returned => none

end ExecCall

/-! ### Steps -/

inductive ExecMove where
  | inner
  | tick (regs : Regs)
  | other (command : Option Command) (regs : Regs)

/-- A tick stores the context of the call in the PCB of `curr_pcb`, and a tick that resumes that PCB
goes on with the call. -/
def ExecState.tick (env : Env) (regs : Regs) (s : ExecState) : Option ExecState :=
  if s.kernel.interruptFlag then
    let away := s.away <|> s.kernel.currPcb
    match s.kernel.pitIntrHandler env regs with
    | .error _               => none
    | .ok (.returned, k)     => some { s with kernel := k.sti }
    | .ok (.resumed q _, k)  =>
      some { s with kernel := k.sti, away := if away = some q then none else away }
    | .ok (.launched q _, k) =>
      some { s with kernel := k.sti, away := away, live := Function.update s.live q true }
  else none

/-- An `execute` by the process that runs meanwhile. -/
def ExecState.other (env : Env) (command : Option Command) (regs : Regs) (s : ExecState) :
    Option ExecState :=
  match s.kernel.execute env (command.map Command.text) regs with
  | .error _              => none
  | .ok (.returned _, k)  => some { s with kernel := k.sti }
  | .ok (.started q _, k) => some { s with kernel := k.sti, live := Function.update s.live q true }

def ExecCall.step (env : Env) (x : ExecCall) (s : ExecState) : ExecMove → Option ExecState
  | .inner              => if s.away = none then x.inner env s else none
  | .tick regs          => s.tick env regs
  | .other command regs => if s.away = none then none else s.other env command regs

/-! ### Harmless steps -/

/-- The call has not yet set the `active` field of its PCB. -/
def ExecStage.unmarked : ExecStage → Bool
  | .setUpPaging | .load _ | .newPcb | .callCreate _ => true
  | .createFields _ _ | .createTssEsp0 _ _ | .createTid _ _ | .createActive _ _ => true
  | _ => false

/-- Bytes of an image of this length remain to be stored. -/
def ExecStage.bytesLeft (len : ℕ) : ExecStage → Bool
  | .setUpPaging => true
  | .load i      => decide (i < len)
  | _            => false

/-- No tick comes while bytes of the image remain to be stored; and until the call has set `active`,
nothing else starts a program: no tick comes to a terminal without processes, and no other `execute`
names an executable. -/
def ExecCall.Safe (env : Env) (x : ExecCall) (s : ExecState) : ExecMove → Prop
  | .inner => True
  | .tick _ => s.stage.bytesLeft (x.stores env).length = false ∧
      (s.stage.unmarked = true → ∀ next, s.kernel.scheduled.nextTerminal = some next →
        (s.kernel.terminalList next).countPcb = 0#32 →
          checkExecutable env.img shellCommand.text = none)
  | .other command _ => s.stage.unmarked = true →
      ∀ text ∈ command.map Command.text, checkExecutable env.img text = none

instance (img : Image) (text : List Byte) : Decidable (checkExecutable img text = none) :=
  decidable_of_iff _ Option.isNone_iff_eq_none

instance (env : Env) (x : ExecCall) (s : ExecState) (m : ExecMove) : Decidable (x.Safe env s m) :=
  match m with
  | .inner     => inferInstanceAs (Decidable True)
  | .tick _    => inferInstanceAs (Decidable (_ ∧ (_ → ∀ _, _ → _ → _)))
  | .other _ _ => inferInstanceAs (Decidable (_ → ∀ _ ∈ _, _))

/-- The process that the call has started has its PCB to itself, `create_pcb` got the `pid` that the
call had selected, and the whole image went through the user page of that process. -/
structure ExecSafe (env : Env) (x : ExecCall) (s : ExecState) (q : Slot) : Prop where
  slot    : q = x.selected
  alone   : s.live q = false
  usedPid : s.usedPid = some (slotWord q)
  written : s.written = List.replicate (x.stores env).length (userPde (slotWord q))

/-! ### The slot of the call -/

/-- The slot of the call: as long as it is not marked, it is the first free one and `pid` names it;
then it is active. -/
structure Reserved (unmarked : Bool) (n : Slot) (k : Kernel) : Prop where
  free   : unmarked = true → k.determineWhichPcbEmpty = some n ∧ k.pid = slotWord n
  active : unmarked = false → (k.pcbs n).Active

section

variable {env : Env} {x : ExecCall} {s s' : ExecState} {k k' : Kernel} {n q : Slot} {b : Bool}
  {regs : Regs} {command : Option (List Byte)} {result : ExecuteResult}

namespace Reserved

lemma congr (h : Reserved b n k) (hactive : ∀ s, (k'.pcbs s).active = (k.pcbs s).active)
    (hpid : k'.pid = k.pid) : Reserved b n k' where
  free   := fun hb => by
    obtain ⟨hfree, hn⟩ := h.free hb
    refine ⟨?_, hpid.trans hn⟩
    simpa only [Kernel.determineWhichPcbEmpty, hactive] using hfree
  active := fun hb => by
    rw [Pcb.Active, hactive]
    exact h.active hb

lemma sti (h : Reserved b n k) : Reserved b n k.sti := h.congr (fun _ => rfl) rfl

/-- Once the slot is marked, it has to stay so. -/
lemma congr_active (h : Reserved false n k) (hactive : (k'.pcbs n).active = (k.pcbs n).active) :
    Reserved false n k' where
  free   := by rintro ⟨⟩
  active := fun hb => by
    rw [Pcb.Active, hactive]
    exact h.active hb

/-- An `execute` by somebody else, which starts no program as long as the slot is not marked. -/
lemma execute (h : Reserved b n k) (hexec : k.execute env command regs = .ok (result, k'))
    (hsafe : b = true → ∀ text ∈ command, checkExecutable env.img text = none) :
    Reserved b n k' ∧ ∀ m eip, result = .started m eip → m ≠ n := by
  rcases result with status | ⟨m, eip⟩
  · refine ⟨?_, by simp⟩
    rcases Kernel.execute_cases env command regs k with
      ⟨status', pid, heq, hpid⟩ | ⟨text, s, prog, -, -, -, ⟨heq, -⟩ | ⟨-, heq⟩⟩
    · rw [heq] at hexec
      cases hexec
      refine ⟨fun hb => ⟨(h.free hb).1, ?_⟩, fun hb => h.active hb⟩
      rcases hpid with rfl | ⟨hnone, -⟩ | ⟨s, hs, rfl⟩
      · exact (h.free hb).2
      · rw [(h.free hb).1] at hnone
        cases hnone
      · rw [(h.free hb).1] at hs
        cases hs
        rfl
    · rw [heq] at hexec
      cases hexec
    · rw [heq] at hexec
      unfold Except.map at hexec
      split at hexec <;> cases hexec
  · obtain ⟨⟨text, htext, hprog⟩, hslot, hactive⟩ := Kernel.execute_started hexec
    cases b with
    | true => exact absurd (hsafe rfl text htext) hprog
    | false =>
      have hn := h.active rfl
      have hm := Kernel.determineWhichPcbEmpty_eq_some hslot
      have hne : m ≠ n := by
        rintro rfl
        exact hm hn
      refine ⟨⟨by simp, fun _ => ?_⟩, fun m' eip' heq => ?_⟩
      · rw [Pcb.Active, hactive, if_neg hne.symm]
        exact hn
      · cases heq
        exact hne

/-- A tick, which starts no shell as long as the slot is not marked. -/
lemma pit {r : TickResult} (h : Reserved b n k) (hpit : k.pitIntrHandler env regs = .ok (r, k'))
    (hsafe : b = true → ∀ next, k.scheduled.nextTerminal = some next →
      (k.terminalList next).countPcb = 0#32 →
        checkExecutable env.img shellCommand.text = none) :
    Reserved b n k' ∧ ∀ m eip, r = .launched m eip → m ≠ n := by
  rcases Kernel.pit_active hpit with
    ⟨hactive, hpid, hnot⟩ | ⟨k₁, result, next, hactive, hpid, hnext, hcount, hexec, rfl⟩
  · exact ⟨h.congr hactive hpid, fun m eip heq => absurd heq (hnot m eip)⟩
  · obtain ⟨hreserved, hne⟩ := (h.congr hactive hpid).execute hexec fun hb text htext => by
      cases htext
      exact hsafe hb next hnext hcount
    refine ⟨hreserved, fun m eip heq => ?_⟩
    cases result with
    | returned status => cases heq
    | started m' eip' =>
      cases heq
      exact hne _ _ rfl

end Reserved

/-! ### The invariant -/

/-- The number of bytes that are stored before a statement. -/
def ExecStage.stored (len : ℕ) : ExecStage → ℕ
  | .setUpPaging => 0
  | .load i      => i
  | _            => len

/-- What `create_pcb` has got before a statement. -/
def ExecStage.gotPid (n : Slot) : ExecStage → Option Word
  | .setUpPaging | .load _ | .newPcb | .callCreate _ => none
  | _ => some (slotWord n)

/-- The locals of the call name its slot. -/
def ExecStage.LocalsOk (n : Slot) : ExecStage → Prop
  | .setUpPaging | .load _ | .newPcb => True
  | .createFields q pid | .createTssEsp0 q pid | .createTid q pid | .createActive q pid
  | .createEsp0 q pid => q = n ∧ pid = slotWord n
  | .callCreate q | .createParentId q | .createCountPcb q | .setCurr q | .saveParent q
  | .contextSwitch q | .started q => q = n
  | .returned => False

structure ExecInv (env : Env) (x : ExecCall) (s : ExecState) : Prop where
  reserved : Reserved s.stage.unmarked x.selected s.kernel
  live     : s.live x.selected = false
  page     : ∀ i, s.stage = .load i → i < (x.stores env).length →
    s.kernel.paging.pageDir 32#10 = userPde (slotWord x.selected)
  bound    : ∀ i, s.stage = .load i → i ≤ (x.stores env).length
  written  : s.written =
    List.replicate (s.stage.stored (x.stores env).length) (userPde (slotWord x.selected))
  usedPid  : s.usedPid = s.stage.gotPid x.selected
  locals   : s.stage.LocalsOk x.selected
  loaded   : s.away ≠ none → s.stage.bytesLeft (x.stores env).length = false

/-- What a call to which nothing else happens needs of its program. -/
structure ExecCall.Ok (env : Env) (x : ExecCall) : Prop where
  dir    : ∀ st ∈ x.stores env, dirIndex st.1 = 32#10
  length : x.prog.length env.img = (x.prog.load env.img).1

namespace ExecInv

/-- Behind the load, a statement has the slot and the locals to see to. -/
lemma afterLoad {stage : ExecStage} {live : Slot → Bool} {written : List Word}
    {usedPid : Option Word} (hreserved : Reserved stage.unmarked x.selected k)
    (hlive : live x.selected = false) (hstage : ∀ i, stage ≠ .load i)
    (hwritten : written = List.replicate (stage.stored (x.stores env).length)
      (userPde (slotWord x.selected)))
    (hpid : usedPid = stage.gotPid x.selected) (hlocals : stage.LocalsOk x.selected) :
    ExecInv env x ⟨k, stage, none, live, written, usedPid⟩ where
  reserved := hreserved
  live     := hlive
  page     := fun i hi => absurd hi (hstage i)
  bound    := fun i hi => absurd hi (hstage i)
  written  := hwritten
  usedPid  := hpid
  locals   := hlocals
  loaded   := fun hne => absurd rfl hne

lemma inner (hx : x.Ok env) (h : ExecInv env x s) (hhere : s.away = none)
    (hstep : x.inner env s = some s') : ExecInv env x s' := by
  obtain ⟨k, stage, away, live, written, usedPid⟩ := s
  obtain ⟨hreserved, hlive, hpage, hbound, hwritten, hpid, hlocals, -⟩ := h
  obtain rfl : away = none := hhere
  have hloaded : ∀ {P : Prop}, (none : Option Slot) ≠ none → P := fun hne => absurd rfl hne
  cases stage with
  | setUpPaging =>
    cases hstep
    have hn : k.pid = slotWord x.selected := (hreserved.free rfl).2
    refine ⟨hreserved.congr (fun _ => rfl) rfl, hlive, fun i _ _ => ?_, ?_, hwritten, hpid, trivial,
      hloaded⟩
    · simp [hn]
    · rintro i ⟨⟩
      exact Nat.zero_le _
  | load i =>
    simp only [ExecCall.inner] at hstep
    cases hget : (x.stores env)[i]? with
    | some st =>
      rw [hget] at hstep
      obtain ⟨hi, hmem⟩ := List.getElem?_eq_some_iff.mp hget
      dsimp only at hstep
      split_ifs at hstep
      cases hstep
      refine ⟨hreserved, hlive, fun j _ _ => hpage i rfl hi, ?_, ?_, hpid, trivial, hloaded⟩
      · rintro j ⟨⟩
        exact hi
      · have hdir := hx.dir st (hmem ▸ List.getElem_mem hi)
        have hentry := hpage i rfl hi
        simp only [ExecStage.stored] at hwritten ⊢
        rw [List.replicate_succ', hwritten, hdir, hentry]
    | none =>
      rw [hget] at hstep
      have hlen : i = (x.stores env).length :=
        le_antisymm (hbound i rfl) (List.getElem?_eq_none_iff.mp hget)
      subst hlen
      simp only [hx.length, ne_eq, not_true_eq_false, if_false] at hstep
      cases hstep
      exact afterLoad hreserved hlive (by simp) hwritten hpid trivial
  | newPcb =>
    obtain ⟨q, hq, rfl⟩ := Option.map_eq_some_iff.mp hstep
    have hn : k.pid = slotWord x.selected := (hreserved.free rfl).2
    rw [hn, slotOf_slotWord] at hq
    cases hq
    exact afterLoad hreserved hlive (by simp) hwritten hpid rfl
  | callCreate q =>
    cases hstep
    have hn : k.pid = slotWord x.selected := (hreserved.free rfl).2
    exact afterLoad hreserved hlive (by simp) hwritten (congrArg some hn) ⟨hlocals, hn⟩
  | createFields q pid =>
    cases hstep
    exact afterLoad (hreserved.congr (fun _ => Kernel.createFields_active _) rfl) hlive (by simp)
      hwritten hpid hlocals
  | createTssEsp0 q pid =>
    cases hstep
    exact afterLoad (hreserved.congr (fun _ => Kernel.createTssEsp0_active) rfl) hlive (by simp)
      hwritten hpid hlocals
  | createTid q pid =>
    cases hstep
    exact afterLoad (hreserved.congr (fun _ => Kernel.createTid_active) rfl) hlive (by simp)
      hwritten hpid hlocals
  | createActive q pid =>
    cases hstep
    obtain ⟨rfl, rfl⟩ := hlocals
    refine afterLoad ⟨by rintro ⟨⟩, fun _ => ?_⟩ hlive (by simp) hwritten hpid ⟨rfl, rfl⟩
    simp [Kernel.createActive, Pcb.Active]
  | createEsp0 q pid =>
    cases hstep
    exact afterLoad (hreserved.congr_active (Kernel.createEsp0_active _)) hlive (by simp)
      hwritten hpid hlocals.1
  | createParentId q =>
    simp only [ExecCall.inner] at hstep
    split at hstep
    · cases hstep
    · next k' hk =>
      cases hstep
      have hreserved' := hreserved.congr_active (Kernel.createParentId_active hk)
      exact afterLoad hreserved' hlive (by simp) hwritten hpid hlocals
  | createCountPcb q =>
    cases hstep
    exact afterLoad (hreserved.congr_active rfl) hlive (by simp) hwritten hpid hlocals
  | setCurr q =>
    cases hstep
    exact afterLoad (hreserved.congr_active rfl) hlive (by simp) hwritten hpid hlocals
  | saveParent q =>
    simp only [ExecCall.inner] at hstep
    split at hstep
    · cases hstep
    · next k' hk =>
      cases hstep
      have hreserved' := hreserved.congr_active (Kernel.saveParent_active hk)
      exact afterLoad hreserved' hlive (by simp) hwritten hpid hlocals
  | contextSwitch q =>
    cases hstep
    exact afterLoad (hreserved.congr_active rfl) hlive (by simp) hwritten hpid hlocals
  | started q => cases hstep
  | returned => cases hstep

/-- What happens elsewhere leaves the call's own variables alone. -/
lemma elsewhere (h : ExecInv env x s) (hreserved : Reserved s.stage.unmarked x.selected s'.kernel)
    (hload : s.stage.bytesLeft (x.stores env).length = false) (hstage : s'.stage = s.stage)
    (hwritten : s'.written = s.written) (hpid : s'.usedPid = s.usedPid)
    (hlive : s'.live x.selected = false) : ExecInv env x s' where
  reserved := by rwa [hstage]
  live     := hlive
  page     := fun i hi hlt => by
    rw [← hstage, hi] at hload
    exact absurd hlt (of_decide_eq_false hload)
  bound    := by
    rw [hstage]
    exact h.bound
  written  := by
    rw [hwritten, hstage]
    exact h.written
  usedPid  := by
    rw [hpid, hstage]
    exact h.usedPid
  locals   := by
    rw [hstage]
    exact h.locals
  loaded   := fun _ => by
    rw [hstage]
    exact hload

lemma tick (h : ExecInv env x s) (hsafe : x.Safe env s (.tick regs))
    (hstep : s.tick env regs = some s') : ExecInv env x s' := by
  obtain ⟨hload, hlaunch⟩ := hsafe
  unfold ExecState.tick at hstep
  split_ifs at hstep
  dsimp only at hstep
  split at hstep
  · cases hstep
  · next heq =>
    cases hstep
    exact h.elsewhere (h.reserved.pit heq hlaunch).1.sti hload rfl rfl rfl h.live
  · next heq =>
    cases hstep
    exact h.elsewhere (h.reserved.pit heq hlaunch).1.sti hload rfl rfl rfl h.live
  · next heq =>
    cases hstep
    obtain ⟨hreserved, hne⟩ := h.reserved.pit heq hlaunch
    refine h.elsewhere hreserved.sti hload rfl rfl rfl ?_
    exact (Function.update_of_ne (hne _ _ rfl).symm _ _).trans h.live

lemma other {command : Option Command} (h : ExecInv env x s) (haway : s.away ≠ none)
    (hsafe : x.Safe env s (.other command regs)) (hstep : s.other env command regs = some s') :
    ExecInv env x s' := by
  unfold ExecState.other at hstep
  split at hstep
  · cases hstep
  · next heq =>
    cases hstep
    exact h.elsewhere (h.reserved.execute heq hsafe).1.sti (h.loaded haway) rfl rfl rfl h.live
  · next heq =>
    cases hstep
    obtain ⟨hreserved, hne⟩ := h.reserved.execute heq hsafe
    refine h.elsewhere hreserved.sti (h.loaded haway) rfl rfl rfl ?_
    exact (Function.update_of_ne (hne _ _ rfl).symm _ _).trans h.live

lemma step (hx : x.Ok env) (h : ExecInv env x s) {move : ExecMove} (hsafe : x.Safe env s move)
    (hstep : x.step env s move = some s') : ExecInv env x s' := by
  unfold ExecCall.step at hstep
  cases move with
  | inner =>
    dsimp only at hstep
    split_ifs at hstep with hhere
    exact h.inner hx hhere hstep
  | tick regs => exact h.tick hsafe hstep
  | other command regs =>
    dsimp only at hstep
    split_ifs at hstep with hhere
    exact h.other hhere hsafe hstep

/-- A started process. -/
lemma execSafe (h : ExecInv env x s) (hstarted : s.stage = .started q) : ExecSafe env x s q := by
  obtain ⟨-, hlive, -, -, hwritten, hpid, hlocals, -⟩ := h
  rw [hstarted] at hwritten hpid hlocals
  obtain rfl : q = x.selected := hlocals
  exact ⟨rfl, hlive, hpid, hwritten⟩

end ExecInv

/-! ### A call to which nothing happens -/

variable (env) in
/-- The image is stored while the kernel stays as it is. -/
lemma ExecCall.load_run (hs : s.stage = .load 0) (haway : s.away = none)
    (hmapped : ∀ st ∈ x.stores env, s.kernel.mapped env st.1 = true) {n : ℕ}
    (hn : n ≤ (x.stores env).length) :
    ∃ s', Run (Graph (x.step env)) s (List.replicate n .inner) s' ∧ s'.stage = .load n ∧
      s'.away = none ∧ s'.kernel = s.kernel := by
  induction n with
  | zero => exact ⟨s, .refl s, hs, haway, rfl⟩
  | succ n ih =>
    obtain ⟨s₁, hrun, hstage, haway₁, hkernel⟩ := ih (Nat.le_of_succ_le hn)
    have hget : (x.stores env)[n]? = some ((x.stores env)[n]) := List.getElem?_eq_getElem hn
    have hmap : s₁.kernel.mapped env ((x.stores env)[n]).1 = true := by
      rw [hkernel]
      exact hmapped _ (List.getElem_mem hn)
    rw [List.replicate_succ']
    refine ⟨{ s₁ with
        written := s₁.written ++ [s₁.kernel.paging.pageDir (dirIndex ((x.stores env)[n]).1)]
        stage   := .load (n + 1) }, hrun.snoc ?_, rfl, haway₁, hkernel⟩
    simp only [Transition.Graph, ExecCall.step, haway₁, if_true, ExecCall.inner, hstage, hget, hmap]

/-- From the last byte on. -/
lemma ExecCall.start_run (hlen : x.prog.length env.img = (x.prog.load env.img).1)
    (hs : s.stage = .load (x.stores env).length) (haway : s.away = none)
    (hstart : s.kernel.startProcess x.prog.argument x.regs = .ok (q, k')) :
    ∃ s', Run (Graph (x.step env)) s (List.replicate 13 .inner) s' ∧ s'.stage = .started q ∧
      s'.kernel = k' := by
  obtain ⟨k, stage, away, live, written, usedPid⟩ := s
  obtain rfl := hs
  obtain rfl := haway
  unfold Kernel.startProcess at hstart
  split at hstart
  · cases hstart
  · next n hslot =>
    split at hstart
    · cases hstart
    · next k₁ hcreate =>
      split at hstart
      · cases hstart
      · next k₂ hsave =>
        cases hstart
        unfold Kernel.createPcb Except.map at hcreate
        dsimp only at hcreate
        split at hcreate
        · cases hcreate
        · next k₀ hparent =>
          cases hcreate
          have hloaded : x.step env ⟨k, .load (x.stores env).length, none, live, written, usedPid⟩
              .inner = some ⟨k, .newPcb, none, live, written, usedPid⟩ := by
            simp [ExecCall.step, ExecCall.inner, hlen]
          have hnewPcb : x.step env ⟨k, .newPcb, none, live, written, usedPid⟩ .inner =
              some ⟨k, .callCreate q, none, live, written, usedPid⟩ := by
            simp [ExecCall.step, ExecCall.inner, hslot]
          have hcreateParent : ∀ {k k' : Kernel} {pid : Option Word},
              k.createParentId q = .ok k' →
                x.step env ⟨k, .createParentId q, none, live, written, pid⟩ .inner =
                  some ⟨k', .createCountPcb q, none, live, written, pid⟩ := fun h => by
            simp [ExecCall.step, ExecCall.inner, h]
          have hsaveParent : ∀ {k k' : Kernel} {pid : Option Word},
              k.saveParent q x.regs = .ok k' →
                x.step env ⟨k, .saveParent q, none, live, written, pid⟩ .inner =
                  some ⟨k', .contextSwitch q, none, live, written, pid⟩ := fun h => by
            simp [ExecCall.step, ExecCall.inner, h]
          exact ⟨_, .cons hloaded <| .cons hnewPcb <| .cons rfl <| .cons rfl <| .cons rfl <|
            .cons rfl <| .cons rfl <| .cons rfl <| .cons (hcreateParent hparent) <| .cons rfl <|
            .cons rfl <| .cons (hsaveParent hsave) <| .cons rfl <| .refl _, rfl, rfl⟩

/-- The statements of a call, one after the other, do what `execute` does. -/
theorem execute_uninterrupted {command : Command} {s₀ : ExecState} {eip : Word}
    (hbegin : execBegin env command regs k = some (x, s₀))
    (hexec : k.execute env (some command.text) regs = .ok (.started q eip, k')) :
    ∃ n s, Run (Graph (x.step env)) s₀ (List.replicate n .inner) s ∧ s.stage = .started q ∧
      s.kernel = k' := by
  rcases Kernel.execute_cases env (some command.text) regs k with
    ⟨status, pid, heq, -⟩ | ⟨text, m, prog, htext, hslot, hprog, ⟨heq, -⟩ | ⟨hload, heq⟩⟩
  · rw [heq] at hexec
    cases hexec
  · rw [heq] at hexec
    cases hexec
  · cases htext
    simp only [execBegin, hslot, hprog] at hbegin
    cases hbegin
    rw [heq] at hexec
    unfold Except.map at hexec
    split at hexec
    · cases hexec
    · next r hstart =>
      cases hexec
      have hmapped : ∀ st ∈ env.img.stores (prog.load env.img).2,
          (k.forNew m).mapped env st.1 = true := List.all_eq_true.mp hload
      obtain ⟨s₁, hrun₁, hstage₁, haway₁, hkernel₁⟩ := ExecCall.load_run env
        (x := ⟨m, prog, regs⟩)
        (s := ⟨k.forNew m, .load 0, none, fun s => decide (k.pcbs s).Active, [], none⟩)
        rfl rfl hmapped le_rfl
      have hstart₁ : s₁.kernel.startProcess prog.argument regs = .ok r := by
        rw [hkernel₁]
        exact hstart
      obtain ⟨s₂, hrun₂, hstage₂, hkernel₂⟩ :=
        ExecCall.start_run (x := ⟨m, prog, regs⟩) (load_length hprog).symm hstage₁ haway₁ hstart₁
      refine ⟨1 + ((env.img.stores (prog.load env.img).2).length + 13), s₂, ?_, hstage₂, hkernel₂⟩
      rw [List.replicate_add, List.replicate_add]
      exact .cons rfl (hrun₁.append hrun₂)

/-! ### Runs -/

lemma execBegin_inv {command : Command} (h : execBegin env command regs k = some (x, s)) :
    checkExecutable env.img command.text = some x.prog ∧ ExecInv env x s := by
  unfold execBegin at h
  split at h
  · next n prog hslot hprog =>
    cases h
    refine ⟨hprog, ⟨fun _ => ⟨hslot, rfl⟩, by rintro ⟨⟩⟩, ?_, by simp, by simp, rfl, rfl, trivial,
      by simp⟩
    exact decide_eq_false (Kernel.determineWhichPcbEmpty_eq_some hslot)
  · cases h

lemma ExecCall.ok_of_fits {text : List Byte} (h : checkExecutable env.img text = some x.prog)
    (hfits : x.prog.Fits env.img) : x.Ok env where
  dir    := fun st hst => by
    obtain ⟨hlo, hhi⟩ := mem_stores_load h hfits hst
    exact Kernel.dirIndex_userPage hlo hhi
  length := (load_length h).symm

/-- A call of `execute` for a program that fits the user page, among ticks and other calls that do
no harm. -/
theorem execute_preempted {command : Command} {s₀ : ExecState} {moves : List ExecMove}
    (hbegin : execBegin env command regs k = some (x, s₀)) (hfits : x.prog.Fits env.img)
    (hrun : Run (Guarded (Graph (x.step env)) (x.Safe env)) s₀ moves s) (q : Slot)
    (hstarted : s.stage = .started q) : ExecSafe env x s q := by
  obtain ⟨hprog, hinv⟩ := execBegin_inv hbegin
  have hx := ExecCall.ok_of_fits hprog hfits
  have h := hrun.invariant (I := ExecInv env x)
    (fun _ _ _ h hstep => h.step hx hstep.2 hstep.1) hinv
  exact h.execSafe hstarted

/-- The third shell calls `execute("shell")` and is switched out when the image is loaded. -/
theorem execute_preempted_small : ∃ (x : ExecCall) (s : ExecState), s.kernel.scheduledTerminal = 2 ∧
    s.written.length = 40 ∧ s.stage = .started 3 ∧ ExecSafe smallKernel x s 3 := by
  have h := exists_boot smallKernel ⟨0#32, 0#32⟩
    [.tick ⟨0#32, 0#32⟩, .tick ⟨0#32, 0#32⟩] (fun s₀ =>
      (execBegin smallKernel shellCommand ⟨0#32, 0#32⟩ s₀.kernel).any fun r =>
        decide (r.1.prog.Fits smallImage) &&
          (runFrom (guardedStep (r.1.step smallKernel) fun s m => r.1.Safe smallKernel s m) r.2
            (List.replicate 41 .inner ++ List.replicate 3 (.tick ⟨0#32, 0#32⟩) ++
              List.replicate 13 .inner)).any fun s =>
                s.kernel.scheduledTerminal = 2 ∧ s.written.length = 40 ∧ s.stage = .started 3)
    (by decide +kernel)
  obtain ⟨s₀, -, h⟩ := h
  obtain ⟨⟨x, e₀⟩, hbegin, h⟩ := (Option.any_eq_true _ _).mp h
  rw [Bool.and_eq_true, decide_eq_true_eq] at h
  obtain ⟨s, hrun, hs⟩ := exists_run_of_any h.2
  rw [decide_eq_true_eq] at hs
  obtain ⟨hsched, hlength, hstarted⟩ := hs
  exact ⟨x, s, hsched, hlength, hstarted, execute_preempted hbegin h.1
    (guarded_graph (fun _ _ hp => of_decide_eq_true hp) hrun) 3 hstarted⟩

/-- The third shell calls `execute("shell")` and is switched out when one byte of the image is
stored. Meanwhile the first shell executes `shell` as well, in the same slot, and when the call
goes on the user page is that of the third shell. -/
theorem execute_preempted_shared : ∃ s₀ x e₀ moves e, BootState smallKernel s₀ ∧
    execBegin smallKernel shellCommand ⟨0#32, 0#32⟩ s₀.kernel = some (x, e₀) ∧
    x.prog.Fits smallImage ∧ Run (Graph (x.step smallKernel)) e₀ moves e ∧
    e.stage = .started 3 ∧ e.live 3 = true ∧ e.written.getLast? = some (userPde 2#32) ∧
    ¬ ExecSafe smallKernel x e 3 := by
  have h := exists_boot smallKernel ⟨0#32, 0#32⟩
    [.tick ⟨0#32, 0#32⟩, .tick ⟨0#32, 0#32⟩] (fun s₀ =>
      (execBegin smallKernel shellCommand ⟨0#32, 0#32⟩ s₀.kernel).any fun r =>
        decide (r.1.prog.Fits smallImage) &&
          (runFrom (r.1.step smallKernel) r.2 (List.replicate 2 .inner ++
            [.tick ⟨0#32, 0#32⟩, .other (some shellCommand) ⟨0#32, 0#32⟩, .tick ⟨0#32, 0#32⟩,
              .tick ⟨0#32, 0#32⟩] ++ List.replicate 52 .inner)).any fun e =>
                e.stage = .started 3 ∧ e.live 3 = true ∧
                  e.written.getLast? = some (userPde 2#32))
    (by decide +kernel)
  obtain ⟨s₀, hboot, h⟩ := h
  obtain ⟨⟨x, e₀⟩, hbegin, h⟩ := (Option.any_eq_true _ _).mp h
  rw [Bool.and_eq_true, decide_eq_true_eq] at h
  obtain ⟨e, hrun, he⟩ := exists_run_of_any h.2
  rw [decide_eq_true_eq] at he
  obtain ⟨hstarted, hlive, hwritten⟩ := he
  refine ⟨s₀, x, e₀, _, e, hboot, hbegin, h.1, hrun, hstarted, hlive, hwritten, fun hsafe => ?_⟩
  rw [hsafe.alone] at hlive
  cases hlive

end

end Osgods
