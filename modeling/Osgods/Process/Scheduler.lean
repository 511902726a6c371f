import Osgods.Process.Execute

/-!
# `memory_switch` and `scheduler`

A PIT tick maps the video memory of the next terminal and then switches to it: to the process that
was running there, or, the first time, to a new shell.
-/

namespace Osgods

inductive TickResult where
  | returned
  | resumed (s : Slot) (regs : Regs)
  | launched (s : Slot) (eip : Word)
  deriving DecidableEq

namespace Kernel

/-! ### `memory_switch` -/

/-- The cursor is that of `terminal_list[next_tid]`, the rest is that of `*next_terminal`. -/
def updateVideo (t : Terminal) (target : Word) (k : Kernel) : Kernel :=
  { k with
    screenX  := (k.terminalList t.tid).xCursor
    screenY  := (k.terminalList t.tid).yCursor
    videoMem := target
    paging   := k.paging.setVidMap target t.vidmap }

def memorySwitch (k : Kernel) : Kernel :=
  match k.scheduled.nextTerminal with
  | none      => k
  | some next =>
    let t := k.terminalList next
    if t.tid ≠ k.currTerminalNum then k.updateVideo t t.videoPage
    else k.updateVideo t videoMemoryAddr

/-! ### The assignments of `scheduler` -/

def storePcbPtr (k : Kernel) : Kernel :=
  k.updateTerminal k.scheduledTerminal fun t => { t with pcbPtr := k.currPcb }

/-- The context of the process that is switched out. -/
def storeContext (c : Slot) (regs : Regs) (k : Kernel) : Kernel :=
  k.updatePcb c fun p =>
    { p with savedEsp := regs.esp, savedEbp := regs.ebp, tssEsp0 := k.tss.esp0 }

/-- Nothing is stored before the first `execute`; a null `curr_pcb` faults. -/
def saveContext (regs : Regs) (k : Kernel) : Except Kernel Kernel :=
  if k.pid = noPid then .ok k
  else
    match k.currPcb with
    | none   => .error k
    | some c => .ok (k.storeContext c regs)

def setScheduled (next : Tid) (k : Kernel) : Kernel :=
  let k := { k with scheduledTerminal := next }
  let k := { k with scheduledTerminalNum := k.scheduled.tid }
  if k.scheduled.pcbPtr ≠ none then { k with currPcb := k.scheduled.pcbPtr } else k

def setCurr (q : Slot) (k : Kernel) : Kernel := { k with currPcb := some q }

def restoreTss (q : Slot) (k : Kernel) : Kernel :=
  { k with tss := ⟨(k.pcbs q).tssEsp0, kernelDs⟩ }

/-! ### `scheduler` -/

def scheduler (env : Env) (regs : Regs) (k : Kernel) : Except Kernel (TickResult × Kernel) :=
  match k.storePcbPtr.saveContext regs with
  | .error k => .error k
  | .ok k    =>
    match k.scheduled.nextTerminal with
    | none      => .ok (.returned, k)
    | some next =>
      let k := k.setScheduled next
      if k.scheduled.countPcb = 0#32 then
        match k.execute env (some shellCommand.text) regs with
        | .error k                => .error k
        | .ok (.started s eip, k) => .ok (.launched s eip, k)
        | .ok (.returned _, k)    => .ok (.returned, k)
      else
        match k.scheduled.pcbPtr with
        | none   => .error k
        | some q =>
          let k := (k.setUpPaging (k.pcbs q).pid).setCurr q
          .ok (.resumed q ⟨(k.pcbs q).savedEsp, (k.pcbs q).savedEbp⟩, k.restoreTss q)

/-- `pit_intr_handler`, entered through an interrupt gate. -/
def pitIntrHandler (env : Env) (regs : Regs) (k : Kernel) : Except Kernel (TickResult × Kernel) :=
  k.cli.memorySwitch.scheduler env regs

/-! ### Outcomes -/

section

variable {env : Env} {k k' : Kernel} {c q : Slot} {next : Tid} {regs : Regs}

/-- `memory_switch` leaves processes, terminals and the page directory alone. -/
lemma memorySwitch_eq (k : Kernel) : ∃ x y v p,
    k.memorySwitch = { k with screenX := x, screenY := y, videoMem := v, paging := p } ∧
      p.pageDir = k.paging.pageDir := by
  unfold memorySwitch
  split
  · exact ⟨k.screenX, k.screenY, k.videoMem, k.paging, rfl, rfl⟩
  · dsimp only
    split
    · exact ⟨_, _, _, _, rfl, rfl⟩
    · exact ⟨_, _, _, _, rfl, rfl⟩

lemma memorySwitch_pcbs (k : Kernel) : k.memorySwitch.pcbs = k.pcbs := by
  obtain ⟨x, y, v, p, heq, -⟩ := memorySwitch_eq k
  rw [heq]

lemma setScheduled_pcbs (next : Tid) (k : Kernel) : (k.setScheduled next).pcbs = k.pcbs := by
  rw [setScheduled]
  dsimp only
  split <;> rfl

/-! Which PCBs are active and what the global `pid` is, whatever the state of the kernel. -/

/-- What a tick that has called `execute` comes to. -/
def tickResult : ExecuteResult → TickResult
  | .returned _    => .returned
  | .started s eip => .launched s eip

/-- Two kernels with the same active PCBs, `pid`, counters and order of terminals. -/
def Agrees (k k' : Kernel) : Prop :=
  (∀ s, (k'.pcbs s).active = (k.pcbs s).active) ∧ k'.pid = k.pid ∧
    k'.scheduledTerminal = k.scheduledTerminal ∧
    ∀ t, (k'.terminalList t).countPcb = (k.terminalList t).countPcb ∧
      (k'.terminalList t).nextTerminal = (k.terminalList t).nextTerminal

lemma memorySwitch_storePcbPtr_agrees (k : Kernel) : k.Agrees k.cli.memorySwitch.storePcbPtr := by
  obtain ⟨x, y, v, p, heq, -⟩ := memorySwitch_eq k.cli
  rw [heq]
  refine ⟨fun s => rfl, rfl, rfl, fun t => ?_⟩
  by_cases ht : t = k.scheduledTerminal
  · subst ht
    simp [storePcbPtr, cli]
  · simp [storePcbPtr, cli, Function.update_of_ne ht]

lemma saveContext_agrees {k₁ : Kernel} (hk : k.Agrees k₁) (h : k₁.saveContext regs = .ok k') :
    k.Agrees k' := by
  unfold saveContext at h
  split at h
  · cases h
    exact hk
  · split at h
    · cases h
    · cases h
      obtain ⟨hactive, hpid, hsched, hterm⟩ := hk
      exact ⟨fun s => (updatePcb_active rfl).trans (hactive s), hpid, hsched, hterm⟩

/-- A tick goes on to a terminal that has processes, or calls `execute` for one that has none. -/
lemma pit_active {r : TickResult} (h : k.pitIntrHandler env regs = .ok (r, k')) :
    (∀ s, (k'.pcbs s).active = (k.pcbs s).active) ∧ k'.pid = k.pid ∧
        (∀ s eip, r ≠ .launched s eip) ∨
      ∃ (k₁ : Kernel) (result : ExecuteResult) (next : Tid),
        (∀ s, (k₁.pcbs s).active = (k.pcbs s).active) ∧ k₁.pid = k.pid ∧
        k.scheduled.nextTerminal = some next ∧
        (k.terminalList next).countPcb = 0#32 ∧
        k₁.execute env (some shellCommand.text) regs = .ok (result, k') ∧
        r = tickResult result := by
  have hstored := memorySwitch_storePcbPtr_agrees k
  unfold pitIntrHandler scheduler at h
  split at h
  · cases h
  · next k₁ hsave =>
    obtain ⟨hactive, hpid, hsched, hterm⟩ := saveContext_agrees hstored hsave
    have hnext : k₁.scheduled.nextTerminal = k.scheduled.nextTerminal := by
      rw [scheduled, hsched]
      exact (hterm _).2
    split at h
    · cases h
      exact Or.inl ⟨hactive, hpid, by simp⟩
    · next next hn =>
      have hpid' : (k₁.setScheduled next).pid = k₁.pid := by
        unfold setScheduled
        dsimp only
        split <;> rfl
      have hcount : (k₁.setScheduled next).scheduled.countPcb = (k.terminalList next).countPcb := by
        rw [← (hterm next).1]
        unfold setScheduled
        dsimp only
        split <;> rfl
      have hactive' : ∀ s, ((k₁.setScheduled next).pcbs s).active = (k.pcbs s).active := by
        intro s
        rw [setScheduled_pcbs]
        exact hactive s
      dsimp only at h
      split at h
      · next hzero =>
        refine Or.inr ?_
        split at h
        · cases h
        · next s eip k₂ hexec =>
          cases h
          exact ⟨_, _, next, hactive', hpid'.trans hpid, hnext.symm.trans hn,
            hcount.symm.trans hzero, hexec, rfl⟩
        · next status k₂ hexec =>
          cases h
          exact ⟨_, _, next, hactive', hpid'.trans hpid, hnext.symm.trans hn,
            hcount.symm.trans hzero, hexec, rfl⟩
      · split at h
        · cases h
        · cases h
          exact Or.inl ⟨hactive', hpid'.trans hpid, by simp⟩

/-- The kernel once a tick has switched a process out. -/
def switchedOut (c : Slot) (next : Tid) (regs : Regs) (k : Kernel) : Kernel :=
  (k.cli.memorySwitch.storePcbPtr.storeContext c regs).setScheduled next

/-- The kernel once a tick has gone on to a process that was waiting. -/
def resumed (c q : Slot) (next : Tid) (regs : Regs) (k : Kernel) : Kernel :=
  (((k.switchedOut c next regs).setUpPaging (slotWord q)).setCurr q).restoreTss q

/-- What that bookkeeping changes. -/
lemma switchedOut_spec (c : Slot) (next : Tid) (regs : Regs) (k : Kernel) :
    (k.switchedOut c next regs).pcbs = Function.update k.pcbs c
      { k.pcbs c with savedEsp := regs.esp, savedEbp := regs.ebp, tssEsp0 := k.tss.esp0 } ∧
    (k.switchedOut c next regs).terminalList = Function.update k.terminalList k.scheduledTerminal
      { k.scheduled with pcbPtr := k.currPcb } ∧
    (k.switchedOut c next regs).scheduledTerminal = next ∧
    (k.switchedOut c next regs).pid = k.pid ∧
    (k.switchedOut c next regs).paging.pageDir = k.paging.pageDir := by
  obtain ⟨x, y, v, p, heq, hdir⟩ := memorySwitch_eq k.cli
  unfold switchedOut setScheduled
  rw [heq]
  dsimp only
  split <;> exact ⟨rfl, rfl, rfl, rfl, hdir⟩

lemma resumed_scheduledTerminal (c q : Slot) (next : Tid) (regs : Regs) (k : Kernel) :
    (k.resumed c q next regs).scheduledTerminal = next := by
  simp only [resumed, restoreTss, setCurr, setUpPaging_scheduledTerminal,
    (switchedOut_spec c next regs k).2.2.1]

lemma resumed_pcbs (c q : Slot) (next : Tid) (regs : Regs) (k : Kernel) :
    (k.resumed c q next regs).pcbs = (k.switchedOut c next regs).pcbs := by
  simp only [resumed, restoreTss, setCurr, setUpPaging_pcbs]

lemma switchedOut_active (s : Slot) :
    ((k.switchedOut c next regs).pcbs s).active = (k.pcbs s).active := by
  rw [(switchedOut_spec c next regs k).1]
  by_cases hs : s = c
  · subst hs
    rw [Function.update_self]
  · rw [Function.update_of_ne hs]

lemma switchedOut_determineWhichPcbEmpty :
    (k.switchedOut c next regs).determineWhichPcbEmpty = k.determineWhichPcbEmpty := by
  simp only [determineWhichPcbEmpty, switchedOut_active]

lemma saveContext_eq (hpid : k.pid ≠ noPid) (hc : k.currPcb = some c) :
    k.storePcbPtr.saveContext regs = .ok (k.storePcbPtr.storeContext c regs) := by
  have hpid' : k.storePcbPtr.pid ≠ noPid := hpid
  have hc' : k.storePcbPtr.currPcb = some c := hc
  rw [saveContext, if_neg hpid', hc']

lemma scheduled_nextTerminal_stored :
    (k.storePcbPtr.storeContext c regs).scheduled.nextTerminal = k.scheduled.nextTerminal := by
  simp [storePcbPtr, storeContext, scheduled]

lemma pit_eq (hpid : k.pid ≠ noPid) (hc : k.currPcb = some c)
    (hnext : k.scheduled.nextTerminal = some next) :
    k.pitIntrHandler env regs =
      if (k.switchedOut c next regs).scheduled.countPcb = 0#32 then
        match (k.switchedOut c next regs).execute env (some shellCommand.text) regs with
        | .error k                => .error k
        | .ok (.started s eip, k) => .ok (.launched s eip, k)
        | .ok (.returned _, k)    => .ok (.returned, k)
      else
        match (k.switchedOut c next regs).scheduled.pcbPtr with
        | none   => .error (k.switchedOut c next regs)
        | some q =>
          let k := ((k.switchedOut c next regs).setUpPaging
            ((k.switchedOut c next regs).pcbs q).pid).setCurr q
          .ok (.resumed q ⟨(k.pcbs q).savedEsp, (k.pcbs q).savedEbp⟩, k.restoreTss q) := by
  obtain ⟨x, y, v, p, heq, -⟩ := memorySwitch_eq k.cli
  have hpid' : k.cli.memorySwitch.pid ≠ noPid := by
    rw [heq]
    exact hpid
  have hc' : k.cli.memorySwitch.currPcb = some c := by
    rw [heq]
    exact hc
  have hnext' : k.cli.memorySwitch.scheduled.nextTerminal = some next := by
    rw [heq]
    exact hnext
  simp only [pitIntrHandler, scheduler, saveContext_eq hpid' hc', scheduled_nextTerminal_stored,
    hnext', switchedOut]
  rfl

end

end Kernel

end Osgods
