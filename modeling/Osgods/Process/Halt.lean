import Osgods.Process.Execute

/-!
# `halt`

The halt of a process with a parent goes back to the parent's `execute`; that of a base shell
starts a new shell in its place.
-/

namespace Osgods

inductive HaltResult where
  | resumed (parent : Slot) (status : Word) (regs : Regs)
  | restarted (s : Slot) (eip : Word)
  deriving DecidableEq

/-- What the parent's `execute` returns: 256 stands for an exception. -/
def haltStatus (status : Byte) : Word :=
  if status = 15#8 then 256#32 else status.setWidth 32

/-- The loop of `halt` over the descriptors from 2 on, and the two assignments after it. -/
def closeFiles (t : FileTable) : FileTable :=
  let t := [2, 3, 4, 5, 6, 7].foldl
    (fun t (i : Fd) => if (t i).flag = 1#32 then (closeCall (BitVec.ofNat 32 i) t).2 else t) t
  let t := Function.update t 0 { t 0 with flag := 0#32 }
  Function.update t 1 { t 1 with flag := 0#32 }

namespace Kernel

/-! ### The assignments of `halt` -/

/-- `count_pcb` is unsigned. -/
def haltCount (k : Kernel) : Kernel :=
  k.updateTerminal k.scheduledTerminal fun t => { t with countPcb := t.countPcb - 1#32 }

def haltFiles (c : Slot) (k : Kernel) : Kernel :=
  k.updatePcb c fun p => { p with fileDescriptor := closeFiles p.fileDescriptor }

def haltInactive (c : Slot) (k : Kernel) : Kernel :=
  k.updatePcb c fun p => { p with active := 0#32 }

/-- The flag is cleared for the scheduled terminal and for the displayed one. -/
def haltVidmap (k : Kernel) : Kernel :=
  if k.scheduled.vidmap = 1#32 then
    (k.updateTerminal k.scheduledTerminal fun t => { t with vidmap := 0#32 }).updateTerminal
      k.currTerminalNum fun t => { t with vidmap := 0#32 }
  else k

def haltTss (p : Slot) (k : Kernel) : Kernel :=
  { k with tss := ⟨(k.pcbs p).esp0, kernelDs⟩ }

def haltCurr (p : Slot) (k : Kernel) : Kernel := { k with currPcb := some p }

/-! ### `halt` -/

/-- `halt` from its `cli` on. The parent's PCB is first read after the user page is set up; a parent
id of -1 leads to the unmapped address 8MB. -/
def haltToParent (status : Byte) (k : Kernel) : Except Kernel (HaltResult × Kernel) :=
  let k := k.cli
  match k.currPcb with
  | none   => .error k
  | some c =>
    let parentId := (k.pcbs c).parentId
    let k := ((k.haltFiles c).haltInactive c).setUpPaging parentId
    let k := k.haltVidmap
    match slotOf parentId with
    | none   => .error k
    | some p =>
      let regs := ⟨(k.pcbs p).savedEsp, (k.pcbs p).savedEbp⟩
      .ok (.resumed p (haltStatus status) regs, (k.haltTss p).haltCurr p)

def halt (env : Env) (status : Byte) (regs : Regs) (k : Kernel) :
    Except Kernel (HaltResult × Kernel) :=
  let k := k.haltCount
  match k.currPcb with
  | none   => .error k
  | some c =>
    if (k.pcbs c).parentId = noPid then
      match (k.haltInactive c).execute env (some shellCommand.text) regs with
      | .error k                   => .error k
      | .ok (.started s eip, k)    => .ok (.restarted s eip, k)
      | .ok (.returned _, k)       => k.haltToParent status
    else k.haltToParent status

/-! ### Outcomes -/

section

variable {env : Env} {k : Kernel} {c p : Slot} {status : Byte} {regs : Regs}

/-- The kernel when a process that is no longer counted has gone back to its parent. -/
def unwound (c p : Slot) (k : Kernel) : Kernel :=
  (((((k.cli.haltFiles c).haltInactive c).setUpPaging (slotWord p)).haltVidmap).haltTss p).haltCurr
    p

/-- The kernel after the halt of a process that has a parent. -/
def halted (c p : Slot) (k : Kernel) : Kernel := k.haltCount.unwound c p

@[simp] lemma haltVidmap_pcbs (k : Kernel) : k.haltVidmap.pcbs = k.pcbs := by
  unfold haltVidmap
  split <;> rfl

@[simp] lemma haltVidmap_scheduledTerminal (k : Kernel) :
    k.haltVidmap.scheduledTerminal = k.scheduledTerminal := by
  unfold haltVidmap
  split <;> rfl

@[simp] lemma haltVidmap_paging (k : Kernel) : k.haltVidmap.paging = k.paging := by
  unfold haltVidmap
  split <;> rfl

@[simp] lemma haltVidmap_pid (k : Kernel) : k.haltVidmap.pid = k.pid := by
  unfold haltVidmap
  split <;> rfl

/-- Only the video flags of the terminals are cleared. -/
lemma haltVidmap_terminalList (k : Kernel) (t : Tid) : ∃ v,
    k.haltVidmap.terminalList t = { k.terminalList t with vidmap := v } := by
  unfold haltVidmap
  split
  · by_cases hd : t = k.currTerminalNum
    · subst hd
      refine ⟨0#32, ?_⟩
      by_cases hs : k.currTerminalNum = k.scheduledTerminal
      · simp [hs]
      · simp [Function.update_of_ne hs]
    · by_cases hs : t = k.scheduledTerminal
      · subst hs
        exact ⟨0#32, by simp [Function.update_of_ne hd]⟩
      · exact ⟨(k.terminalList t).vidmap, by
          simp [Function.update_of_ne hd, Function.update_of_ne hs]⟩
  · exact ⟨(k.terminalList t).vidmap, rfl⟩

lemma unwound_scheduledTerminal (c p : Slot) (k : Kernel) :
    (k.unwound c p).scheduledTerminal = k.scheduledTerminal := by
  simp only [unwound, haltCurr, haltTss, haltVidmap_scheduledTerminal]
  rfl

lemma unwound_pid (c p : Slot) (k : Kernel) : (k.unwound c p).pid = k.pid := by
  simp only [unwound, haltCurr, haltTss, haltVidmap_pid]
  rfl

/-- Only the PCB of the process that halts is written to. -/
lemma unwound_pcbs_of_ne {s : Slot} (h : s ≠ c) (k : Kernel) :
    (k.unwound c p).pcbs s = k.pcbs s := by
  simp [unwound, haltCurr, haltTss, haltInactive, haltFiles, cli, Function.update_of_ne h]

/-- The halt of a process that has a parent. -/
lemma halt_child (hc : k.currPcb = some c) (hp : (k.pcbs c).parentId = slotWord p) :
    k.halt env status regs = .ok (.resumed p (haltStatus status)
      ⟨((k.halted c p).pcbs p).savedEsp, ((k.halted c p).pcbs p).savedEbp⟩, k.halted c p) := by
  have hcurr : k.haltCount.currPcb = some c := hc
  have hparent : (k.haltCount.pcbs c).parentId = slotWord p := hp
  have hcurr' : k.haltCount.cli.currPcb = some c := hc
  have hparent' : (k.haltCount.cli.pcbs c).parentId = slotWord p := hp
  have hne : ¬ (k.haltCount.pcbs c).parentId = noPid := by
    rw [hparent]
    exact slotWord_ne_noPid p
  simp only [halt, hcurr, if_neg hne, haltToParent, hcurr', hparent', slotOf_slotWord]
  rfl

/-- The halt of a base shell. -/
lemma halt_base (hc : k.currPcb = some c) (hp : (k.pcbs c).parentId = noPid) :
    k.halt env status regs =
      match (k.haltCount.haltInactive c).execute env (some shellCommand.text) regs with
      | .error k                => .error k
      | .ok (.started s eip, k) => .ok (.restarted s eip, k)
      | .ok (.returned _, k)    => k.haltToParent status := by
  have hcurr : k.haltCount.currPcb = some c := hc
  have hparent : (k.haltCount.pcbs c).parentId = noPid := hp
  simp only [halt, hcurr, if_pos hparent]

/-- The successor of a base shell gets the first free PCB. -/
lemma halt_restarted {k' : Kernel} {n : Slot} {eip : Word} (hc : k.currPcb = some c)
    (h : k.halt env status regs = .ok (.restarted n eip, k')) :
    (k.haltCount.haltInactive c).determineWhichPcbEmpty = some n := by
  have hnot : ∀ {k₁ : Kernel}, k₁.haltToParent status ≠ .ok (.restarted n eip, k') := by
    intro k₁ heq
    unfold haltToParent at heq
    dsimp only at heq
    split at heq
    · cases heq
    · split at heq <;> cases heq
  have hcurr : k.haltCount.currPcb = some c := hc
  simp only [halt, hcurr] at h
  split_ifs at h
  · split at h
    · cases h
    · next heq =>
      cases h
      exact (execute_started heq).2.1
    · exact absurd h hnot
  · exact absurd h hnot

end

end Kernel

end Osgods
