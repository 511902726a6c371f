import Osgods.Process.Chain

/-!
# Where the processes are

`Placed` is what the kernel's data say about the processes of the terminals at any moment, `Current`
adds that `curr_pcb` is the top of the scheduled chain, and `Mapped` that the user page is that of
this process. All three allow for processes that a `halt` under way no longer counts.
-/

namespace Osgods

open Transition

structure Placed (chain : Tid → List Slot) (debt : Tid → ℕ) (k : Kernel) : Prop where
  chains  : Chains chain debt k
  owed    : ∀ t, chain t ≠ [] → debt t < (chain t).length
  waiting : ∀ t, t ≠ k.scheduledTerminal → (k.terminalList t).pcbPtr = (chain t).head?
  pid     : k.pid ≠ noPid

structure Current (chain : Tid → List Slot) (debt : Tid → ℕ) (k : Kernel) (c : Slot) : Prop
    extends Placed chain debt k where
  curr : k.currPcb = some c
  top  : (chain k.scheduledTerminal).head? = some c

structure Mapped (chain : Tid → List Slot) (debt : Tid → ℕ) (k : Kernel) (c : Slot) : Prop
    extends Current chain debt k c where
  userPage : k.paging.pageDir 32#10 = userPde (k.pcbs c).pid

section

variable {env : Env} {chain : Tid → List Slot} {debt : Tid → ℕ} {k k' : Kernel} {c n p q : Slot}
  {regs : Regs} {argument : List Byte} {rest : List Slot} {status : Byte}
  {command : Option (List Byte)}

/-! ### Data that the placement does not read -/

/-- Two PCBs of the same process, up to its registers, stacks and descriptors. -/
def Pcb.Like (p q : Pcb) : Prop :=
  q.pid = p.pid ∧ q.parentId = p.parentId ∧ q.active = p.active ∧ q.tid = p.tid

/-- Two records of the same terminal, up to its video flag. -/
def Terminal.Like (a b : Terminal) : Prop :=
  b.countPcb = a.countPcb ∧ b.tid = a.tid ∧ b.nextTerminal = a.nextTerminal ∧ b.pcbPtr = a.pcbPtr

lemma Pcb.Like.refl (p : Pcb) : p.Like p := ⟨rfl, rfl, rfl, rfl⟩

lemma Terminal.Like.refl (a : Terminal) : a.Like a := ⟨rfl, rfl, rfl, rfl⟩

/-- An update of a PCB that leaves its process alone. -/
lemma like_updatePcb {f : Pcb → Pcb} (k : Kernel) (hf : (k.pcbs c).Like (f (k.pcbs c))) (s : Slot) :
    (k.pcbs s).Like ((k.updatePcb c f).pcbs s) := by
  by_cases hs : s = c
  · subst hs
    simpa using hf
  · simp [Pcb.Like, Function.update_of_ne hs]

lemma Placed.congr (h : Placed chain debt k) (hpcb : ∀ s, (k.pcbs s).Like (k'.pcbs s))
    (hterm : ∀ t, (k.terminalList t).Like (k'.terminalList t))
    (hs : k'.scheduledTerminal = k.scheduledTerminal) (hpid : k'.pid ≠ noPid) :
    Placed chain debt k' where
  chains  := h.chains.congr hpcb fun t => ⟨(hterm t).1, (hterm t).2.1, (hterm t).2.2.1⟩
  owed    := h.owed
  waiting := fun t ht => by
    rw [(hterm t).2.2.2]
    exact h.waiting t (hs ▸ ht)
  pid     := hpid

lemma Mapped.congr (h : Mapped chain debt k c) (hpcb : ∀ s, (k.pcbs s).Like (k'.pcbs s))
    (hterm : ∀ t, (k.terminalList t).Like (k'.terminalList t))
    (hs : k'.scheduledTerminal = k.scheduledTerminal) (hpid : k'.pid ≠ noPid)
    (hcurr : k'.currPcb = k.currPcb) (hdir : k'.paging.pageDir = k.paging.pageDir) :
    Mapped chain debt k' c where
  toPlaced := h.toPlaced.congr hpcb hterm hs hpid
  curr     := hcurr.trans h.curr
  top      := by
    rw [hs]
    exact h.top
  userPage := by
    rw [hdir, (hpcb c).1]
    exact h.userPage

lemma Placed.count_eq_zero (h : Placed chain debt k) (t : Tid) :
    (k.terminalList t).countPcb = 0#32 ↔ chain t = [] := by
  have hcount := h.chains.count t
  constructor
  · intro hzero
    by_contra hne
    have howed := h.owed t hne
    rw [hzero, BitVec.toNat_ofNat] at hcount
    omega
  · intro hnil
    rw [hnil, List.length_nil] at hcount
    apply BitVec.eq_of_toNat_eq
    rw [BitVec.toNat_ofNat]
    omega

/-! ### Facts about the current process -/

namespace Current

lemma chain_eq (h : Current chain debt k c) : ∃ rest, chain k.scheduledTerminal = c :: rest := by
  cases hchain : chain k.scheduledTerminal with
  | nil =>
    have htop := h.top
    rw [hchain] at htop
    cases htop
  | cons a l =>
    have htop := h.top
    rw [hchain, List.head?_cons] at htop
    exact ⟨l, by rw [Option.some.inj htop]⟩

lemma mem (h : Current chain debt k c) : c ∈ chain k.scheduledTerminal := by
  obtain ⟨rest, hchain⟩ := h.chain_eq
  rw [hchain]
  exact List.mem_cons_self

lemma active (h : Current chain debt k c) : (k.pcbs c).Active := h.chains.active h.mem

lemma pid_eq (h : Current chain debt k c) : (k.pcbs c).pid = slotWord c :=
  h.chains.pid c h.active

lemma count_ne_zero (h : Current chain debt k c) : k.scheduled.countPcb ≠ 0#32 := by
  intro hzero
  have hnil := (h.count_eq_zero k.scheduledTerminal).mp hzero
  have hmem := h.mem
  rw [hnil] at hmem
  cases hmem

/-- The current process is nobody's parent. -/
lemma ne_of_parent (h : Current chain debt k c) {s : Slot} (hs : (k.pcbs s).Active)
    (hp : (k.pcbs s).parentId = slotWord p) : p ≠ c := by
  rintro rfl
  have htail := h.chains.parent_mem_tail (h.chains.mem_tid hs) hp
  have htid := h.chains.eq_of_mem (List.mem_of_mem_tail htail) h.mem
  obtain ⟨rest, hchain⟩ := h.chain_eq
  have hnodup := h.chains.nodup k.scheduledTerminal
  rw [htid, hchain, List.tail_cons] at htail
  rw [hchain, List.nodup_cons] at hnodup
  exact hnodup.1 htail

/-- Nor does it wait on another terminal. -/
lemma ne_of_head (h : Current chain debt k c) {t : Tid} (ht : t ≠ k.scheduledTerminal)
    (hq : (chain t).head? = some q) : q ≠ c := by
  rintro rfl
  exact ht (h.chains.eq_of_mem (List.mem_of_mem_head? hq) h.mem)

end Current

/-! ### Starting a process -/

/-- A process is started on the scheduled terminal. -/
lemma Placed.started (h : Placed chain debt k) (hn : ¬ (k.pcbs n).Active)
    (hpid : k.pid = slotWord n) (hpage : k.paging.pageDir 32#10 = userPde (slotWord n))
    (argument : List Byte) :
    Mapped (Function.update chain k.scheduledTerminal (n :: chain k.scheduledTerminal)) debt
      (k.started n (pidOf (chain k.scheduledTerminal).head?) argument) n where
  chains   := h.chains.started hn hpid argument
  owed     := fun t ht => by
    by_cases hts : t = k.scheduledTerminal
    · subst hts
      have hcount := h.chains.count k.scheduledTerminal
      rw [Function.update_self, List.length_cons]
      omega
    · rw [Function.update_of_ne hts] at ht ⊢
      exact h.owed t ht
  waiting  := fun t ht => by
    have ht' : t ≠ k.scheduledTerminal := ht
    simpa [Kernel.started, Function.update_of_ne ht'] using h.waiting t ht'
  pid      := h.pid
  curr     := rfl
  top      := by simp [Kernel.started]
  userPage := by simp [Kernel.started, Kernel.newPcb, hpid, hpage]

lemma Placed.forNew (h : Placed chain debt k) (n : Slot) : Placed chain debt (k.forNew n) :=
  h.congr (fun _ => .refl _) (fun _ => .refl _) rfl (slotWord_ne_noPid n)

lemma Current.forNew (h : Current chain debt k c) (n : Slot) : Current chain debt (k.forNew n) c :=
  ⟨h.toPlaced.forNew n, h.curr, h.top⟩

/-- The child of the current process, once it is started. -/
lemma Current.child (h : Current chain debt k c) (hn : ¬ (k.pcbs n).Active) (argument : List Byte)
    (regs : Regs) :
    Mapped (Function.update chain k.scheduledTerminal (n :: chain k.scheduledTerminal)) debt
      (k.child c n argument regs) n := by
  have hstarted := (h.toPlaced.forNew n).started hn rfl
    (show (k.forNew n).paging.pageDir 32#10 = userPde (slotWord n) by simp [Kernel.forNew])
    argument
  have hhead : pidOf (chain (k.forNew n).scheduledTerminal).head? = slotWord c := by
    rw [show (k.forNew n).scheduledTerminal = k.scheduledTerminal from rfl, h.top]
    rfl
  rw [hhead] at hstarted
  exact hstarted.congr (like_updatePcb _ ⟨rfl, rfl, rfl, rfl⟩) (fun _ => .refl _) rfl hstarted.pid
    rfl rfl

/-- `execute` by the current process: it returns, faults, or starts a child. -/
lemma Current.execute_cases (h : Current chain debt k c) (env : Env)
    (command : Option (List Byte)) (regs : Regs) :
    (∃ status pid, k.execute env command regs =
        .ok (.returned status, { k.cli with pid := pid }) ∧ pid ≠ noPid) ∨
      (∃ n, ¬ (k.pcbs n).Active ∧ k.execute env command regs = .error (k.forNew n)) ∨
      ∃ n argument eip, ¬ (k.pcbs n).Active ∧ k.execute env command regs =
        .ok (.started n eip, k.child c n argument regs) := by
  rcases Kernel.execute_cases env command regs k with
    ⟨status, pid, heq, hpid⟩ | ⟨text, n, prog, -, hslot, -, ⟨heq, -⟩ | ⟨-, heq⟩⟩
  · refine Or.inl ⟨status, pid, heq, ?_⟩
    rcases hpid with rfl | ⟨-, rfl⟩ | ⟨s, -, rfl⟩
    · exact h.pid
    · decide
    · exact slotWord_ne_noPid s
  · exact Or.inr (Or.inl ⟨n, Kernel.determineWhichPcbEmpty_eq_some hslot, heq⟩)
  · have hn := Kernel.determineWhichPcbEmpty_eq_some hslot
    have hne : c ≠ n := by
      rintro rfl
      exact hn h.active
    have hstart := Kernel.startProcess_child prog.argument regs
      (show (k.forNew n).pid = slotWord n from rfl)
      (show (k.forNew n).scheduled.countPcb ≠ 0#32 from h.count_ne_zero)
      (show (k.forNew n).currPcb = some c from h.curr)
      (show ((k.forNew n).pcbs c).pid = slotWord c from h.pid_eq) hne
    rw [hstart] at heq
    exact Or.inr (Or.inr ⟨n, prog.argument, prog.targetEip, hn, heq⟩)

variable (regs) in
/-- A base shell is started on a terminal that has none. -/
lemma execute_shell (hshell : HasShell env.img) (hcount : k.scheduled.countPcb = 0#32)
    (hslot : k.determineWhichPcbEmpty = some n) :
    ∃ argument eip, k.execute env (some shellCommand.text) regs =
      .ok (.started n eip, k.base n argument) := by
  obtain ⟨prog, hprog, hfits⟩ := hshell
  refine ⟨prog.argument, prog.targetEip, ?_⟩
  rw [Kernel.execute_of_canLoad hslot hprog (Kernel.canLoad_of_fits hprog hfits),
    Kernel.startProcess_base prog.argument regs (show (k.forNew n).pid = slotWord n from rfl)
      (show (k.forNew n).scheduled.countPcb = 0#32 from hcount)]
  rfl

lemma Placed.base (h : Placed chain debt k) (hn : ¬ (k.pcbs n).Active)
    (hnil : chain k.scheduledTerminal = []) (argument : List Byte) :
    Mapped (Function.update chain k.scheduledTerminal [n]) debt (k.base n argument) n := by
  have hstarted := (h.forNew n).started hn rfl
    (show (k.forNew n).paging.pageDir 32#10 = userPde (slotWord n) by simp [Kernel.forNew])
    argument
  rw [show (k.forNew n).scheduledTerminal = k.scheduledTerminal from rfl, hnil] at hstarted
  exact hstarted

/-! ### Halting -/

/-- The base shell of the scheduled terminal is taken off its chain, or any other top process. -/
lemma Current.drop (h : Current chain debt k c) (hchain : chain k.scheduledTerminal = c :: rest)
    (hdebt : debt k.scheduledTerminal = 0) :
    Placed (Function.update chain k.scheduledTerminal rest) debt
      (k.haltCount.haltInactive c) where
  chains  := by
    have hcount := h.chains.haltCount (by rw [hchain, hdebt]; exact Nat.succ_pos _)
    have hdrop := hcount.haltInactive hchain (Function.update_self _ _ _)
    rwa [Function.update_idem, Function.update_eq_self] at hdrop
  owed    := fun t ht => by
    by_cases hts : t = k.scheduledTerminal
    · subst hts
      rw [hdebt]
      exact List.length_pos_of_ne_nil ht
    · rw [Function.update_of_ne hts] at ht ⊢
      exact h.owed t ht
  waiting := fun t ht => by
    have ht' : t ≠ k.scheduledTerminal := ht
    simpa [Kernel.haltInactive, Kernel.haltCount, Function.update_of_ne ht'] using h.waiting t ht'
  pid     := h.pid

/-- A process that has a parent is no longer counted. -/
lemma Current.haltCount (h : Current chain debt k c)
    (hchain : chain k.scheduledTerminal = c :: p :: rest) (hdebt : debt k.scheduledTerminal = 0) :
    Current chain (Function.update debt k.scheduledTerminal 1) k.haltCount c where
  chains  := by
    have hcount := h.chains.haltCount (by rw [hchain, hdebt]; exact Nat.succ_pos _)
    rwa [hdebt] at hcount
  owed    := fun t ht => by
    by_cases hts : t = k.scheduledTerminal
    · subst hts
      rw [Function.update_self, hchain]
      simp
    · rw [Function.update_of_ne hts]
      exact h.owed t ht
  waiting := fun t ht => by
    have ht' : t ≠ k.scheduledTerminal := ht
    simpa [Kernel.haltCount, Function.update_of_ne ht'] using h.waiting t ht'
  pid     := h.pid
  curr    := h.curr
  top     := h.top

/-- The PCBs after a process has gone back to its parent. -/
lemma unwound_like (c p s : Slot) (k : Kernel) :
    ((k.haltInactive c).pcbs s).Like ((k.unwound c p).pcbs s) := by
  by_cases hs : s = c
  · subst hs
    simp [Kernel.unwound, Kernel.haltCurr, Kernel.haltTss, Kernel.haltInactive, Kernel.haltFiles,
      Kernel.cli, Pcb.Like]
  · rw [Kernel.unwound_pcbs_of_ne hs, Kernel.haltInactive, Kernel.updatePcb_pcbs,
      Function.update_of_ne hs]
    exact .refl _

lemma unwound_terminal_like (c p : Slot) (t : Tid) (k : Kernel) :
    ((k.haltInactive c).terminalList t).Like ((k.unwound c p).terminalList t) := by
  obtain ⟨v, hv⟩ := Kernel.haltVidmap_terminalList
    (((k.cli.haltFiles c).haltInactive c).setUpPaging (slotWord p)) t
  have hterm : (k.unwound c p).terminalList t =
      { (k.haltInactive c).terminalList t with vidmap := v } := hv
  rw [hterm]
  exact ⟨rfl, rfl, rfl, rfl⟩

/-- A process that is no longer counted goes back to its parent. -/
lemma Current.unwound (h : Current chain debt k c)
    (hchain : chain k.scheduledTerminal = c :: p :: rest) (hdebt : debt k.scheduledTerminal = 1) :
    Mapped (Function.update chain k.scheduledTerminal (p :: rest))
      (Function.update debt k.scheduledTerminal 0) (k.unwound c p) p := by
  have hsched := Kernel.unwound_scheduledTerminal c p k
  have hdropped : Placed (Function.update chain k.scheduledTerminal (p :: rest))
      (Function.update debt k.scheduledTerminal 0) (k.haltInactive c) := by
    refine ⟨h.chains.haltInactive hchain hdebt, fun t ht => ?_, fun t ht => ?_, h.pid⟩
    · by_cases hts : t = k.scheduledTerminal
      · subst hts
        simp
      · rw [Function.update_of_ne hts] at ht ⊢
        rw [Function.update_of_ne hts]
        exact h.owed t ht
    · have ht' : t ≠ k.scheduledTerminal := ht
      rw [Function.update_of_ne ht']
      exact h.waiting t ht'
  have hplaced := hdropped.congr (fun s => unwound_like c p s k)
    (fun t => unwound_terminal_like c p t k) hsched
    (by rw [Kernel.unwound_pid]; exact h.pid)
  have hcurrent : Current (Function.update chain k.scheduledTerminal (p :: rest))
      (Function.update debt k.scheduledTerminal 0) (k.unwound c p) p :=
    ⟨hplaced, rfl, by rw [hsched, Function.update_self]; rfl⟩
  refine ⟨hcurrent, ?_⟩
  rw [hcurrent.pid_eq]
  simp only [Kernel.unwound, Kernel.haltCurr, Kernel.haltTss, Kernel.haltVidmap_paging]
  simp

/-- A process that has a parent halts. -/
lemma Current.halt_child (h : Current chain debt k c)
    (hchain : chain k.scheduledTerminal = c :: p :: rest) (hdebt : debt k.scheduledTerminal = 0) :
    Mapped (Function.update chain k.scheduledTerminal (p :: rest)) debt (k.halted c p) p := by
  have hunwound := (h.haltCount hchain hdebt).unwound
    (show chain k.haltCount.scheduledTerminal = c :: p :: rest from hchain)
    (Function.update_self _ _ _)
  rw [show k.haltCount.scheduledTerminal = k.scheduledTerminal from rfl, Function.update_idem,
    ← hdebt, Function.update_eq_self] at hunwound
  exact hunwound

/-- A base shell that is taken off its chain leaves a PCB for the next one. -/
lemma Current.execute_relaunch (hshell : HasShell env.img) (h : Current chain debt k c)
    (hchain : chain k.scheduledTerminal = [c]) (hdebt : debt k.scheduledTerminal = 0)
    (regs : Regs) : ∃ n argument eip, ¬ ((k.haltCount.haltInactive c).pcbs n).Active ∧
      (k.haltCount.haltInactive c).scheduled.countPcb = 0#32 ∧
      (k.haltCount.haltInactive c).execute env (some shellCommand.text) regs =
        .ok (.started n eip, (k.haltCount.haltInactive c).base n argument) := by
  have hdrop := h.drop hchain hdebt
  have hcount : (k.haltCount.haltInactive c).scheduled.countPcb = 0#32 := by
    refine (hdrop.count_eq_zero k.scheduledTerminal).mpr ?_
    exact Function.update_self _ _ _
  have hfree : (k.haltCount.haltInactive c).determineWhichPcbEmpty ≠ none := by
    intro hnone
    have hall := Kernel.determineWhichPcbEmpty_eq_none.mp hnone c
    simp [Kernel.haltInactive, Pcb.Active] at hall
  obtain ⟨n, hslot⟩ := Option.ne_none_iff_exists'.mp hfree
  obtain ⟨argument, eip, heq⟩ := execute_shell regs hshell hcount hslot
  exact ⟨n, argument, eip, Kernel.determineWhichPcbEmpty_eq_some hslot, hcount, heq⟩

/-- What becomes of the current process when it halts. -/
lemma Current.halt_cases (hshell : HasShell env.img) (h : Current chain debt k c)
    (hdebt : debt k.scheduledTerminal = 0) (status : Byte) (regs : Regs) :
    (∃ p rest, chain k.scheduledTerminal = c :: p :: rest ∧
      k.halt env status regs = .ok (.resumed p (haltStatus status)
        ⟨((k.halted c p).pcbs p).savedEsp, ((k.halted c p).pcbs p).savedEbp⟩, k.halted c p)) ∨
    (∃ n argument eip, chain k.scheduledTerminal = [c] ∧
      ¬ ((k.haltCount.haltInactive c).pcbs n).Active ∧
      k.halt env status regs = .ok (.restarted n eip,
        (k.haltCount.haltInactive c).base n argument)) := by
  obtain ⟨rest, hchain⟩ := h.chain_eq
  cases rest with
  | cons p rest =>
    have hparent : (k.pcbs c).parentId = slotWord p := h.chains.parentId_head hchain
    exact Or.inl ⟨p, rest, hchain, Kernel.halt_child h.curr hparent⟩
  | nil =>
    have hparent : (k.pcbs c).parentId = noPid := h.chains.parentId_head hchain
    obtain ⟨n, argument, eip, hn, -, heq⟩ := h.execute_relaunch hshell hchain hdebt regs
    refine Or.inr ⟨n, argument, eip, hchain, hn, ?_⟩
    rw [Kernel.halt_base h.curr hparent, heq]

/-! ### Ticks -/

/-- A tick keeps the processes that it switches between. -/
lemma switchedOut_like (next : Tid) (m : Slot) :
    (k.pcbs m).Like ((k.switchedOut c next regs).pcbs m) := by
  rw [(Kernel.switchedOut_spec c next regs k).1]
  by_cases hmc : m = c
  · subst hmc
    rw [Function.update_self]
    exact ⟨rfl, rfl, rfl, rfl⟩
  · rw [Function.update_of_ne hmc]
    exact .refl _

/-- The bookkeeping of a tick, up to the choice of the next process. -/
lemma Current.switchedOut (h : Current chain debt k c) (next : Tid) (regs : Regs) :
    Placed chain debt (k.switchedOut c next regs) ∧
      (k.switchedOut c next regs).scheduled.pcbPtr = (chain next).head? := by
  obtain ⟨-, hterms, hsched, hpid, -⟩ := Kernel.switchedOut_spec c next regs k
  have hptr : ∀ t, ((k.switchedOut c next regs).terminalList t).pcbPtr = (chain t).head? := by
    intro t
    rw [hterms]
    by_cases ht : t = k.scheduledTerminal
    · subst ht
      rw [Function.update_self, h.top]
      exact h.curr
    · rw [Function.update_of_ne ht]
      exact h.waiting t ht
  refine ⟨⟨h.chains.congr (switchedOut_like next) (fun t => ?_), h.owed, fun t _ => hptr t,
    by rw [hpid]; exact h.pid⟩, ?_⟩
  · rw [hterms]
    by_cases ht : t = k.scheduledTerminal
    · subst ht
      rw [Function.update_self]
      exact ⟨rfl, rfl, rfl⟩
    · rw [Function.update_of_ne ht]
      exact ⟨rfl, rfl, rfl⟩
  · rw [Kernel.scheduled, hsched]
    exact hptr next

/-- What a tick does. -/
lemma Current.pit_cases (hshell : HasShell env.img) (h : Current chain debt k c) (regs : Regs)
    (hlaunch : (k.terminalList (k.scheduledTerminal + 1)).countPcb = 0#32 →
      k.determineWhichPcbEmpty ≠ none) :
    (∃ q rest, chain (k.scheduledTerminal + 1) = q :: rest ∧
      k.pitIntrHandler env regs = .ok (.resumed q
        ⟨((k.switchedOut c (k.scheduledTerminal + 1) regs).pcbs q).savedEsp,
          ((k.switchedOut c (k.scheduledTerminal + 1) regs).pcbs q).savedEbp⟩,
        k.resumed c q (k.scheduledTerminal + 1) regs)) ∨
    (∃ n argument eip, chain (k.scheduledTerminal + 1) = [] ∧
      ¬ ((k.switchedOut c (k.scheduledTerminal + 1) regs).pcbs n).Active ∧
      k.pitIntrHandler env regs = .ok (.launched n eip,
        (k.switchedOut c (k.scheduledTerminal + 1) regs).base n argument)) := by
  obtain ⟨hplaced, hptr⟩ := h.switchedOut (k.scheduledTerminal + 1) regs
  obtain ⟨-, -, hsched, -, -⟩ := Kernel.switchedOut_spec c (k.scheduledTerminal + 1) regs k
  have hcount := hplaced.count_eq_zero (k.scheduledTerminal + 1)
  have hscheduled : (k.switchedOut c (k.scheduledTerminal + 1) regs).scheduled =
      (k.switchedOut c (k.scheduledTerminal + 1) regs).terminalList (k.scheduledTerminal + 1) := by
    rw [Kernel.scheduled, hsched]
  rw [Kernel.pit_eq h.pid h.curr (h.chains.next k.scheduledTerminal)]
  cases hchain : chain (k.scheduledTerminal + 1) with
  | nil =>
    have hzero := hcount.mpr hchain
    have hfree : (k.switchedOut c (k.scheduledTerminal + 1) regs).determineWhichPcbEmpty ≠
        none := by
      rw [Kernel.switchedOut_determineWhichPcbEmpty]
      exact hlaunch ((h.count_eq_zero _).mpr hchain)
    obtain ⟨n, hslot⟩ := Option.ne_none_iff_exists'.mp hfree
    obtain ⟨argument, eip, heq⟩ := execute_shell regs hshell
      (by rw [hscheduled]; exact hzero) hslot
    refine Or.inr ⟨n, argument, eip, rfl, Kernel.determineWhichPcbEmpty_eq_some hslot, ?_⟩
    rw [if_pos (by rw [hscheduled]; exact hzero), heq]
  | cons q rest =>
    have hnonzero : ¬ (k.switchedOut c (k.scheduledTerminal + 1) regs).scheduled.countPcb =
        0#32 := by
      rw [hscheduled, hcount, hchain]
      exact List.cons_ne_nil q rest
    have hq : (k.switchedOut c (k.scheduledTerminal + 1) regs).scheduled.pcbPtr = some q := by
      rw [hptr, hchain]
      rfl
    have hpid : ((k.switchedOut c (k.scheduledTerminal + 1) regs).pcbs q).pid = slotWord q :=
      hplaced.chains.pid q (hplaced.chains.active (hchain ▸ List.mem_cons_self))
    refine Or.inl ⟨q, rest, rfl, ?_⟩
    rw [if_neg hnonzero, hq]
    dsimp only
    rw [hpid]
    rfl

/-- A tick that finds no PCB for the shell it has to launch. -/
lemma Current.pit_full (h : Current chain debt k c) (regs : Regs)
    (hcount : (k.terminalList (k.scheduledTerminal + 1)).countPcb = 0#32)
    (hfull : k.determineWhichPcbEmpty = none) :
    k.pitIntrHandler env regs = .ok (.returned,
      { (k.switchedOut c (k.scheduledTerminal + 1) regs).cli with pid := -2#32 }) := by
  obtain ⟨hpcbs, hterms, hsched, -, -⟩ :=
    Kernel.switchedOut_spec c (k.scheduledTerminal + 1) regs k
  have hsucc : ∀ t : Tid, t + 1 ≠ t := by decide
  have hzero : (k.switchedOut c (k.scheduledTerminal + 1) regs).scheduled.countPcb = 0#32 := by
    rw [Kernel.scheduled, hsched, hterms, Function.update_of_ne (hsucc _)]
    exact hcount
  have hnone : (k.switchedOut c (k.scheduledTerminal + 1) regs).cli.determineWhichPcbEmpty =
      none :=
    Kernel.switchedOut_determineWhichPcbEmpty.trans hfull
  rw [Kernel.pit_eq h.pid h.curr (h.chains.next k.scheduledTerminal), if_pos hzero]
  simp only [Kernel.execute, hnone]

/-- The process that a tick resumes is current. -/
lemma Current.resumed (h : Current chain debt k c) {next : Tid} (regs : Regs)
    (hchain : chain next = q :: rest) : Mapped chain debt (k.resumed c q next regs) q := by
  obtain ⟨hplaced, -⟩ := h.switchedOut next regs
  have hsched := Kernel.resumed_scheduledTerminal c q next regs k
  have hcurrent : Current chain debt (k.resumed c q next regs) q := by
    refine ⟨hplaced.congr (fun _ => .refl _) (fun _ => .refl _) rfl hplaced.pid, rfl, ?_⟩
    rw [hsched, hchain]
    rfl
  refine ⟨hcurrent, ?_⟩
  rw [hcurrent.pid_eq]
  simp [Kernel.resumed, Kernel.restoreTss, Kernel.setCurr]

end

end Osgods
