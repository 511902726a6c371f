import Osgods.Process.Kernel

/-!
# `execute`

An `execute` either returns to its caller, with nothing but the global `pid` and the interrupt flag
changed; or it faults while it loads the program; or it starts a process, and then its caller, if
the terminal has one, waits in the kernel until the process halts.
-/

namespace Osgods

open ByteCopy

inductive ExecuteResult where
  | returned (status : Word)
  | started (s : Slot) (eip : Word)
  deriving DecidableEq

namespace Kernel

/-- `execute` stores its stack registers in the parent's PCB. -/
def saveParent (s : Slot) (regs : Regs) (k : Kernel) : Except Kernel Kernel :=
  if (k.pcbs s).parentId = noPid then .ok k
  else
    match slotOf (k.pcbs s).parentId with
    | none   => .error k
    | some p => .ok (k.updatePcb p fun q => { q with savedEsp := regs.esp, savedEbp := regs.ebp })

/-- `execute` from `create_pcb` to the `iret` of `context_switch`. -/
def startProcess (argument : List Byte) (regs : Regs) (k : Kernel) :
    Except Kernel (Slot × Kernel) :=
  match slotOf k.pid with
  | none   => .error k
  | some s =>
    match k.createPcb s k.pid argument with
    | .error k => .error k
    | .ok k    =>
      match { k with currPcb := some s }.saveParent s regs with
      | .error k => .error k
      | .ok k    => .ok (s, k.contextSwitch s)

/-- No byte of the program is stored to an unmapped page. -/
def canLoad (env : Env) (p : Program) (k : Kernel) : Bool :=
  (env.img.stores (p.load env.img).2).all fun s => k.mapped env s.1

/-- `execute`; an error is a page fault in the kernel, with the state it leaves. -/
def execute (env : Env) (command : Option (List Byte)) (regs : Regs) (k : Kernel) :
    Except Kernel (ExecuteResult × Kernel) :=
  let k := k.cli
  match command with
  | none         => .ok (.returned (-1#32), k)
  | some command =>
    match k.determineWhichPcbEmpty with
    | none   => .ok (.returned 0#32, { k with pid := -2#32 })
    | some s =>
      let k := { k with pid := slotWord s }
      match checkExecutable env.img command with
      | none      => .ok (.returned (-1#32), k)
      | some prog =>
        let k := k.setUpPaging k.pid
        if ¬ k.canLoad env prog then .error k
        else if prog.length env.img ≠ (prog.load env.img).1 then .ok (.returned (-1#32), k)
        else (k.startProcess prog.argument regs).map fun r => (.started r.1 prog.targetEip, r.2)

/-! ### Starting a process -/

/-- The PCB of a new process. -/
def newPcb (parentId : Word) (argument : List Byte) (k : Kernel) (p : Pcb) : Pcb :=
  { p with
    pid            := k.pid
    parentId       := parentId
    fileDescriptor := createTable
    esp0           := kernelStackTop k.pid
    active         := 1#32
    argument       := argument
    tssEsp0        := k.tss.esp0
    tid            := k.scheduled.tid }

/-- The kernel when a new process is started. -/
def started (s : Slot) (parentId : Word) (argument : List Byte) (k : Kernel) : Kernel :=
  { k with
    pcbs         := Function.update k.pcbs s (k.newPcb parentId argument (k.pcbs s))
    terminalList := Function.update k.terminalList k.scheduledTerminal
      { k.scheduled with countPcb := k.scheduled.countPcb + 1#32 }
    currPcb      := some s
    tss          := ⟨kernelStackTop k.pid, kernelDs⟩ }

section

variable {env : Env} {k k' : Kernel} {s c : Slot} {argument : List Byte} {regs : Regs}

/-- The assignments of `create_pcb` before the parent is known. -/
lemma createPcb_eq (pid : Word) : k.createPcb s pid argument =
    ((k.updatePcb s fun p =>
      { p with
        pid            := pid
        fileDescriptor := createTable
        esp0           := kernelStackTop pid
        active         := 1#32
        argument       := argument
        tssEsp0        := k.tss.esp0
        tid            := k.scheduled.tid }).createParentId s).map createCountPcb := by
  simp [createPcb, createEsp0, createActive, createTid, createTssEsp0, createFields, updatePcb,
    scheduled]

lemma createPcb_base (h : k.scheduled.countPcb = 0#32) :
    k.createPcb s k.pid argument = .ok
      { k.started s noPid argument with currPcb := k.currPcb, tss := k.tss } := by
  rw [createPcb_eq, createParentId, updatePcb_scheduled, if_pos h, Except.map]
  simp [createCountPcb, started, newPcb, scheduled, updatePcb, updateTerminal]

lemma createPcb_child (h : k.scheduled.countPcb ≠ 0#32) (hc : k.currPcb = some c) (hne : c ≠ s) :
    k.createPcb s k.pid argument = .ok
      { k.started s (k.pcbs c).pid argument with currPcb := k.currPcb, tss := k.tss } := by
  rw [createPcb_eq, createParentId, updatePcb_scheduled, if_neg h, updatePcb_currPcb, hc]
  simp [Except.map, createCountPcb, started, newPcb, scheduled, updatePcb, updateTerminal,
    Function.update_of_ne hne, hc]

lemma saveParent_base (h : (k.pcbs s).parentId = noPid) : k.saveParent s regs = .ok k :=
  if_pos h

lemma saveParent_child (h : (k.pcbs s).parentId = slotWord c) : k.saveParent s regs =
    .ok (k.updatePcb c fun q => { q with savedEsp := regs.esp, savedEbp := regs.ebp }) := by
  rw [saveParent, h, if_neg (slotWord_ne_noPid c), slotOf_slotWord]

/-! Which PCBs are active, whatever the state of the kernel. -/

lemma updatePcb_active {f : Pcb → Pcb} (h : (f (k.pcbs c)).active = (k.pcbs c).active) :
    ((k.updatePcb c f).pcbs s).active = (k.pcbs s).active := by
  by_cases hs : s = c
  · subst hs
    simpa using h
  · simp [Function.update_of_ne hs]

@[simp] lemma createFields_active (pid : Word) :
    ((k.createFields c pid argument).pcbs s).active = (k.pcbs s).active := updatePcb_active rfl

@[simp] lemma createTssEsp0_active :
    ((k.createTssEsp0 c).pcbs s).active = (k.pcbs s).active := updatePcb_active rfl

@[simp] lemma createTid_active :
    ((k.createTid c).pcbs s).active = (k.pcbs s).active := updatePcb_active rfl

@[simp] lemma createEsp0_active (pid : Word) :
    ((k.createEsp0 c pid).pcbs s).active = (k.pcbs s).active := updatePcb_active rfl

lemma createParentId_active (h : k.createParentId c = .ok k') :
    (k'.pcbs s).active = (k.pcbs s).active := by
  unfold createParentId at h
  split at h
  · cases h
    exact updatePcb_active rfl
  · split at h
    · cases h
    · cases h
      exact updatePcb_active rfl

lemma saveParent_active (h : k.saveParent c regs = .ok k') :
    (k'.pcbs s).active = (k.pcbs s).active := by
  unfold saveParent at h
  split at h
  · cases h
    rfl
  · split at h
    · cases h
    · cases h
      exact updatePcb_active rfl

lemma createPcb_active {pid : Word} (h : k.createPcb c pid argument = .ok k') :
    (k'.pcbs s).active = if s = c then 1#32 else (k.pcbs s).active := by
  rw [createPcb_eq] at h
  unfold Except.map at h
  split at h
  · cases h
  · next k₁ hparent =>
    cases h
    refine (createParentId_active hparent).trans ?_
    by_cases hs : s = c
    · subst hs
      simp
    · simp [hs]

lemma startProcess_active (h : k.startProcess argument regs = .ok (c, k')) :
    slotOf k.pid = some c ∧ (k'.pcbs s).active = if s = c then 1#32 else (k.pcbs s).active := by
  unfold startProcess at h
  split at h
  · cases h
  · next c' hslot =>
    split at h
    · cases h
    · next k₁ hcreate =>
      split at h
      · cases h
      · next k₂ hsave =>
        cases h
        refine ⟨hslot, ?_⟩
        have hsaved := saveParent_active (s := s) hsave
        have hcreated : (k₁.pcbs s).active = _ := createPcb_active hcreate
        exact hsaved.trans hcreated

variable (argument regs)

/-- The first process of a terminal. -/
lemma startProcess_base (hpid : k.pid = slotWord s) (h : k.scheduled.countPcb = 0#32) :
    k.startProcess argument regs = .ok (s, k.started s noPid argument) := by
  have hslot : slotOf k.pid = some s := by
    rw [hpid, slotOf_slotWord]
  simp only [startProcess, hslot, createPcb_base h]
  rw [saveParent_base (by simp [started, newPcb])]
  simp [contextSwitch, started, newPcb]

/-- A process started by another one, which is left waiting. -/
lemma startProcess_child (hpid : k.pid = slotWord s) (h : k.scheduled.countPcb ≠ 0#32)
    (hc : k.currPcb = some c) (hcpid : (k.pcbs c).pid = slotWord c) (hne : c ≠ s) :
    k.startProcess argument regs = .ok (s, (k.started s (slotWord c) argument).updatePcb c
      fun q => { q with savedEsp := regs.esp, savedEbp := regs.ebp }) := by
  have hslot : slotOf k.pid = some s := by
    rw [hpid, slotOf_slotWord]
  simp only [startProcess, hslot, createPcb_child h hc hne, hcpid]
  rw [saveParent_child (c := c) (by simp [started, newPcb])]
  simp [contextSwitch, started, newPcb, updatePcb, Function.update_of_ne hne.symm]

end

/-! ### Outcomes -/

section

variable {env : Env} {k : Kernel} {command : Option (List Byte)} {regs : Regs} {prog : Program}

/-- The kernel with the user page set up for the process that `execute` is about to start. -/
def forNew (s : Slot) (k : Kernel) : Kernel :=
  { k.cli with pid := slotWord s }.setUpPaging (slotWord s)

/-- The kernel when a base shell is started. -/
def base (n : Slot) (argument : List Byte) (k : Kernel) : Kernel :=
  (k.forNew n).started n noPid argument

/-- The kernel when `c` has started a process and waits for it. -/
def child (c n : Slot) (argument : List Byte) (regs : Regs) (k : Kernel) : Kernel :=
  ((k.forNew n).started n (slotWord c) argument).updatePcb c
    fun q => { q with savedEsp := regs.esp, savedEbp := regs.ebp }

/-- A program that is found and can be loaded is started. -/
lemma execute_of_canLoad {text : List Byte} {s : Slot} (hs : k.determineWhichPcbEmpty = some s)
    (hprog : checkExecutable env.img text = some prog)
    (hload : (k.forNew s).canLoad env prog = true) :
    k.execute env (some text) regs = ((k.forNew s).startProcess prog.argument regs).map
      fun r => (.started r.1 prog.targetEip, r.2) := by
  have hs' : k.cli.determineWhichPcbEmpty = some s := hs
  have hlen : ¬ prog.length env.img ≠ (prog.load env.img).1 :=
    not_not.mpr (load_length hprog).symm
  simp only [forNew] at hload
  simp only [execute, hs', hprog, hload, not_true_eq_false, if_false, if_neg hlen]
  rfl

/-- A program that is found but cannot be loaded faults. -/
lemma execute_of_not_canLoad {text : List Byte} {s : Slot}
    (hs : k.determineWhichPcbEmpty = some s) (hprog : checkExecutable env.img text = some prog)
    (hload : ¬ (k.forNew s).canLoad env prog = true) :
    k.execute env (some text) regs = .error (k.forNew s) := by
  have hs' : k.cli.determineWhichPcbEmpty = some s := hs
  simp only [forNew] at hload
  simp only [execute, hs', hprog, hload]
  rfl

/-- The three outcomes of `execute`. -/
lemma execute_cases (env : Env) (command : Option (List Byte)) (regs : Regs) (k : Kernel) :
    (∃ status pid, k.execute env command regs =
      .ok (.returned status, { k.cli with pid := pid }) ∧
        (pid = k.pid ∨ k.determineWhichPcbEmpty = none ∧ pid = -2#32 ∨
          ∃ s, k.determineWhichPcbEmpty = some s ∧ pid = slotWord s)) ∨
    ∃ text s prog, command = some text ∧ k.determineWhichPcbEmpty = some s ∧
      checkExecutable env.img text = some prog ∧
      (k.execute env command regs = .error (k.forNew s) ∧ ¬ (k.forNew s).canLoad env prog ∨
        (k.forNew s).canLoad env prog = true ∧ k.execute env command regs =
          ((k.forNew s).startProcess prog.argument regs).map
            fun r => (.started r.1 prog.targetEip, r.2)) := by
  cases command with
  | none => exact Or.inl ⟨_, _, rfl, Or.inl rfl⟩
  | some text =>
    cases hs : k.determineWhichPcbEmpty with
    | none =>
      have hs' : k.cli.determineWhichPcbEmpty = none := hs
      exact Or.inl ⟨0#32, -2#32, by simp only [execute, hs'], Or.inr (Or.inl ⟨rfl, rfl⟩)⟩
    | some s =>
      have hs' : k.cli.determineWhichPcbEmpty = some s := hs
      cases hprog : checkExecutable env.img text with
      | none =>
        exact Or.inl ⟨-1#32, slotWord s, by simp only [execute, hs', hprog],
          Or.inr (Or.inr ⟨s, rfl, rfl⟩)⟩
      | some prog =>
        refine Or.inr ⟨text, s, prog, rfl, rfl, hprog, ?_⟩
        by_cases hload : (k.forNew s).canLoad env prog = true
        · exact Or.inr ⟨hload, execute_of_canLoad hs hprog hload⟩
        · exact Or.inl ⟨execute_of_not_canLoad hs hprog hload, hload⟩

/-- A fault comes behind the choice of a PCB and the check of the program. -/
lemma execute_error {k' : Kernel} (h : k.execute env command regs = .error k') :
    (∃ text, command = some text ∧ checkExecutable env.img text ≠ none) ∧
      ∃ n, k.determineWhichPcbEmpty = some n := by
  rcases execute_cases env command regs k with
    ⟨status, pid, heq, -⟩ | ⟨text, n, prog, htext, hslot, hprog, -⟩
  · rw [heq] at h
    cases h
  · exact ⟨⟨text, htext, by simp [hprog]⟩, n, hslot⟩

/-- A process is started in the first free slot, from an executable program. -/
lemma execute_started {c : Slot} {eip : Word} {k' : Kernel}
    (h : k.execute env command regs = .ok (.started c eip, k')) :
    (∃ text, command = some text ∧ checkExecutable env.img text ≠ none) ∧
      k.determineWhichPcbEmpty = some c ∧
      ∀ s, (k'.pcbs s).active = if s = c then 1#32 else (k.pcbs s).active := by
  rcases execute_cases env command regs k with
    ⟨status, pid, heq, -⟩ | ⟨text, n, prog, htext, hslot, hprog, ⟨heq, -⟩ | ⟨-, heq⟩⟩
  · rw [heq] at h
    cases h
  · rw [heq] at h
    cases h
  · rw [heq] at h
    unfold Except.map at h
    split at h
    · cases h
    · next r hstart =>
      cases h
      have hactive := fun s => startProcess_active (s := s) hstart
      obtain ⟨hpid, -⟩ := hactive n
      have hn : slotOf (k.forNew n).pid = some n := slotOf_slotWord n
      obtain rfl := Option.some.inj (hn.symm.trans hpid)
      exact ⟨⟨text, htext, by simp [hprog]⟩, hslot, fun s => (hactive s).2⟩

lemma dirIndex_userPage {a : Word} (hlo : mb128 ≤ a.toNat) (hhi : a.toNat < mb132) :
    dirIndex a = 32#10 := by
  apply BitVec.eq_of_toNat_eq
  simp only [dirIndex, BitVec.extractLsb'_toNat, Nat.shiftRight_eq_div_pow, BitVec.toNat_ofNat,
    mb128, mb132] at hlo hhi ⊢
  omega

/-- A store into the user page does not fault once it is set up. -/
lemma mapped_of_userPage {s : Slot} {a : Word} (hlo : mb128 ≤ a.toNat) (hhi : a.toNat < mb132) :
    (k.forNew s).mapped env a = true := by
  obtain ⟨hpresent, -, hsize⟩ := userPde_bits (slotWord s)
  simp [mapped, forNew, PageTables.translate, dirIndex_userPage hlo hhi, entryAllows, hpresent,
    hsize]

/-- A program that fits the user page is loaded without a fault. -/
lemma canLoad_of_fits {text : List Byte} {s : Slot} (h : checkExecutable env.img text = some prog)
    (hfits : prog.Fits env.img) : (k.forNew s).canLoad env prog = true := by
  rw [canLoad, List.all_eq_true]
  intro st hst
  obtain ⟨hlo, hhi⟩ := mem_stores_load h hfits hst
  exact mapped_of_userPage hlo hhi

/-- While nothing is mapped above the user page, only a program that fits it is loaded. -/
lemma fits_of_canLoad {text : List Byte} {s : Slot} (h : checkExecutable env.img text = some prog)
    (hdir : k.paging.pageDir 33#10 = 0#32) (hload : (k.forNew s).canLoad env prog = true) :
    prog.Fits env.img := by
  by_contra hfits
  have haddr : programImageAddress.toNat = 0x08048000 := rfl
  rw [Program.Fits, haddr, mb132] at hfits
  obtain ⟨b, hb⟩ := exists_store_load h (show 0x3b8000 < (prog.length env.img).toNat by omega)
  have hmapped := (List.all_eq_true.mp hload) _ hb
  have hindex : dirIndex (programImageAddress + BitVec.ofNat 32 0x3b8000) = 33#10 := by decide
  simp [mapped, forNew, cli, PageTables.translate, hindex, hdir, entryAllows, present] at hmapped

end

end Kernel

end Osgods
