import Osgods.Process.Command
import Osgods.Process.System
import Osgods.Syscall.Cursor

/-!
# What `execute` accepts

An `execute` that does not start a program has changed nothing. What it starts is any executable
program that the command names, whatever the type in the directory entry; the load of a program
stays in the user page as far as the length of its file lets it.
-/

namespace Osgods

open ByteCopy

/-! ### An `execute` that returns -/

namespace Kernel

/-- What `execute` stores besides the PCBs: the reads into its local buffers, and the program. -/
def executeStores (env : Env) (command : List Byte) (k : Kernel) : List (Word × Byte) :=
  let read (d : Dentry) (offset buf length : Word) :=
    env.img.stores (readData env.img d.inodeId offset buf length).2
  match k.determineWhichPcbEmpty with
  | none   => []
  | some _ =>
    match parseCmd command with
    | none               => []
    | some (filename, _) =>
      match readDentryByName env.img filename with
      | none        => []
      | some dentry =>
        read dentry 0#32 localBuffer 40#32 ++
          match readLocal env.img dentry.inodeId 0#32 40#32 with
          | none     => []
          | some buf =>
            if strncmp buf exeMagicTable 4 ≠ 0 then []
            else
              read dentry 24#32 localBuffer 4#32 ++
                match readLocal env.img dentry.inodeId 24#32 4#32 with
                | none   => []
                | some _ =>
                  read dentry 0#32 programImageAddress (env.img.inodes dentry.inodeId).length

/-- What a call leaves alone that does not start a program. -/
structure Untouched (k k' : Kernel) : Prop where
  pcbs      : k'.pcbs = k.pcbs
  currPcb   : k'.currPcb = k.currPcb
  terminals : ∀ t, (k'.terminalList t).countPcb = (k.terminalList t).countPcb ∧
    (k'.terminalList t).pcbPtr = (k.terminalList t).pcbPtr
  pageDir   : k'.paging.pageDir = k.paging.pageDir
  tss       : k'.tss = k.tss

/-- Why `execute` does not start a program. -/
inductive StartFails (env : Env) (k : Kernel) (c : Command) : Prop where
  | full (h : k.determineWhichPcbEmpty = none)
  | parse (h : parseCmd c.text = none)
  | notFound (h : ¬ env.img.Named c.firstWord)
  | noInode (d : Dentry) (h : env.img.firstNamed c.firstWord = some d)
      (hinode : env.img.numInodes ≤ d.inodeId)
  | tooShort (d : Dentry) (h : env.img.firstNamed c.firstWord = some d)
      (hlen : (env.img.inodes d.inodeId).length.toNat < 40)
  | notElf (d : Dentry) (h : env.img.firstNamed c.firstWord = some d)
      (hmagic : (env.img.content d.inodeId).take 4 ≠ exeMagicTable)

section

variable {env : Env} {k k' : Kernel} {c : Command} {regs : Regs} {s : Slot} {prog : Program}
  {text : List Byte} {status : Word}

/-- The reasons are those that `execute` looks for. -/
lemma startFails_iff (hne : env.img.numInodes ≠ 0#32) : StartFails env k c ↔
    k.determineWhichPcbEmpty = none ∨ checkExecutable env.img c.text = none := by
  rw [checkExecutable_command hne]
  constructor
  · rintro (h | h | h | ⟨d, h, hinode⟩ | ⟨d, h, hlen⟩ | ⟨d, h, hmagic⟩)
    · exact Or.inl h
    · rw [parseCmd_command] at h
      cases h
    · exact Or.inr (by rw [firstNamed_eq_none.mpr h, Option.bind_none])
    · right
      rw [h, Option.bind_some, if_neg]
      exact fun hexec => BitVec.not_le.mpr hexec.1 hinode
    · right
      rw [h, Option.bind_some, if_neg]
      exact fun hexec => absurd hexec.2.1 (by omega)
    · right
      rw [h, Option.bind_some, if_neg]
      exact fun hexec => hmagic hexec.2.2
  · rintro (h | h)
    · exact .full h
    · cases hname : env.img.firstNamed c.firstWord with
      | none => exact .notFound (firstNamed_eq_none.mp hname)
      | some d =>
        rw [hname, Option.bind_some] at h
        by_cases hinode : d.inodeId < env.img.numInodes
        · by_cases hlen : 40 ≤ (env.img.inodes d.inodeId).length.toNat
          · refine .notElf d hname fun hmagic => ?_
            rw [if_pos ⟨hinode, hlen, hmagic⟩] at h
            cases h
          · exact .tooShort d hname (Nat.lt_of_not_le hlen)
        · exact .noInode d hname (BitVec.not_lt.mp hinode)

lemma execute_full (h : k.determineWhichPcbEmpty = none) :
    k.execute env (some text) regs = .ok (.returned 0#32, { k.cli with pid := -2#32 }) := by
  have h' : k.cli.determineWhichPcbEmpty = none := h
  simp only [execute, h']

lemma execute_rejected (h : k.determineWhichPcbEmpty = some s)
    (hprog : checkExecutable env.img text = none) :
    k.execute env (some text) regs = .ok (.returned (-1#32), { k.cli with pid := slotWord s }) := by
  have h' : k.cli.determineWhichPcbEmpty = some s := h
  simp only [execute, h', hprog]

/-- Once `set_up_paging` has been called, `execute` does not return any more. -/
lemma execute_ne_returned (h : k.determineWhichPcbEmpty = some s)
    (hprog : checkExecutable env.img text = some prog) :
    k.execute env (some text) regs ≠ .ok (.returned status, k') := by
  by_cases hload : (k.forNew s).canLoad env prog = true
  · rw [execute_of_canLoad h hprog hload]
    cases hstart : (k.forNew s).startProcess prog.argument regs with
    | error k₁ => simp [Except.map]
    | ok r => simp [Except.map]
  · rw [execute_of_not_canLoad h hprog hload]
    simp

lemma execute_returned_iff : (∃ status k', k.execute env (some text) regs =
      .ok (.returned status, k')) ↔
    k.determineWhichPcbEmpty = none ∨ checkExecutable env.img text = none := by
  constructor
  · rintro ⟨status, k', heq⟩
    by_contra hnot
    obtain ⟨hslot, hprog⟩ := not_or.mp hnot
    obtain ⟨s, hs⟩ := Option.ne_none_iff_exists'.mp hslot
    obtain ⟨prog, hprog⟩ := Option.ne_none_iff_exists'.mp hprog
    exact execute_ne_returned hs hprog heq
  · intro h
    cases hs : k.determineWhichPcbEmpty with
    | none => exact ⟨_, _, execute_full hs⟩
    | some s => exact ⟨_, _, execute_rejected hs (h.resolve_left (by simp [hs]))⟩

/-- An `execute` that returns has stored nothing but its local buffers. -/
lemma executeStores_rejected
    (h : k.determineWhichPcbEmpty = none ∨ checkExecutable env.img text = none) :
    ∀ st ∈ k.executeStores env text, ∃ i < 40, st.1 = localBuffer + BitVec.ofNat 32 i := by
  intro st hst
  have hlocal : ∀ (inode offset length : Word), length.toNat ≤ 40 →
      st ∈ env.img.stores (readData env.img inode offset localBuffer length).2 →
        ∃ i < 40, st.1 = localBuffer + BitVec.ofNat 32 i := by
    intro inode offset length hlen hmem
    obtain ⟨i, hi, heq⟩ := readData_stores_subset (by omega) hmem
    exact ⟨i, by omega, heq⟩
  cases hs : k.determineWhichPcbEmpty with
  | none => simp [executeStores, hs] at hst
  | some s =>
    have hprog := h.resolve_left (by simp [hs])
    cases hparse : parseCmd text with
    | none => simp [executeStores, hs, hparse] at hst
    | some words =>
      cases hname : readDentryByName env.img words.1 with
      | none => simp [executeStores, hs, hparse, hname] at hst
      | some d =>
        simp only [executeStores, checkExecutable, hs, hparse, hname] at hst hprog
        rcases List.mem_append.mp hst with hst | hst
        · exact hlocal _ _ _ (by decide) hst
        · cases hheader : readLocal env.img d.inodeId 0#32 40#32 with
          | none => simp [hheader] at hst
          | some buf =>
            simp only [hheader] at hst hprog
            by_cases hmagic : strncmp buf exeMagicTable 4 ≠ 0
            · simp [if_pos hmagic] at hst
            · rw [if_neg hmagic] at hst hprog
              rcases List.mem_append.mp hst with hst | hst
              · exact hlocal _ _ _ (by decide) hst
              · cases hentry : readLocal env.img d.inodeId 24#32 4#32 with
                | none => simp [hentry] at hst
                | some eip => simp [hentry] at hprog

variable (env k c regs) in
/-- An `execute` that does not start a program returns, and then it has changed nothing; after
`set_up_paging` the whole program is read. -/
theorem execute_fails (hne : env.img.numInodes ≠ 0#32) :
    (StartFails env k c ↔
        ∃ status k', k.execute env (some c.text) regs = .ok (.returned status, k')) ∧
      (∀ status k', k.execute env (some c.text) regs = .ok (.returned status, k') →
        k.Untouched k' ∧
          ∀ st ∈ k.executeStores env c.text, ¬ (mb128 ≤ st.1.toNat ∧ st.1.toNat < mb132)) ∧
      ∀ prog, checkExecutable env.img c.text = some prog →
        (prog.load env.img).1 = prog.length env.img := by
  refine ⟨(startFails_iff hne).trans execute_returned_iff.symm, fun status k' heq => ⟨?_, ?_⟩,
    fun prog hprog => load_length hprog⟩
  · rcases execute_cases env (some c.text) regs k with
      ⟨status', pid, heq', -⟩ | ⟨text, s, prog, htext, hs, hprog, -⟩
    · obtain ⟨-, rfl⟩ := Prod.mk.inj (Except.ok.inj (heq.symm.trans heq'))
      exact ⟨rfl, rfl, fun _ => ⟨rfl, rfl⟩, rfl, rfl⟩
    · obtain rfl := Option.some.inj htext
      exact absurd heq (execute_ne_returned hs hprog)
  · intro st hst
    obtain ⟨i, hi, hst⟩ := executeStores_rejected (execute_returned_iff.mp ⟨status, k', heq⟩) st hst
    have haddr : localBuffer.toNat = 0x7ff000 := rfl
    rw [hst, BitVec.toNat_add, BitVec.toNat_ofNat, haddr, mb128]
    omega

end

/-- There is no file `cat`. -/
def catCommand : Command := ⟨[0x63, 0x61, 0x74], by decide, by decide⟩

/-- The first `execute` names a file that does not exist. -/
theorem execute_fails_small : ∃ status k', (bootKernel smallKernel.layout).execute smallKernel
      (some catCommand.text) ⟨0#32, 0#32⟩ = .ok (.returned status, k') ∧
    (bootKernel smallKernel.layout).Untouched k' := by
  obtain ⟨hfails, huntouched, -⟩ := execute_fails smallKernel (bootKernel smallKernel.layout)
    catCommand ⟨0#32, 0#32⟩ (by decide)
  obtain ⟨status, k', heq⟩ := hfails.mp (.notFound (firstNamed_eq_none.mp (by rfl)))
  exact ⟨status, k', heq, (huntouched status k' heq).1⟩

section

variable {env : Env} {k k' : Kernel} {c : Command} {regs : Regs} {s : Slot} {prog : Program}
  {text : List Byte} {status : Word}

/-! ### Starting the process -/

/-- `curr_pcb` leads to the PCB of a process, or the new process is to have no parent. -/
def CallerOk (k : Kernel) (s : Slot) : Prop :=
  k.scheduled.countPcb = 0#32 ∨ ∃ c, k.currPcb = some c ∧
    (c = s ∨ (k.pcbs c).pid = noPid ∨ slotOf (k.pcbs c).pid ≠ none)

variable (k s regs) in
lemma saveParent_ok_iff : (∃ k', k.saveParent s regs = .ok k') ↔
    (k.pcbs s).parentId = noPid ∨ slotOf (k.pcbs s).parentId ≠ none := by
  rw [saveParent]
  by_cases hbase : (k.pcbs s).parentId = noPid
  · simp [hbase]
  · rw [if_neg hbase]
    cases hslot : slotOf (k.pcbs s).parentId with
    | none => simp [hbase]
    | some p => simp

variable (k s) in
/-- What `create_pcb` makes the parent of the new process. -/
lemma createPcb_parentId (argument : List Byte) (pid : Word) :
    (k.scheduled.countPcb = 0#32 ∧ ∃ k', k.createPcb s pid argument = .ok k' ∧
        (k'.pcbs s).parentId = noPid) ∨
      (k.scheduled.countPcb ≠ 0#32 ∧ k.currPcb = none ∧
        ∃ k', k.createPcb s pid argument = .error k') ∨
      (k.scheduled.countPcb ≠ 0#32 ∧ ∃ c k', k.currPcb = some c ∧
        k.createPcb s pid argument = .ok k' ∧
        (k'.pcbs s).parentId = if c = s then pid else (k.pcbs c).pid) := by
  rw [createPcb_eq, createParentId, updatePcb_scheduled, updatePcb_currPcb]
  by_cases hcount : k.scheduled.countPcb = 0#32
  · left
    rw [if_pos hcount]
    exact ⟨hcount, _, rfl, by simp [createCountPcb]⟩
  · right
    rw [if_neg hcount]
    cases hcurr : k.currPcb with
    | none => exact Or.inl ⟨hcount, rfl, _, rfl⟩
    | some c =>
      refine Or.inr ⟨hcount, c, _, rfl, rfl, ?_⟩
      by_cases hcs : c = s
      · subst hcs
        simp [createCountPcb]
      · simp [createCountPcb, hcs]

/-- The process is started unless `create_pcb` fails or the parent's PCB is not there. -/
lemma startProcess_created {argument : List Byte} {k₁ : Kernel} (hs : slotOf k.pid = some s)
    (h : k.createPcb s k.pid argument = .ok k₁) : (∃ r, k.startProcess argument regs = .ok r) ↔
      (k₁.pcbs s).parentId = noPid ∨ slotOf (k₁.pcbs s).parentId ≠ none := by
  have hsave := saveParent_ok_iff { k₁ with currPcb := some s } regs s
  refine Iff.trans ?_ hsave
  rw [startProcess]
  simp only [hs, h]
  cases saveParent s regs { k₁ with currPcb := some s } with
  | error k₂ => simp
  | ok k₂ => simp

variable (regs) in
lemma startProcess_ok_iff (argument : List Byte) (hs : slotOf k.pid = some s) :
    (∃ r, k.startProcess argument regs = .ok r) ↔ k.CallerOk s := by
  rcases createPcb_parentId k s argument k.pid with
    ⟨hcount, k₁, heq, hparent⟩ | ⟨hcount, hcurr, k₁, heq⟩ | ⟨hcount, c, k₁, hcurr, heq, hparent⟩
  · rw [startProcess_created hs heq]
    exact iff_of_true (Or.inl hparent) (Or.inl hcount)
  · refine iff_of_false ?_ ?_
    · rintro ⟨r, hr⟩
      simp [startProcess, hs, heq] at hr
    · rintro (h | ⟨c, h, -⟩)
      · exact hcount h
      · rw [hcurr] at h
        cases h
  · rw [startProcess_created hs heq, hparent]
    constructor
    · intro h
      refine Or.inr ⟨c, hcurr, ?_⟩
      by_cases hcs : c = s
      · exact Or.inl hcs
      · rw [if_neg hcs] at h
        exact Or.inr h
    · rintro (h | ⟨c', hc', h⟩)
      · exact absurd h hcount
      · obtain rfl := Option.some.inj (hcurr.symm.trans hc')
        by_cases hcs : c = s
        · rw [if_pos hcs, hs]
          exact Or.inr (by simp)
        · rw [if_neg hcs]
          exact h.resolve_left hcs

/-! ### Who is started -/

/-- The command names a regular file that is an executable program. -/
def Runnable (img : Image) (c : Command) (d : Dentry) : Prop :=
  img.firstNamed c.firstWord = some d ∧ d.fileType = fileType ∧ img.Executable d

/-- What `execute` should accept: a program in a regular file, if there is a free PCB for it. -/
structure DecidesRight (env : Env) (k : Kernel) (c : Command) (regs : Regs) : Prop where
  accepts : k.determineWhichPcbEmpty ≠ none → ∀ d, Runnable env.img c d →
    ∃ s k', k.execute env (some c.text) regs = .ok (.started s (env.img.entryPoint d), k')
  refuses : (k.determineWhichPcbEmpty = none ∨ ∀ d, ¬ Runnable env.img c d) →
    ∃ k', k.execute env (some c.text) regs = .ok (.returned (-1#32), k')

/-- A program of any type is started if it can be loaded and the caller is in order. -/
lemma execute_started_iff {d : Dentry} (hne : env.img.numInodes ≠ 0#32)
    (hs : k.determineWhichPcbEmpty = some s) (hd : env.img.firstNamed c.firstWord = some d)
    (hexec : env.img.Executable d) :
    (∃ s' k', k.execute env (some c.text) regs = .ok (.started s' (env.img.entryPoint d), k')) ↔
      (k.forNew s).canLoad env (c.program env.img d) = true ∧ k.CallerOk s := by
  have hprog := checkExecutable_of_executable hne hd hexec
  by_cases hload : (k.forNew s).canLoad env (c.program env.img d) = true
  · have hcaller : (k.forNew s).CallerOk s ↔ k.CallerOk s := Iff.rfl
    have hstart := startProcess_ok_iff regs (c.program env.img d).argument
      (show slotOf (k.forNew s).pid = some s from slotOf_slotWord s)
    rw [execute_of_canLoad hs hprog hload, ← hcaller, ← hstart]
    cases (k.forNew s).startProcess (c.program env.img d).argument regs with
    | error k₁ => simp [Except.map]
    | ok r =>
      have heip : (c.program env.img d).targetEip = env.img.entryPoint d := rfl
      simp [Except.map, hload, heip]
  · rw [execute_of_not_canLoad hs hprog hload]
    simp [hload]

/-- A program of another type is not refused. -/
lemma not_decidesRight_of_type {d : Dentry} (hne : env.img.numInodes ≠ 0#32)
    (hd : env.img.firstNamed c.firstWord = some d) (hexec : env.img.Executable d)
    (htype : d.fileType ≠ fileType) (hs : k.determineWhichPcbEmpty = some s) :
    ¬ DecidesRight env k c regs := by
  intro h
  have hnot : ∀ d', ¬ Runnable env.img c d' := by
    rintro d' ⟨hd', htype', -⟩
    obtain rfl := Option.some.inj (hd.symm.trans hd')
    exact htype htype'
  obtain ⟨k', heq⟩ := h.refuses (Or.inr hnot)
  exact execute_ne_returned hs (checkExecutable_of_executable hne hd hexec) heq

/-- Without a free PCB, `execute` returns 0. -/
lemma not_decidesRight_of_full (h : k.determineWhichPcbEmpty = none) :
    ¬ DecidesRight env k c regs := by
  intro hright
  obtain ⟨k', heq⟩ := hright.refuses (Or.inl h)
  rw [execute_full h] at heq
  simp at heq

variable (env k c regs) in
/-- `execute` decides right if there is a free PCB, and the file that the command names, if it is
an executable program at all, is a regular file that can be loaded, and the caller is in order. -/
theorem decidesRight_iff (hne : env.img.numInodes ≠ 0#32) : DecidesRight env k c regs ↔
    ∃ s, k.determineWhichPcbEmpty = some s ∧
      ∀ d, env.img.firstNamed c.firstWord = some d → env.img.Executable d →
        d.fileType = fileType ∧ (k.forNew s).canLoad env (c.program env.img d) = true ∧
          k.CallerOk s := by
  constructor
  · intro h
    cases hs : k.determineWhichPcbEmpty with
    | none => exact absurd h (not_decidesRight_of_full hs)
    | some s =>
      refine ⟨s, rfl, fun d hd hexec => ?_⟩
      have htype : d.fileType = fileType :=
        not_not.mp fun htype => not_decidesRight_of_type hne hd hexec htype hs h
      have hstart := h.accepts (by simp [hs]) d ⟨hd, htype, hexec⟩
      exact ⟨htype, (execute_started_iff hne hs hd hexec).mp hstart⟩
  · rintro ⟨s, hs, hprog⟩
    refine ⟨fun _ d ⟨hd, _, hexec⟩ => ?_, fun h => ?_⟩
    · exact (execute_started_iff hne hs hd hexec).mpr (hprog d hd hexec).2
    · have hnot := h.resolve_left (by simp [hs])
      refine ⟨_, execute_rejected hs ?_⟩
      rw [checkExecutable_command hne]
      cases hd : env.img.firstNamed c.firstWord with
      | none => rfl
      | some d =>
        rw [Option.bind_some, if_neg]
        exact fun hexec => hnot d ⟨hd, (hprog d hd hexec).1, hexec⟩

end

/-- A regular file is started. -/
theorem decidesRight_small : DecidesRight smallKernel (bootKernel smallKernel.layout) shellCommand
    ⟨0#32, 0#32⟩ := by
  refine (decidesRight_iff smallKernel (bootKernel smallKernel.layout) shellCommand ⟨0#32, 0#32⟩
    (by decide)).mpr ⟨0, by decide, fun d hd _ => ?_⟩
  have hfile : smallImage.firstNamed shellCommand.firstWord = some (smallImage.dirEntries 2) := rfl
  obtain rfl := Option.some.inj (hfile.symm.trans hd)
  exact ⟨by decide, by decide, Or.inl (by decide)⟩

def rtcCommand : Command := ⟨rtcName, by decide, by decide⟩

/-- So is the RTC, whose inode number happens to be that of a program. -/
theorem not_decidesRight_rtc : ¬ DecidesRight smallKernel (bootKernel smallKernel.layout) rtcCommand
    ⟨0#32, 0#32⟩ := by
  have hfile : smallImage.firstNamed rtcCommand.firstWord = some (smallImage.dirEntries 1) := rfl
  exact not_decidesRight_of_type (s := 0) (by decide) hfile (by decide) (by decide) (by decide)

end Kernel

/-! ### Where the program goes -/

/-- Every byte of the load lies in the user page. -/
def Program.LoadsInside (img : Image) (p : Program) : Prop :=
  ∀ st ∈ img.stores (p.load img).2, mb128 ≤ st.1.toNat ∧ st.1.toNat < mb132

section

variable {img : Image} {text : List Byte} {p : Program}

/-- The first byte that does not fit is stored behind the user page. -/
lemma not_loadsInside (h : checkExecutable img text = some p)
    (hlen : 0x3b8000 < (p.length img).toNat) : ¬ p.LoadsInside img := by
  intro hinside
  obtain ⟨b, hb⟩ := exists_store_load h hlen
  have haddr : (programImageAddress + BitVec.ofNat 32 0x3b8000).toNat = mb132 := rfl
  exact absurd haddr (hinside _ hb).2.ne

/-- A program is loaded into the user page if it has no more bytes than the page has from the load
address on. -/
theorem loadsInside_iff (h : checkExecutable img text = some p) :
    p.LoadsInside img ↔ (p.length img).toNat ≤ 0x3b8000 := by
  constructor
  · intro hinside
    by_contra hlen
    exact not_loadsInside h (Nat.lt_of_not_le hlen) hinside
  · intro hlen st hst
    refine mem_stores_load h ?_ hst
    have haddr : programImageAddress.toNat = 0x08048000 := rfl
    rw [Program.Fits, haddr, mb132]
    omega

end

/-- The 40 bytes of the shell. -/
theorem loadsInside_small : ∃ p, checkExecutable smallImage shellCommand.text = some p ∧
    p.LoadsInside smallImage := by
  obtain ⟨p, hp⟩ : ∃ p, checkExecutable smallImage shellCommand.text = some p := ⟨_, rfl⟩
  exact ⟨p, hp, (loadsInside_iff hp).mpr (show (40#32).toNat ≤ 0x3b8000 by decide)⟩

/-- A shell of the length that an inode can describe. -/
def bigImage : Image := { smallImage with inodes := fun _ => ⟨0x3ff000, fun _ => 0⟩ }

lemma bigImage_wellFormed : bigImage.WellFormed where
  numInodes_pos := by decide
  length_le     := fun _ _ => show (0x3ff000#32).toNat ≤ 1023 * blockSize by decide
  blocks        := fun _ _ _ _ => show 0#32 < 1#32 by decide
  regular       := fun i _ _ => by
    rcases i with _ | _ | i <;> exact show 0#32 < 1#32 by decide

/-- It is accepted, and loaded beyond the user page. -/
theorem not_loadsInside_big : bigImage.WellFormed ∧
    ∃ p, checkExecutable bigImage shellCommand.text = some p ∧ ¬ p.LoadsInside bigImage := by
  obtain ⟨p, hp⟩ : ∃ p, checkExecutable bigImage shellCommand.text = some p := ⟨_, rfl⟩
  exact ⟨bigImage_wellFormed, p, hp,
    not_loadsInside hp (show 0x3b8000 < (0x3ff000#32).toNat by decide)⟩

end Osgods
