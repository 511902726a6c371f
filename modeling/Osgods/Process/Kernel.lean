import Osgods.Process.Program
import Osgods.Syscall.Basic
import Osgods.Page.Translate

/-!
# The state of the kernel

The globals of `execute.c` and `terminal.c`, the PCBs, the task state segment and the page tables,
with the single assignments that `execute`, `halt` and `scheduler` are made of. `interruptFlag` is
the processor's.
-/

namespace Osgods

open ByteCopy

/-- What does not change while the kernel runs. -/
structure Env where
  img    : Image
  layout : Layout

structure Kernel where
  pcbs                 : Slot → Pcb
  terminalList         : Tid → Terminal
  scheduledTerminal    : Tid
  scheduledTerminalNum : Tid
  currTerminalNum      : Tid
  currPcb              : Option Slot
  pid                  : Word
  tss                  : Tss
  paging               : PageTables
  screenX              : ℤ
  screenY              : ℤ
  videoMem             : Word
  interruptFlag        : Bool

def kernelDs : BitVec 16 := 0x0018

/-- The top of a process's kernel stack, `8MB - 8KB * pid - 4`. -/
def kernelStackTop (pid : Word) : Word := 0x800000#32 - 0x2000#32 * pid - 4#32

def Pcb.Active (p : Pcb) : Prop := p.active ≠ 0#32

instance (p : Pcb) : Decidable p.Active := inferInstanceAs (Decidable (_ ≠ _))

namespace Kernel

/-! ### Updates -/

def updatePcb (s : Slot) (f : Pcb → Pcb) (k : Kernel) : Kernel :=
  { k with pcbs := Function.update k.pcbs s (f (k.pcbs s)) }

def updateTerminal (t : Tid) (f : Terminal → Terminal) (k : Kernel) : Kernel :=
  { k with terminalList := Function.update k.terminalList t (f (k.terminalList t)) }

def cli (k : Kernel) : Kernel := { k with interruptFlag := false }
def sti (k : Kernel) : Kernel := { k with interruptFlag := true }

/-- `*scheduled_terminal`. -/
def scheduled (k : Kernel) : Terminal := k.terminalList k.scheduledTerminal

/-- `set_up_paging` enters its critical section with `cli` and always leaves it with `sti`. -/
def setUpPaging (pid : Word) (k : Kernel) : Kernel :=
  { k with paging := k.paging.setUpPaging pid, interruptFlag := true }

/-- An address that the kernel can store to. -/
def mapped (env : Env) (k : Kernel) (a : Word) : Bool :=
  (k.paging.translate env.layout false a).isSome

/-! ### `determine_which_pcb_empty` -/

def determineWhichPcbEmpty (k : Kernel) : Option Slot :=
  (List.finRange 6).find? fun s => (k.pcbs s).active = 0#32

/-! ### `create_pcb` -/

/-- The descriptor table, the process id and the argument. -/
def createFields (s : Slot) (pid : Word) (argument : List Byte) (k : Kernel) : Kernel :=
  k.updatePcb s fun p =>
    { p with fileDescriptor := createTable, pid := pid, argument := argument }

def createTssEsp0 (s : Slot) (k : Kernel) : Kernel :=
  k.updatePcb s fun p => { p with tssEsp0 := k.tss.esp0 }

def createTid (s : Slot) (k : Kernel) : Kernel :=
  k.updatePcb s fun p => { p with tid := k.scheduled.tid }

def createActive (s : Slot) (k : Kernel) : Kernel :=
  k.updatePcb s fun p => { p with active := 1#32 }

def createEsp0 (s : Slot) (pid : Word) (k : Kernel) : Kernel :=
  k.updatePcb s fun p => { p with esp0 := kernelStackTop pid }

/-- The first process of a terminal has no parent; dereferencing a null `curr_pcb` faults. -/
def createParentId (s : Slot) (k : Kernel) : Except Kernel Kernel :=
  if k.scheduled.countPcb = 0#32 then
    .ok (k.updatePcb s fun p => { p with parentId := noPid })
  else
    match k.currPcb with
    | none   => .error k
    | some c => .ok (k.updatePcb s fun p => { p with parentId := (k.pcbs c).pid })

def createCountPcb (k : Kernel) : Kernel :=
  k.updateTerminal k.scheduledTerminal fun t => { t with countPcb := t.countPcb + 1#32 }

def createPcb (s : Slot) (pid : Word) (argument : List Byte) (k : Kernel) :
    Except Kernel Kernel :=
  let k := (k.createFields s pid argument).createTssEsp0 s
  let k := ((k.createTid s).createActive s).createEsp0 s pid
  (k.createParentId s).map createCountPcb

/-! ### `context_switch` -/

def contextSwitch (s : Slot) (k : Kernel) : Kernel :=
  { k with tss := ⟨(k.pcbs s).esp0, kernelDs⟩ }

/-! ### Projections -/

section

variable (k : Kernel) (s s' : Slot) (t t' : Tid) (f : Pcb → Pcb) (g : Terminal → Terminal)
  (pid : Word)

@[simp] lemma updatePcb_pcbs :
    (k.updatePcb s f).pcbs = Function.update k.pcbs s (f (k.pcbs s)) := rfl
@[simp] lemma updatePcb_terminalList : (k.updatePcb s f).terminalList = k.terminalList := rfl
@[simp] lemma updatePcb_scheduledTerminal :
    (k.updatePcb s f).scheduledTerminal = k.scheduledTerminal := rfl
@[simp] lemma updatePcb_currPcb : (k.updatePcb s f).currPcb = k.currPcb := rfl
@[simp] lemma updatePcb_pid : (k.updatePcb s f).pid = k.pid := rfl
@[simp] lemma updatePcb_tss : (k.updatePcb s f).tss = k.tss := rfl
@[simp] lemma updatePcb_paging : (k.updatePcb s f).paging = k.paging := rfl
@[simp] lemma updatePcb_interruptFlag :
    (k.updatePcb s f).interruptFlag = k.interruptFlag := rfl
@[simp] lemma updatePcb_scheduled : (k.updatePcb s f).scheduled = k.scheduled := rfl

@[simp] lemma updateTerminal_pcbs : (k.updateTerminal t g).pcbs = k.pcbs := rfl
@[simp] lemma updateTerminal_terminalList : (k.updateTerminal t g).terminalList =
    Function.update k.terminalList t (g (k.terminalList t)) := rfl
@[simp] lemma updateTerminal_scheduledTerminal :
    (k.updateTerminal t g).scheduledTerminal = k.scheduledTerminal := rfl
@[simp] lemma updateTerminal_currPcb : (k.updateTerminal t g).currPcb = k.currPcb := rfl
@[simp] lemma updateTerminal_pid : (k.updateTerminal t g).pid = k.pid := rfl
@[simp] lemma updateTerminal_tss : (k.updateTerminal t g).tss = k.tss := rfl
@[simp] lemma updateTerminal_paging : (k.updateTerminal t g).paging = k.paging := rfl
@[simp] lemma updateTerminal_interruptFlag :
    (k.updateTerminal t g).interruptFlag = k.interruptFlag := rfl

@[simp] lemma setUpPaging_pcbs : (k.setUpPaging pid).pcbs = k.pcbs := rfl
@[simp] lemma setUpPaging_terminalList : (k.setUpPaging pid).terminalList = k.terminalList := rfl
@[simp] lemma setUpPaging_scheduledTerminal :
    (k.setUpPaging pid).scheduledTerminal = k.scheduledTerminal := rfl
@[simp] lemma setUpPaging_currPcb : (k.setUpPaging pid).currPcb = k.currPcb := rfl
@[simp] lemma setUpPaging_pid : (k.setUpPaging pid).pid = k.pid := rfl
@[simp] lemma setUpPaging_tss : (k.setUpPaging pid).tss = k.tss := rfl
@[simp] lemma setUpPaging_paging : (k.setUpPaging pid).paging = k.paging.setUpPaging pid := rfl
@[simp] lemma setUpPaging_interruptFlag : (k.setUpPaging pid).interruptFlag = true := rfl
@[simp] lemma setUpPaging_scheduled : (k.setUpPaging pid).scheduled = k.scheduled := rfl

end

/-- The slot that is found is the first that is not active. -/
lemma determineWhichPcbEmpty_eq_some {k : Kernel} {s : Slot}
    (h : k.determineWhichPcbEmpty = some s) : ¬ (k.pcbs s).Active := by
  have hs := List.find?_some h
  rw [decide_eq_true_eq] at hs
  exact not_not.mpr hs

lemma determineWhichPcbEmpty_eq_none {k : Kernel} :
    k.determineWhichPcbEmpty = none ↔ ∀ s, (k.pcbs s).Active := by
  simp [determineWhichPcbEmpty, Pcb.Active]

/-- The slot that is found is the first of the free ones. -/
lemma determineWhichPcbEmpty_le {k : Kernel} {n m : Slot} (h : k.determineWhichPcbEmpty = some n)
    (hm : ¬ (k.pcbs m).Active) : n ≤ m := by
  rw [determineWhichPcbEmpty, List.find?_eq_some_iff_append] at h
  obtain ⟨-, before, after, hlist, hbefore⟩ := h
  have hmem := List.mem_finRange m
  have hsorted := List.pairwise_lt_finRange 6
  rw [hlist] at hmem hsorted
  rcases List.mem_append.mp hmem with hin | hin
  · have hfree := hbefore m hin
    rw [Pcb.Active, not_not] at hm
    simp [hm] at hfree
  · rcases List.mem_cons.mp hin with rfl | hin
    · exact le_refl m
    · exact (List.rel_of_pairwise_cons (List.pairwise_append.mp hsorted).2.1 hin).le

end Kernel

end Osgods
