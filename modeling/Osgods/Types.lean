import Mathlib.Tactic.Common
import Mathlib.Data.Fin.Basic
import Mathlib.Logic.Function.Basic
import Mathlib.Data.Fintype.Pi
import Mathlib.Algebra.GroupWithZero.Nat

/-!
# Data types of the kernel (`types.h`, `x86_desc.h`)

Machine words are `BitVec 32`; a signed comparison of the source is `BitVec.slt`/`BitVec.sle`, an
unsigned one `<`/`≤`. A pointer to one of the six PCBs or of the three terminals is its index.
-/

namespace Osgods

abbrev Byte := BitVec 8
abbrev Word := BitVec 32

/-- A pointer to one of the `MAX_PCB` PCBs: slot `i` lies at `8MB - 8KB * (i + 1)`. -/
abbrev Slot := Fin 6

/-- A pointer into `terminal_list`. -/
abbrev Tid := Fin 3

/-- An index into `file_descriptor`. -/
abbrev Fd := Fin 8

instance Tid.neZero : NeZero 3 := ⟨by decide⟩
instance Slot.neZero : NeZero 6 := ⟨by decide⟩
instance Fd.neZero : NeZero 8 := ⟨by decide⟩

abbrev kb4   : ℕ := 0x1000
abbrev kb8   : ℕ := 0x2000
abbrev mb4   : ℕ := 0x400000
abbrev mb8   : ℕ := 0x800000
abbrev mb128 : ℕ := 0x8000000
abbrev mb132 : ℕ := 0x8400000

/-- The process id stored in, and naming, a slot. -/
def slotWord (s : Slot) : Word := BitVec.ofNat 32 s

/-- The slot at `8MB - 8KB * (pid + 1)`, if that is one of the six. -/
def slotOf (pid : Word) : Option Slot :=
  if h : pid.toNat < 6 then some ⟨pid.toNat, h⟩ else none

@[simp] lemma slotWord_toNat (s : Slot) : (slotWord s).toNat = s := by
  simp only [slotWord, BitVec.toNat_ofNat]
  omega

@[simp] lemma slotOf_slotWord (s : Slot) : slotOf (slotWord s) = some s := by
  simp [slotOf]

lemma slotWord_injective : Function.Injective slotWord := by
  intro s t h
  have h' := congrArg slotOf h
  simpa using h'

/-- The value -1 of `pid` before the first `execute`, and of `parent_id` in a base shell. -/
def noPid : Word := -1#32

lemma slotWord_ne_noPid (s : Slot) : slotWord s ≠ noPid := by
  intro h
  have h' := congrArg BitVec.toNat h
  rw [slotWord_toNat] at h'
  have hlt := s.isLt
  simp only [noPid, BitVec.reduceNeg, BitVec.toNat_ofNat] at h'
  omega

lemma slotOf_eq_some {pid : Word} {s : Slot} : slotOf pid = some s ↔ pid = slotWord s := by
  constructor
  · intro h
    unfold slotOf at h
    split at h
    · cases h
      apply BitVec.eq_of_toNat_eq
      simp
    · cases h
  · rintro rfl
    exact slotOf_slotWord s

/-- Where a slot's PCB lies; the process's kernel stack is the rest of the 8 KB block above it. -/
def pcbAddress (s : Slot) : Word := BitVec.ofNat 32 (mb8 - kb8 * (s + 1))

/-- The addresses that a file operation table can hold; `wild` stands for whatever a stray store
into the table leaves there. -/
inductive FnPtr where
  | null
  | terminalOpen | terminalRead | terminalBadRead | terminalWrite | terminalBadWrite | terminalClose
  | rtcOpen | rtcRead | rtcWrite | rtcClose
  | dirOpen | dirRead | dirWrite | dirClose
  | fileOpen | fileRead | fileWrite | fileClose
  | fail1
  | wild
  deriving DecidableEq, Repr

/-- `file_operation_table_t`. -/
structure FileOpTable where
  openFn  : FnPtr
  readFn  : FnPtr
  writeFn : FnPtr
  closeFn : FnPtr
  deriving DecidableEq, Repr

/-- `file_object_t`. -/
structure FileObject where
  fileOpTb     : FileOpTable
  inode        : Word
  filePosition : Word
  flag         : Word
  deriving DecidableEq, Repr

/-- `pcb_t`. The argument is the text its pointer leads to. -/
structure Pcb where
  pid            : Word
  parentId       : Word
  fileDescriptor : Fd → FileObject
  savedEsp       : Word
  savedEbp       : Word
  esp0           : Word
  active         : Word
  argument       : List Byte
  tssEsp0        : Word
  tid            : Tid

/-- `terminal_t`, as far as processes, scheduling and video mapping go. -/
structure Terminal where
  tid          : Tid
  videoPage    : Word
  xCursor      : ℤ
  yCursor      : ℤ
  pcbPtr       : Option Slot
  countPcb     : Word
  nextTerminal : Option Tid
  vidmap       : Word

/-- The fields of the task state segment that the kernel uses. -/
structure Tss where
  esp0 : Word
  ss0  : BitVec 16

/-- The stack registers at the point where the code stores them. -/
structure Regs where
  esp : Word
  ebp : Word
  deriving DecidableEq, Repr

end Osgods
