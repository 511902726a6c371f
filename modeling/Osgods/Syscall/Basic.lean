import Osgods.Filesystem.Basic
import Osgods.Library.BitField

/-!
# Descriptor system calls (`syscall.c`, and the operations behind the tables)

The calls of one process, on its descriptor table and on the memory it sees. A read stores through
the pointer it is given, and the descriptor table lies in that same address space: `Task.store`
applies a store to both. A call that would wait, fault or jump through a stray function pointer has
no result.
-/

namespace Osgods

open ByteCopy

abbrev FileTable := Fd → FileObject

/-! ### Operation tables -/

def stdinTable  : FileOpTable := ⟨.terminalOpen, .terminalRead, .terminalBadWrite, .terminalClose⟩
def stdoutTable : FileOpTable := ⟨.terminalOpen, .terminalBadRead, .terminalWrite, .terminalClose⟩
def rtcTable    : FileOpTable := ⟨.rtcOpen, .rtcRead, .rtcWrite, .rtcClose⟩
def dirTable    : FileOpTable := ⟨.dirOpen, .dirRead, .dirWrite, .dirClose⟩
def fileTable   : FileOpTable := ⟨.fileOpen, .fileRead, .fileWrite, .fileClose⟩
def failTable1  : FileOpTable := ⟨.fail1, .fail1, .fail1, .fail1⟩

def rtcType  : Word := 0
def dirType  : Word := 1
def fileType : Word := 2

/-- What `create_pcb` clears an entry to. -/
def FileObject.zero : FileObject := ⟨⟨.null, .null, .null, .null⟩, 0#32, 0#32, 0#32⟩

/-- The table that `create_pcb` gives a process. -/
def createTable : FileTable :=
  Function.update (Function.update (fun _ => .zero)
    0 ⟨stdinTable, 0#32, 0#32, 1#32⟩) 1 ⟨stdoutTable, 0#32, 0#32, 1#32⟩

/-! ### Stores -/

/-- What a process's calls depend on: the image, the slot of its PCB, and the addresses that the
kernel can store to or read from without a page fault. -/
structure FileEnv where
  img    : Image
  slot   : Slot
  mapped : Word → Bool

/-- The address of `file_descriptor[0]`, behind `pid` and `parent_id`. -/
def FileEnv.tableAddress (E : FileEnv) : Word := pcbAddress E.slot + 8#32

abbrev fileObjectSize : ℕ := 28
abbrev fileTableSize  : ℕ := 8 * fileObjectSize

structure Task where
  table : FileTable
  mem   : Word → Byte

/-- A byte stored over a descriptor, `off` bytes from its start. -/
def FileObject.patch (o : FileObject) (off : ℕ) (b : Byte) : FileObject :=
  let setByte w := BitField.set w (8 * (off % 4)) 8 (b.setWidth 32)
  match off / 4 with
  | 0 => { o with fileOpTb.openFn := .wild }
  | 1 => { o with fileOpTb.readFn := .wild }
  | 2 => { o with fileOpTb.writeFn := .wild }
  | 3 => { o with fileOpTb.closeFn := .wild }
  | 4 => { o with inode := setByte o.inode }
  | 5 => { o with filePosition := setByte o.filePosition }
  | _ => { o with flag := setByte o.flag }

/-- A store seen by the descriptor table at the address `base`. -/
def FileTable.patch (base : Word) (t : FileTable) (s : Word × Byte) : FileTable :=
  let off := (s.1 - base).toNat
  if h : off < fileTableSize then
    let fd : Fd := ⟨off / fileObjectSize, Nat.div_lt_of_lt_mul (by simpa [Nat.mul_comm] using h)⟩
    Function.update t fd ((t fd).patch (off % fileObjectSize) s.2)
  else t

def Task.store (E : FileEnv) (l : List (Word × Byte)) (τ : Task) : Task where
  table := l.foldl (FileTable.patch E.tableAddress) τ.table
  mem   := storeAll τ.mem l

/-- Stores, unless one of them faults. -/
def Task.store? (E : FileEnv) (l : List (Word × Byte)) (τ : Task) : Option Task :=
  if l.all fun s => E.mapped s.1 then some (τ.store E l) else none

def Task.setPosition (fd : Fd) (p : Word) (τ : Task) : Task :=
  { τ with table := Function.update τ.table fd { τ.table fd with filePosition := p } }

/-! ### `open` and `close` -/

/-- The loop of `open`: `none` is its early return, and `fd` is 0 if the loop runs out. -/
def findFree (t : FileTable) : List Fd → Option Fd
  | []      => some 0
  | i :: is =>
    if i = 7 ∧ (t i).flag = 1#32 then none
    else if (t i).flag = 0#32 then some i
    else findFree t is

/-- What `open` makes of a free descriptor. -/
def openObject (d : Dentry) : FileObject where
  fileOpTb     := if d.fileType = rtcType then rtcTable
    else if d.fileType = dirType then dirTable else fileTable
  inode        := if d.fileType = rtcType then -1#32
    else if d.fileType = fileType then d.inodeId else 0#32
  filePosition := 0#32
  flag         := 1#32

/-- The `open` functions of the three kinds, called last, leave the table alone. -/
def openCall (img : Image) (filename : Option (List Byte)) (t : FileTable) : Word × FileTable :=
  match findFree t (List.finRange 8) with
  | none    => (-1#32, t)
  | some fd =>
    match filename with
    | none       => (-1#32, t)
    | some fname =>
      match readDentryByName img fname with
      | none   => (-1#32, t)
      | some d =>
        if d.fileType.slt rtcType ∨ fileType.slt d.fileType then (-1#32, t)
        else (BitVec.ofNat 32 fd, Function.update t fd (openObject d))

/-- A descriptor number within `0 .. MAX_FILE_NUM - 1`; a negative one is a large unsigned one. -/
def fdOf (fd : Word) : Option Fd :=
  if h : fd.toNat < 8 then some ⟨fd.toNat, h⟩ else none

/-- What `close` makes of a descriptor. -/
def closeObject : FileObject := ⟨failTable1, 0#32, 0#32, 0#32⟩

def closeCall (fd : Word) (t : FileTable) : Word × FileTable :=
  match fdOf fd with
  | none   => (-1#32, t)
  | some i =>
    if i.val < 2 then (-1#32, t)
    else if (t i).flag = 0#32 then (-1#32, t)
    else (0#32, Function.update t i closeObject)

/-! ### `read` -/

def fileRead (E : FileEnv) (fd : Fd) (buf nbytes : Word) (τ : Task) : Option (Word × Task) :=
  let r := readData E.img (τ.table fd).inode (τ.table fd).filePosition buf nbytes
  (τ.store? E (E.img.stores r.2)).map fun τ' =>
    if r.1.slt 0#32 then (-1#32, τ')
    else (r.1, τ'.setPosition fd ((τ'.table fd).filePosition + r.1))

/-- All 32 bytes of a name are copied, whatever `nbytes` is. -/
def dirRead (E : FileEnv) (fd : Fd) (buf nbytes : Word) (τ : Task) : Option (Word × Task) :=
  match readDentryByIndex E.img (τ.table fd).filePosition with
  | none   => some (0#32, τ)
  | some d =>
    (τ.store? E (fill buf fileNameSize fun i => d.fileName.getD i 0)).map fun τ' =>
      let p := (τ'.table fd).filePosition + 1#32
      (if p.slt 63#32 then nbytes else 0#32, τ'.setPosition fd p)

/-- `rtc_read` waits for the interrupt handler to count. -/
def rtcRead (fd : Fd) (τ : Task) : Option (Word × Task) :=
  if (τ.table fd).filePosition = 0#32 then none
  else some (0#32, τ.setPosition fd 0#32)

/-- `key_buffer` and `keyb_index` when the wait of `terminal_read` ends. -/
structure KeyBuffer where
  keyBuffer : ℕ → Byte
  keybIndex : ℕ

def terminalRead (E : FileEnv) (keys : KeyBuffer) (buf : Word) (τ : Task) : Option (Word × Task) :=
  if 128 ≤ keys.keybIndex then some (0#32, τ)
  else
    (τ.store? E (fill buf keys.keybIndex keys.keyBuffer ++
      [(buf + BitVec.ofNat 32 keys.keybIndex, 0#8)])).map fun τ' =>
        (BitVec.ofNat 32 keys.keybIndex, τ')

/-- `file_op_tb.read(fd, buf, nbytes)`. -/
def callRead (E : FileEnv) (keys : KeyBuffer) (fd : Fd) (buf nbytes : Word) (τ : Task) :
    Option (Word × Task) :=
  match (τ.table fd).fileOpTb.readFn with
  | .terminalRead    => terminalRead E keys buf τ
  | .terminalBadRead => some (-1#32, τ)
  | .rtcRead         => rtcRead fd τ
  | .dirRead         => dirRead E fd buf nbytes τ
  | .fileRead        => fileRead E fd buf nbytes τ
  | .fail1           => some (-1#32, τ)
  | _                => none

def readCall (E : FileEnv) (keys : KeyBuffer) (fd buf nbytes : Word) (τ : Task) :
    Option (Word × Task) :=
  match fdOf fd with
  | none   => some (-1#32, τ)
  | some i =>
    if buf = 0#32 ∨ nbytes.slt 0#32 then some (-1#32, τ)
    else if (τ.table i).flag = 0#32 then some (-1#32, τ)
    else callRead E keys i buf nbytes τ

/-! ### `write` -/

/-- Four bytes of memory as a number. -/
def loadWord (mem : Word → Byte) (p : Word) : Word :=
  mem (p + 3#32) ++ mem (p + 2#32) ++ mem (p + 1#32) ++ mem p

/-- The bytes `p`, …, `p + n - 1` can be read. -/
def FileEnv.readable (E : FileEnv) (p : Word) (n : ℕ) : Bool :=
  (List.range n).all fun i => E.mapped (p + BitVec.ofNat 32 i)

def rtcWrite (E : FileEnv) (buf nbytes : Word) (τ : Task) : Option Word :=
  if nbytes ≠ 4#32 ∨ buf = 0#32 then some (-1#32)
  else if ¬ E.readable buf 4 then none
  else
    let frequency := loadWord τ.mem buf
    if frequency.slt 2#32 ∨ (1024#32).slt frequency then some (-1#32)
    else if frequency &&& (frequency - 1#32) ≠ 0#32 then some (-1#32)
    else some 4#32

/-- `file_op_tb.write(fd, buf, nbytes)`. -/
def callWrite (E : FileEnv) (fd : Fd) (buf nbytes : Word) (τ : Task) : Option Word :=
  match (τ.table fd).fileOpTb.writeFn with
  | .terminalWrite    => if E.readable buf nbytes.toNat then some nbytes else none
  | .terminalBadWrite => some (-1#32)
  | .rtcWrite         => rtcWrite E buf nbytes τ
  | .dirWrite         => some (-1#32)
  | .fileWrite        => some (-1#32)
  | .fail1            => some (-1#32)
  | _                 => none

def writeCall (E : FileEnv) (fd buf nbytes : Word) (τ : Task) : Option Word :=
  match fdOf fd with
  | none   => some (-1#32)
  | some i =>
    if buf = 0#32 ∨ nbytes.slt 0#32 then some (-1#32)
    else if (τ.table i).flag = 0#32 then some (-1#32)
    else callWrite E i buf nbytes τ

/-! ### The RTC interrupt -/

/-- The turn of one active process in `rtc_intr_handler`: its first RTC descriptor counts. -/
def rtcTick (t : FileTable) : FileTable :=
  match (List.finRange 8).find? fun fd => (t fd).inode = -1#32 ∧ (t fd).flag = 1#32 with
  | none    => t
  | some fd => Function.update t fd { t fd with filePosition := (t fd).filePosition + 1#32 }

/-! ### One process between its calls -/

inductive Call where
  | open (filename : Option (List Byte))
  | close (fd : Word)
  | read (fd buf nbytes : Word) (keys : KeyBuffer)
  | write (fd buf nbytes : Word)
  | rtcInterrupt

/-- The result of a call (none for an interrupt) and the task after it. -/
def Task.step (E : FileEnv) (τ : Task) : Call → Option (Option Word × Task)
  | .open filename =>
    let r := openCall E.img filename τ.table
    some (some r.1, { τ with table := r.2 })
  | .close fd =>
    let r := closeCall fd τ.table
    some (some r.1, { τ with table := r.2 })
  | .read fd buf nbytes keys => (readCall E keys fd buf nbytes τ).map fun r => (some r.1, r.2)
  | .write fd buf nbytes     => (writeCall E fd buf nbytes τ).map fun r => (some r, τ)
  | .rtcInterrupt            => some (none, { τ with table := rtcTick τ.table })

end Osgods
