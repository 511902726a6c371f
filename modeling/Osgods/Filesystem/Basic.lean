import Osgods.Types
import Osgods.Library.ByteCopy

/-!
# The file system image (`filesystem.c`)

An image is what `boot_block`, `inodes` and `data_block` point to. Its arrays are total functions,
so whatever lies behind their ends can be read as well; the bytes of `data` are addressed relative
to `data_block`.
-/

namespace Osgods

open ByteCopy

/-- `dentry_t`. -/
structure Dentry where
  fileName        : List Byte
  fileName_length : fileName.length = 32
  fileType        : Word
  inodeId         : Word

/-- `inode_t`. -/
structure Inode where
  length     : Word
  dataBlocks : ℕ → Word

/-- `boot_block_t`, with the inodes and data blocks behind it. -/
structure Image where
  numDirEntries : Word
  numInodes     : Word
  numDataBlocks : Word
  dirEntries    : ℕ → Dentry
  inodes        : Word → Inode
  data          : Word → Byte

abbrev fileNameSize : ℕ := 32
abbrev blockSize    : ℕ := 4096

/-! ### Names -/

/-- The characters of a string up to its terminator. -/
def cString (s : List Byte) : List Byte := s.takeWhile (· ≠ 0#8)

/-- `strncmp` of `lib.c` from index `i` on, with `n` characters to go. A string is the list of its
characters; its terminator is what follows them. -/
def strncmpFrom (s₁ s₂ : List Byte) : ℕ → ℕ → ℤ
  | _, 0     => 0
  | i, n + 1 =>
    if s₁.getD i 0 ≠ s₂.getD i 0 ∨ s₁.getD i 0 = 0 then
      (s₁.getD i 0).toInt - (s₂.getD i 0).toInt
    else strncmpFrom s₁ s₂ (i + 1) n

def strncmp (s₁ s₂ : List Byte) (n : ℕ) : ℤ := strncmpFrom s₁ s₂ 0 n

/-- The first directory entry with the given name. The loop counts up to a signed number. -/
def readDentryByName (img : Image) (fname : List Byte) : Option Dentry :=
  ((List.range img.numDirEntries.toInt.toNat).map img.dirEntries).find? fun d =>
    strncmp d.fileName fname fileNameSize = 0

/-- What is found is one of the entries. -/
lemma readDentryByName_eq_some {img : Image} {fname : List Byte} {d : Dentry}
    (h : readDentryByName img fname = some d) :
    ∃ i < img.numDirEntries.toInt.toNat, d = img.dirEntries i := by
  obtain ⟨i, hi, rfl⟩ := List.mem_map.mp (List.mem_of_find?_eq_some h)
  exact ⟨i, List.mem_range.mp hi, rfl⟩

def readDentryByIndex (img : Image) (index : Word) : Option Dentry :=
  if img.numDirEntries - 1 < index then none else some (img.dirEntries index.toNat)

/-! ### Contents -/

/-- Where a block of a file lies, relative to `data_block`. -/
def Image.blockAddress (img : Image) (inode : Word) (i : ℕ) : Word :=
  (img.inodes inode).dataBlocks i * 4096#32

/-- The loop over whole blocks and the final copy of `read_data`. The comparison is signed. -/
def readBlocks (img : Image) (inode buf readLength : Word) (blockOffset : ℕ) : List (Copy 32) :=
  let src := img.blockAddress inode blockOffset
  if _ : (4096#32).slt readLength then
    ⟨buf, src, 4096#32⟩ ::
      readBlocks img inode (buf + 4096#32) (readLength - 4096#32) (blockOffset + 1)
  else [⟨buf, src, readLength⟩]
termination_by readLength.toNat
decreasing_by
  simp only [BitVec.slt_eq_decide, BitVec.toInt_eq_toNat_cond] at *
  rw [BitVec.toNat_sub_of_le] <;> simp [BitVec.le_def] at * <;> omega

/-- The result of `read_data` and the copies it makes. -/
def readData (img : Image) (inode offset buf length : Word) : Word × List (Copy 32) :=
  if img.numInodes - 1 < inode ∨ buf = 0#32 then (-1, [])
  else
    let fileLength := (img.inodes inode).length
    if fileLength ≤ offset then (0, [])
    else
      let length := if fileLength < offset + length then fileLength - offset else length
      let blockOffset := offset.toNat / blockSize
      let byteOffset := offset % 4096#32
      let src := img.blockAddress inode blockOffset + byteOffset
      if length.sle (4096#32 - byteOffset) then (length, [⟨buf, src, length⟩])
      else
        (length, ⟨buf, src, 4096#32 - byteOffset⟩ ::
          readBlocks img inode (buf + (4096#32 - byteOffset)) (length - (4096#32 - byteOffset))
            (blockOffset + 1))

/-- What the copies of `read_data` store. -/
def Image.stores (img : Image) (cs : List (Copy 32)) : List (Word × Byte) :=
  cs.flatMap (Copy.stores img.data)

/-! ### A small image -/

/-- A string of at most 32 characters as a file name, padded with zeros. -/
def padName (name : List Byte) (h : name.length ≤ 32) : { l : List Byte // l.length = 32 } :=
  ⟨name ++ List.replicate (32 - name.length) 0#8, by simp; omega⟩

def shellName : List Byte := [0x73, 0x68, 0x65, 0x6c, 0x6c]
def rtcName   : List Byte := [0x72, 0x74, 0x63]

def Dentry.make (name : { l : List Byte // l.length = 32 }) (type inodeId : Word) : Dentry :=
  ⟨name.1, name.2, type, inodeId⟩

/-- A directory, the RTC device, and a program `shell` of 40 bytes with its entry point at
`0x08048000`. -/
def smallImage : Image where
  numDirEntries := 3
  numInodes     := 1
  numDataBlocks := 1
  dirEntries    := fun
    | 0 => .make (padName [0x2e] (by decide)) 1 0
    | 1 => .make (padName rtcName (by decide)) 0 0
    | _ => .make (padName shellName (by decide)) 2 0
  inodes        := fun _ => ⟨40, fun _ => 0⟩
  data          := fun a => ([0x7f, 0x45, 0x4c, 0x46] ++ List.replicate 20 0 ++
    [0x00, 0x80, 0x04, 0x08] : List Byte).getD a.toNat 0

end Osgods
