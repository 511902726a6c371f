import Osgods.Filesystem.ReadData

/-!
# Programs (`parse_cmd` and the checks of `execute`)

What `execute` finds out about a command before it changes anything: its two words, the file that
the first one names, and the entry point of that file.
-/

namespace Osgods

open ByteCopy

/-! ### `parse_cmd` -/

def space : Byte := 0x20

/-- The first word of a command, and what follows it. -/
def splitWord (s : List Byte) : List Byte × List Byte :=
  let s := s.dropWhile (· = space)
  (s.takeWhile (· ≠ space), s.dropWhile (· ≠ space))

abbrev maxArgumentSize : ℕ := 128

/-- `parse_cmd`: the strings it leaves in `filename` and `argument`. -/
def parseCmd (command : List Byte) : Option (List Byte × List Byte) :=
  let (filename, rest) := splitWord (cString command)
  let (argument, _) := splitWord rest
  if maxArgumentSize < argument.length then none
  else some (filename ++ [0#8], argument ++ [0#8])

/-- A command whose words fit the buffers of `execute`, terminators included. -/
structure Command where
  text     : List Byte
  filename : (splitWord (cString text)).1.length < fileNameSize
  argument : (splitWord (splitWord (cString text)).2).1.length < maxArgumentSize

/-- The command `"shell"` that the kernel itself executes. -/
def shellCommand : Command := ⟨shellName, by decide, by decide⟩

/-! ### The executable -/

def exeMagicTable : List Byte := [0x7f, 0x45, 0x4c, 0x46]

/-- Where a local buffer of `execute` lies. `read_data` only asks whether it is null. -/
def localBuffer : Word := 0x7ff000

/-- `read_data` into a local buffer, if it fills the buffer. -/
def readLocal (img : Image) (inode offset length : Word) : Option (List Byte) :=
  let r := readData img inode offset localBuffer length
  if length ≠ r.1 then none else some ((img.stores r.2).map Prod.snd)

structure Program where
  dentry    : Dentry
  argument  : List Byte
  targetEip : Word

/-- A little-endian number. -/
def wordOfBytes (l : List Byte) : Word :=
  l.getD 3 0 ++ l.getD 2 0 ++ l.getD 1 0 ++ l.getD 0 0

/-- The part of `execute` between `parse_cmd` and `set_up_paging`. -/
def checkExecutable (img : Image) (command : List Byte) : Option Program :=
  match parseCmd command with
  | none                      => none
  | some (filename, argument) =>
    match readDentryByName img filename with
    | none        => none
    | some dentry =>
      match readLocal img dentry.inodeId 0#32 40#32 with
      | none     => none
      | some buf =>
        if strncmp buf exeMagicTable 4 ≠ 0 then none
        else
          match readLocal img dentry.inodeId 24#32 4#32 with
          | none     => none
          | some eip => some ⟨dentry, argument, wordOfBytes eip⟩

/-! ### Loading -/

def programImageAddress : Word := 0x08048000

/-- `inodes[dentry.inode_id].length`. -/
def Program.length (img : Image) (p : Program) : Word := (img.inodes p.dentry.inodeId).length

/-- The call of `read_data` that loads a program. -/
def Program.load (img : Image) (p : Program) : Word × List (Copy 32) :=
  readData img p.dentry.inodeId 0#32 programImageAddress (p.length img)

/-- The program fits what is left of the user page. -/
def Program.Fits (img : Image) (p : Program) : Prop :=
  programImageAddress.toNat + (p.length img).toNat ≤ mb132

instance (img : Image) (p : Program) : Decidable (p.Fits img) := inferInstanceAs (Decidable (_ ≤ _))

section

variable {img : Image} {command : List Byte} {p : Program}

lemma readLocal_isSome {inode offset length : Word} {l : List Byte}
    (h : readLocal img inode offset length = some l) :
    length = (readData img inode offset localBuffer length).1 := by
  simp only [readLocal] at h
  split_ifs at h with hlen
  exact not_not.mp hlen

/-- The file of a program that passed the checks exists and is not empty. -/
lemma checkExecutable_inode (h : checkExecutable img command = some p) :
    p.dentry.inodeId ≤ img.numInodes - 1 ∧ p.length img ≠ 0#32 := by
  unfold checkExecutable at h
  split at h
  · cases h
  · split at h
    · cases h
    · split at h
      · cases h
      · next dentry _ _ buf hread =>
        split_ifs at h
        split at h
        · cases h
        · cases h
          have hlen := readLocal_isSome hread
          have hinode : dentry.inodeId ≤ img.numInodes - 1 := by
            by_contra hlt
            rw [readData_fail (Or.inl (BitVec.not_le.mp hlt))] at hlen
            exact absurd hlen (by decide)
          refine ⟨hinode, fun hzero => ?_⟩
          rw [readData_length hinode (by decide)] at hlen
          have hcount := readLength_toNat img dentry.inodeId
            (show (0#32).toNat + (40#32).toNat < 2 ^ 32 by decide)
          rw [Program.length] at hzero
          rw [← hlen, hzero] at hcount
          exact absurd hcount (by decide)

/-- Reading a file from its start over its length. -/
lemma readLength_full (p : Program) :
    img.readLength p.dentry.inodeId 0#32 (p.length img) = p.length img := by
  have hlt := (p.length img).isLt
  apply BitVec.eq_of_toNat_eq
  rw [readLength_toNat _ _ (by simpa using hlt)]
  simp [Program.length]

/-- Loading reads the whole file. -/
lemma load_length (h : checkExecutable img command = some p) : (p.load img).1 = p.length img := by
  obtain ⟨hinode, -⟩ := checkExecutable_inode h
  rw [Program.load, readData_length hinode (by decide), readLength_full]

/-- What loading a program that fits stores. -/
lemma stores_load (h : checkExecutable img command = some p) (hfits : p.Fits img) :
    img.stores (p.load img).2 =
      fill programImageAddress (p.length img).toNat (img.byteAt p.dentry.inodeId) := by
  obtain ⟨hinode, hne⟩ := checkExecutable_inode h
  have haddr : programImageAddress.toNat = 0x08048000 := rfl
  rw [Program.Fits, haddr, mb132] at hfits
  have hbound : (img.readLength p.dentry.inodeId 0#32 (p.length img)).toNat < 2 ^ 31 := by
    rw [readLength_full]
    omega
  obtain ⟨-, hstores⟩ := readData_spec hinode
    (show programImageAddress ≠ 0#32 by decide) hbound
  rw [readLength_full] at hstores
  rw [Program.load, hstores]
  exact fill_congr fun i _ => by simp

/-- Loading stores every byte of the file; a length of 2 GB or more is taken as one block. -/
lemma exists_store_load (h : checkExecutable img command = some p) {i : ℕ}
    (hi : i < (p.length img).toNat) :
    ∃ b, (programImageAddress + BitVec.ofNat 32 i, b) ∈ img.stores (p.load img).2 := by
  obtain ⟨hinode, hne⟩ := checkExecutable_inode h
  by_cases hbound : (p.length img).toNat < 2 ^ 31
  · obtain ⟨-, hstores⟩ := readData_spec hinode (show programImageAddress ≠ 0#32 by decide)
      (by rwa [readLength_full])
    rw [readLength_full] at hstores
    rw [Program.load, hstores]
    exact ⟨_, mem_fill.mpr ⟨i, hi, rfl⟩⟩
  · have hcheck : ¬ (img.numInodes - 1 < p.dentry.inodeId ∨ programImageAddress = 0#32) := by
      rintro (hlt | hzero)
      · exact absurd hinode (BitVec.not_le.mpr hlt)
      · exact absurd hzero (by decide)
    have hend : ¬ (img.inodes p.dentry.inodeId).length ≤ 0#32 := fun hle =>
      hne (BitVec.le_zero_iff.mp hle)
    have hneg : (p.length img).sle (4096#32 - 0#32 % 4096#32) = true := by
      rw [BitVec.sle_eq_decide, decide_eq_true_eq, BitVec.toInt_eq_toNat_cond]
      have hlt := (p.length img).isLt
      rw [if_neg (by omega)]
      have hpos : (0 : ℤ) ≤ (4096#32 - 0#32 % 4096#32).toInt := by decide
      omega
    have hload : (p.load img).2 = [⟨programImageAddress,
        img.blockAddress p.dentry.inodeId ((0#32).toNat / blockSize) + 0#32 % 4096#32,
        p.length img⟩] := by
      have hwhole : ¬ (img.inodes p.dentry.inodeId).length < 0#32 + p.length img := by
        rw [BitVec.zero_add]
        exact BitVec.lt_irrefl _
      rw [Program.load, readData, if_neg hcheck]
      simp only [if_neg hend, if_neg hwhole]
      rw [if_pos hneg]
    rw [hload, stores_cons]
    exact ⟨_, List.mem_append_left _ (mem_fill.mpr ⟨i, hi, rfl⟩)⟩

/-- A program that fits is loaded into the user page. -/
lemma mem_stores_load (h : checkExecutable img command = some p) (hfits : p.Fits img)
    {s : Word × Byte} (hs : s ∈ img.stores (p.load img).2) :
    mb128 ≤ s.1.toNat ∧ s.1.toNat < mb132 := by
  have haddr : programImageAddress.toNat = 0x08048000 := rfl
  rw [stores_load h hfits] at hs
  obtain ⟨i, hi, rfl⟩ := mem_fill.mp hs
  rw [Program.Fits, haddr, mb132] at hfits
  rw [BitVec.toNat_add, BitVec.toNat_ofNat, haddr, mb128, mb132]
  omega

end

end Osgods
