import Osgods.Process.Execute
import Osgods.Filesystem.Lookup

/-!
# Commands and the files they name

For a command whose words fit the buffers, the checks of `execute` come down to the file that the
first word names: whether it is there, long enough, and begins with the magic number. `open` and
`execute` take a name for what it is as long as it does not go on after 32 characters.
-/

namespace Osgods

open ByteCopy

/-! ### The words of a command -/

namespace Command

def firstWord (c : Command) : List Byte := (splitWord (cString c.text)).1

def secondWord (c : Command) : List Byte := (splitWord (splitWord (cString c.text)).2).1

end Command

section

variable {img : Image} {c : Command} {d : Dentry} {inode offset length : Word} {l : List Byte}

lemma parseCmd_command :
    parseCmd c.text = some (c.firstWord ++ [0#8], c.secondWord ++ [0#8]) := by
  have hfits : ¬ maxArgumentSize < c.secondWord.length := Nat.not_lt.mpr c.argument.le
  simp only [Command.secondWord] at hfits
  simp only [parseCmd, if_neg hfits, Command.firstWord, Command.secondWord]

lemma cString_firstWord : cString (c.firstWord ++ [0#8]) = c.firstWord := by
  refine cString_append_zero fun hmem => ?_
  have hdrop := (List.takeWhile_sublist _).mem hmem
  exact zero_not_mem_cString ((List.dropWhile_sublist _).mem hdrop)

/-- The first word is looked up as a whole. -/
lemma readDentryByName_firstWord :
    readDentryByName img (c.firstWord ++ [0#8]) = img.firstNamed c.firstWord := by
  have hlen : (cString (c.firstWord ++ [0#8])).length ≤ fileNameSize := by
    rw [cString_firstWord]
    exact c.filename.le
  rw [readDentryByName_of_length_le hlen, cString_firstWord]

/-! ### The file -/

variable (inode) in
/-- A read into a local buffer is all or nothing. -/
lemma readLocal_eq (hne : img.numInodes ≠ 0#32) (hpos : 0 < length.toNat)
    (hlen : length.toNat < 2 ^ 31) (hwrap : offset.toNat + length.toNat < 2 ^ 32) :
    readLocal img inode offset length =
      if inode < img.numInodes ∧ offset.toNat + length.toNat ≤ (img.inodes inode).length.toNat
      then some (((img.content inode).drop offset.toNat).take length.toNat) else none := by
  by_cases hinode : inode < img.numInodes
  · have hcount := readLength_toNat img inode hwrap
    have hlt : (img.readLength inode offset length).toNat < 2 ^ 31 := by omega
    obtain ⟨hret, hstores⟩ := readData_spec (le_sub_one_of_lt hinode)
      (show localBuffer ≠ 0#32 by decide) hlt
    have hall : length = img.readLength inode offset length ↔
        offset.toNat + length.toNat ≤ (img.inodes inode).length.toNat := by
      rw [← BitVec.toNat_inj, hcount]
      omega
    simp only [readLocal, hret, hstores]
    by_cases hfits : offset.toNat + length.toNat ≤ (img.inodes inode).length.toNat
    · rw [if_neg (not_not.mpr (hall.mpr hfits)), if_pos ⟨hinode, hfits⟩, map_snd_fill,
        ← hall.mpr hfits, content_segment (by omega)]
    · rw [if_pos (mt hall.mp hfits), if_neg (fun h => hfits h.2)]
  · have hfail : img.numInodes - 1 < inode ∨ localBuffer = 0#32 :=
      Or.inl (BitVec.not_le.mp (mt (le_sub_one_iff hne).mp hinode))
    have hneg : length ≠ -1 := by
      rintro rfl
      exact absurd hlen (by decide)
    simp only [readLocal, readData_fail hfail]
    rw [if_pos hneg, if_neg (fun h => hinode h.1)]

lemma cString_append {s : List Byte} (h : 0#8 ∉ l) : cString (l ++ s) = l ++ cString s := by
  refine List.takeWhile_append_of_pos fun b hb => ?_
  simpa using ne_of_mem_of_not_mem hb h

/-- A buffer compared with a text, in as many characters as that has. -/
lemma strncmp_eq_zero_iff_take {s : List Byte} (h : 0#8 ∉ l) :
    strncmp s l l.length = 0 ↔ s.take l.length = l := by
  have hl : cString l = l := by
    rw [← List.append_nil l, cString_append h, List.append_nil]
    exact List.append_nil l
  rw [strncmp_eq_zero, hl, List.take_length]
  constructor
  · intro htake
    have hle : l.length ≤ (cString s).length := by
      have hlength := congrArg List.length htake
      rw [List.length_take] at hlength
      omega
    rw [← List.takeWhile_append_dropWhile (p := (· ≠ 0#8)) (l := s)]
    exact (List.take_append_of_le_length hle).trans htake
  · intro htake
    rw [← List.take_append_drop l.length s, htake, cString_append h, List.take_left]

/-- The file of a directory entry is an executable program. -/
def Image.Executable (img : Image) (d : Dentry) : Prop :=
  d.inodeId < img.numInodes ∧ 40 ≤ (img.inodes d.inodeId).length.toNat ∧
    (img.content d.inodeId).take 4 = exeMagicTable

instance (img : Image) (d : Dentry) : Decidable (img.Executable d) :=
  inferInstanceAs (Decidable (_ ∧ _ ∧ _))

/-- The little-endian word at offset 24. -/
def Image.entryPoint (img : Image) (d : Dentry) : Word :=
  wordOfBytes (((img.content d.inodeId).drop 24).take 4)

/-- What `execute` knows of a command once it has passed the checks. -/
def Command.program (c : Command) (img : Image) (d : Dentry) : Program :=
  ⟨d, c.secondWord ++ [0#8], img.entryPoint d⟩

/-- The first 40 bytes of a file. -/
lemma readLocal_header (hne : img.numInodes ≠ 0#32) : readLocal img inode 0#32 40#32 =
    if inode < img.numInodes ∧ 40 ≤ (img.inodes inode).length.toNat
      then some ((img.content inode).take 40) else none := by
  have hread := readLocal_eq inode hne (show 0 < (40#32).toNat by decide) (by decide)
    (show (0#32).toNat + (40#32).toNat < 2 ^ 32 by decide)
  simpa using hread

/-- The word at offset 24. -/
lemma readLocal_entry (hne : img.numInodes ≠ 0#32) : readLocal img inode 24#32 4#32 =
    if inode < img.numInodes ∧ 28 ≤ (img.inodes inode).length.toNat
      then some (((img.content inode).drop 24).take 4) else none := by
  have hread := readLocal_eq inode hne (show 0 < (4#32).toNat by decide) (by decide)
    (show (24#32).toNat + (4#32).toNat < 2 ^ 32 by decide)
  simpa using hread

lemma strncmp_header (l : List Byte) :
    strncmp (l.take 40) exeMagicTable 4 = 0 ↔ l.take 4 = exeMagicTable := by
  have hmagic : strncmp (l.take 40) exeMagicTable 4 = 0 ↔ (l.take 40).take 4 = exeMagicTable :=
    strncmp_eq_zero_iff_take (by decide)
  rwa [List.take_take] at hmagic

/-- What the checks of `execute` amount to. -/
lemma checkExecutable_command (hne : img.numInodes ≠ 0#32) :
    checkExecutable img c.text = (img.firstNamed c.firstWord).bind fun d =>
      if img.Executable d then some (c.program img d) else none := by
  simp only [checkExecutable, parseCmd_command, readDentryByName_firstWord]
  cases img.firstNamed c.firstWord with
  | none => rfl
  | some d =>
    simp only [readLocal_header hne, readLocal_entry hne, Option.bind_some]
    by_cases hlong : d.inodeId < img.numInodes ∧ 40 ≤ (img.inodes d.inodeId).length.toNat
    · simp only [if_pos hlong]
      by_cases hmagic : (img.content d.inodeId).take 4 = exeMagicTable
      · have hentry : d.inodeId < img.numInodes ∧ 28 ≤ (img.inodes d.inodeId).length.toNat :=
          ⟨hlong.1, by omega⟩
        rw [if_neg (not_not.mpr ((strncmp_header _).mpr hmagic)), if_pos hentry,
          if_pos ⟨hlong.1, hlong.2, hmagic⟩]
        rfl
      · rw [if_pos (mt (strncmp_header _).mp hmagic), if_neg (fun h => hmagic h.2.2)]
    · simp only [if_neg hlong]
      rw [if_neg (fun h => hlong ⟨h.1, h.2.1⟩)]

lemma checkExecutable_of_executable (hne : img.numInodes ≠ 0#32)
    (hd : img.firstNamed c.firstWord = some d) (hexec : img.Executable d) :
    checkExecutable img c.text = some (c.program img d) := by
  rw [checkExecutable_command hne, hd, Option.bind_some, if_pos hexec]

/-! ### Names -/

lemma named_of_checkExecutable (h : checkExecutable img c.text ≠ none) : img.Named c.firstWord := by
  by_contra hnot
  apply h
  simp only [checkExecutable, parseCmd_command, readDentryByName_firstWord,
    firstNamed_eq_none.mpr hnot]

end

/-- A name is taken for nothing but the whole name of a file. -/
structure ExactNames (img : Image) (fname : List Byte) : Prop where
  lookup : ExactLookup img fname
  opens  : ∀ t, (openCall img (some fname) t).1 ≠ -1#32 → img.Named (cString fname)
  starts : ∀ (env : Env) (k : Kernel) (c : Command) (regs : Regs) (s : Slot) (eip : Word)
    (k' : Kernel),
    env.img = img → c.firstWord = cString fname →
      k.execute env (some c.text) regs = .ok (.started s eip, k') → img.Named (cString fname)

section

variable {img : Image} {fname : List Byte}

/-- `open` only takes what the lookup finds. -/
lemma named_of_openCall (hnot : ¬ Truncated img fname) {t : FileTable}
    (h : (openCall img (some fname) t).1 ≠ -1#32) : img.Named (cString fname) := by
  rw [openCall] at h
  cases hfree : findFree t (List.finRange 8) with
  | none => simp [hfree] at h
  | some fd =>
    cases hname : readDentryByName img fname with
    | none => simp [hfree, hname] at h
    | some d => exact named_of_readDentryByName hnot hname

variable (img fname) in
/-- Names are exact but for those that go on after 32 characters. -/
theorem exactNames_iff : ExactNames img fname ↔
    (cString fname).length ≤ fileNameSize ∨ ¬ img.Named ((cString fname).take fileNameSize) := by
  have hcond : ((cString fname).length ≤ fileNameSize ∨
      ¬ img.Named ((cString fname).take fileNameSize)) ↔ ¬ Truncated img fname := by
    rw [Truncated, not_and_or, Nat.not_lt]
  rw [hcond]
  constructor
  · intro h htrunc
    exact not_exactLookup htrunc h.lookup
  · intro hnot
    refine ⟨exactLookup_of_not_truncated hnot, fun t => named_of_openCall hnot, ?_⟩
    intro env k c regs s eip k' himg hword hstart
    obtain ⟨⟨text, htext, hcheck⟩, -, -⟩ := Kernel.execute_started hstart
    obtain rfl := Option.some.inj htext
    rw [himg] at hcheck
    rw [← hword]
    exact named_of_checkExecutable hcheck

end

/-- A directory with one file, whose name fills its field. -/
def longNameImage : Image :=
  { smallImage with
    numDirEntries := 1
    dirEntries    := fun _ => .make ⟨List.replicate 32 0x61, rfl⟩ 2 0 }

/-- The name of that file with one more character is taken for it. -/
theorem not_exactNames_long : ¬ ExactNames longNameImage (List.replicate 33 0x61) := by
  intro h
  refine not_exactLookup ⟨by decide, longNameImage.dirEntries 0, ?_, by decide⟩ h.lookup
  exact List.mem_map_of_mem (List.mem_range.mpr (by decide))

end Osgods
