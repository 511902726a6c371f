import Osgods.Filesystem.ReadData

/-!
# The block slots that `read_data` uses

`readSlots` is `read_data` once more, each copy together with the index into `data_blocks` that its
source was looked up at. A copy comes out of one block, and that block is one of the file; whether
the number in the slot is one of the image is never asked.
-/

namespace Osgods

open ByteCopy

/-- The loop over whole blocks and the final copy, with the slots. -/
def readBlocksSlots (img : Image) (inode buf readLength : Word) (blockOffset : ℕ) :
    List (ℕ × Copy 32) :=
  let src := img.blockAddress inode blockOffset
  if _ : (4096#32).slt readLength then
    (blockOffset, ⟨buf, src, 4096#32⟩) ::
      readBlocksSlots img inode (buf + 4096#32) (readLength - 4096#32) (blockOffset + 1)
  else [(blockOffset, ⟨buf, src, readLength⟩)]
termination_by readLength.toNat
decreasing_by
  simp only [BitVec.slt_eq_decide, BitVec.toInt_eq_toNat_cond] at *
  rw [BitVec.toNat_sub_of_le] <;> simp [BitVec.le_def] at * <;> omega

/-- The copies of `read_data`, with the slots. -/
def readSlots (img : Image) (inode offset buf length : Word) : List (ℕ × Copy 32) :=
  if img.numInodes - 1 < inode ∨ buf = 0#32 then []
  else
    let fileLength := (img.inodes inode).length
    if fileLength ≤ offset then []
    else
      let length := if fileLength < offset + length then fileLength - offset else length
      let blockOffset := offset.toNat / blockSize
      let byteOffset := offset % 4096#32
      let src := img.blockAddress inode blockOffset + byteOffset
      if length.sle (4096#32 - byteOffset) then [(blockOffset, ⟨buf, src, length⟩)]
      else
        (blockOffset, ⟨buf, src, 4096#32 - byteOffset⟩) ::
          readBlocksSlots img inode (buf + (4096#32 - byteOffset)) (length - (4096#32 - byteOffset))
            (blockOffset + 1)

/-- A copy out of one block of the first `n` bytes of a file. -/
def Image.CopiesFrom (img : Image) (inode : Word) (n : ℕ) (p : ℕ × Copy 32) : Prop :=
  p.1 * blockSize < n ∧ ∃ i, p.2.src = img.blockAddress inode p.1 + BitVec.ofNat 32 i ∧
    i + p.2.len.toNat ≤ blockSize ∧ p.1 * blockSize + i + p.2.len.toNat ≤ n

section

variable {img : Image} {inode offset buf length : Word}

/-! ### The copies are those of `read_data` -/

lemma readBlocksSlots_snd {readLength : Word} {b : ℕ} :
    (readBlocksSlots img inode buf readLength b).map Prod.snd =
      readBlocks img inode buf readLength b := by
  induction buf, readLength, b using readBlocks.induct img inode with
  | case1 buf readLength b hlt ih =>
    rw [readBlocksSlots, readBlocks, dif_pos hlt, dif_pos hlt, List.map_cons, ih]
  | case2 buf readLength b hle =>
    rw [readBlocksSlots, readBlocks, dif_neg hle, dif_neg hle, List.map_cons, List.map_nil]

lemma readSlots_snd : (readSlots img inode offset buf length).map Prod.snd =
    (readData img inode offset buf length).2 := by
  rw [readSlots, readData]
  by_cases hfail : img.numInodes - 1 < inode ∨ buf = 0#32
  · rw [if_pos hfail, if_pos hfail, List.map_nil]
  · rw [if_neg hfail, if_neg hfail]
    by_cases hend : (img.inodes inode).length ≤ offset
    · simp only [if_pos hend, List.map_nil]
    · simp only [if_neg hend]
      generalize (if (img.inodes inode).length < offset + length then
        (img.inodes inode).length - offset else length) = n
      by_cases hshort : n.sle (4096#32 - offset % 4096#32) = true
      · simp only [if_pos hshort, List.map_cons, List.map_nil]
      · simp only [if_neg hshort, List.map_cons, readBlocksSlots_snd]

/-! ### The copies stay in the blocks of the file -/

/-- A copy from somewhere inside a block. -/
lemma copiesFrom_block {b i n : ℕ} {len : Word} (hb : b * blockSize < n)
    (hblock : i + len.toNat ≤ blockSize) (hn : b * blockSize + i + len.toNat ≤ n) :
    img.CopiesFrom inode n (b, ⟨buf, img.blockAddress inode b + BitVec.ofNat 32 i, len⟩) :=
  ⟨hb, i, rfl, hblock, hn⟩

/-- A copy from the start of a block. -/
lemma copiesFrom_start {b n : ℕ} {len : Word} (hb : b * blockSize < n)
    (hblock : len.toNat ≤ blockSize) (hn : b * blockSize + len.toNat ≤ n) :
    img.CopiesFrom inode n (b, ⟨buf, img.blockAddress inode b, len⟩) :=
  ⟨hb, 0, (BitVec.add_zero _).symm, by rwa [Nat.zero_add], by rwa [Nat.add_zero]⟩

lemma block_slt_iff {n : Word} (hn : n.toNat < 2 ^ 31) :
    (4096#32).slt n = true ↔ blockSize < n.toNat :=
  slt_iff_of_lt (by decide) hn

/-- The last copy of `read_data` is not empty, so its block is one of the file. -/
lemma readBlocksSlots_copiesFrom {readLength : Word} {b n : ℕ} (hpos : 0 < readLength.toNat)
    (hlt : readLength.toNat < 2 ^ 31) (hn : b * blockSize + readLength.toNat ≤ n) :
    ∀ p ∈ readBlocksSlots img inode buf readLength b, img.CopiesFrom inode n p := by
  induction buf, readLength, b using readBlocks.induct img inode with
  | case1 buf readLength b hblock ih =>
    intro p hp
    have hlen : blockSize < readLength.toNat := (block_slt_iff hlt).mp hblock
    have hsub : (readLength - 4096#32).toNat = readLength.toNat - blockSize := by
      apply BitVec.toNat_sub_of_le
      rw [BitVec.le_def]
      exact Nat.le_of_lt hlen
    have hwhole : (4096#32).toNat = blockSize := rfl
    rw [readBlocksSlots, dif_pos hblock] at hp
    rcases List.mem_cons.mp hp with rfl | hp
    · apply copiesFrom_start
      · omega
      · rw [hwhole]
      · rw [hwhole]
        omega
    · have hn' : (b + 1) * blockSize + (readLength - 4096#32).toNat ≤ n := by
        rw [hsub, Nat.succ_mul, Nat.add_assoc, Nat.add_sub_cancel' hlen.le]
        exact hn
      exact ih (by omega) (by omega) hn' p hp
  | case2 buf readLength b hblock =>
    intro p hp
    have hlen : ¬ blockSize < readLength.toNat := mt (block_slt_iff hlt).mpr hblock
    rw [readBlocksSlots, dif_neg hblock] at hp
    obtain rfl := List.mem_singleton.mp hp
    exact copiesFrom_start (by omega) (Nat.le_of_not_lt hlen) hn

/-- What a read is cut down to, unless `offset + length` wraps around. -/
lemma offset_add_readLength_le (hwrap : offset.toNat + length.toNat < 2 ^ 32)
    (hend : offset < (img.inodes inode).length) :
    offset.toNat + (img.readLength inode offset length).toNat ≤
      (img.inodes inode).length.toNat := by
  rw [BitVec.lt_def] at hend
  rw [readLength_toNat img inode hwrap]
  omega

/-- Every copy of `read_data` comes out of one block of the file. -/
theorem readSlots_copiesFrom (hlen : (img.inodes inode).length.toNat < 2 ^ 31)
    (hwrap : offset.toNat + length.toNat < 2 ^ 32) :
    ∀ p ∈ readSlots img inode offset buf length,
      img.CopiesFrom inode (img.inodes inode).length.toNat p := by
  intro p hp
  rw [readSlots] at hp
  by_cases hfail : img.numInodes - 1 < inode ∨ buf = 0#32
  · rw [if_pos hfail] at hp
    cases hp
  · rw [if_neg hfail] at hp
    by_cases hend : (img.inodes inode).length ≤ offset
    · simp only [if_pos hend] at hp
      cases hp
    · have hlt : offset < (img.inodes inode).length := BitVec.not_le.mp hend
      have hsum := offset_add_readLength_le hwrap hlt
      rw [Image.readLength] at hsum
      simp only [if_neg hend] at hp hsum
      generalize (if (img.inodes inode).length < offset + length then
        (img.inodes inode).length - offset else length) = n at hp hsum
      rw [BitVec.lt_def] at hlt
      have hn : n.toNat < 2 ^ 31 := by omega
      have hpos : offset.toNat / blockSize * blockSize + offset.toNat % blockSize =
          offset.toNat := Nat.div_add_mod' _ _
      have hmod : offset.toNat % blockSize < blockSize := Nat.mod_lt _ (by decide)
      have hrest := blockRest_toNat offset
      by_cases hcase : n.toNat ≤ blockSize - offset.toNat % blockSize
      · -- one block is enough
        rw [if_pos ((sle_blockRest hn).mpr hcase), byteOffset_eq] at hp
        obtain rfl := List.mem_singleton.mp hp
        exact copiesFrom_block (by omega) (by omega) (by omega)
      · -- the rest of the first block, then from the second block on
        have hlt' : blockSize - offset.toNat % blockSize ≤ n.toNat := by omega
        have hsub := sub_blockRest_toNat hlt'
        rw [if_neg (mt (sle_blockRest hn).mp hcase)] at hp
        rcases List.mem_cons.mp hp with rfl | hp
        · rw [byteOffset_eq]
          rw [byteOffset_eq] at hrest
          exact copiesFrom_block (by omega) (by omega) (by omega)
        · refine readBlocksSlots_copiesFrom (by omega) (by omega) ?_ p hp
          rw [hsub, Nat.succ_mul]
          omega

/-! ### The logical file -/

lemma stores_cons_ne_nil {c : Copy 32} {cs : List (Copy 32)} (hc : c.len ≠ 0#32) :
    img.stores (c :: cs) ≠ [] := by
  have hpos : 0 < c.len.toNat := by
    refine Nat.pos_of_ne_zero fun hzero => hc ?_
    apply BitVec.eq_of_toNat_eq
    simpa using hzero
  intro h
  have hlen := congrArg List.length h
  rw [stores_cons, List.length_append, Copy.stores, length_fill, List.length_nil] at hlen
  omega

/-- A read that delivers something stores something. -/
lemma stores_readData_ne_nil (hinode : inode ≤ img.numInodes - 1) (hbuf : buf ≠ 0#32)
    (hn : img.readLength inode offset length ≠ 0#32) :
    img.stores (readData img inode offset buf length).2 ≠ [] := by
  rw [readData, if_neg (not_or.mpr ⟨BitVec.not_lt.mpr hinode, hbuf⟩)]
  rw [Image.readLength] at hn
  by_cases hend : (img.inodes inode).length ≤ offset
  · simp only [if_pos hend] at hn
    exact absurd rfl hn
  · simp only [if_neg hend] at hn ⊢
    generalize (if (img.inodes inode).length < offset + length then
      (img.inodes inode).length - offset else length) = n at hn ⊢
    by_cases hshort : n.sle (4096#32 - offset % 4096#32) = true
    · rw [if_pos hshort]
      exact stores_cons_ne_nil hn
    · rw [if_neg hshort]
      refine stores_cons_ne_nil fun hzero => ?_
      have hrest := blockRest_toNat offset
      have hmod : offset.toNat % blockSize < blockSize := Nat.mod_lt _ (by decide)
      simp only at hzero
      rw [hzero, BitVec.toNat_ofNat, Nat.zero_mod] at hrest
      omega

lemma readSlots_end (hend : (img.inodes inode).length ≤ offset) :
    readSlots img inode offset buf length = [] := by
  rw [readSlots]
  simp only [if_pos hend, ite_self]

/-- The number of bytes that a read delivers, if the addition in the clamp does not wrap around. -/
lemma readLength_toNat_of_end_or (h : (img.inodes inode).length ≤ offset ∨
      offset.toNat + length.toNat < 2 ^ 32) :
    (img.readLength inode offset length).toNat =
      min length.toNat ((img.inodes inode).length.toNat - offset.toNat) := by
  rcases h with hend | hwrap
  · rw [Image.readLength, if_pos hend]
    rw [BitVec.le_def] at hend
    simp only [BitVec.toNat_ofNat]
    omega
  · exact readLength_toNat img inode hwrap

/-- Where the addition wraps around, nothing is cut off. -/
lemma readLength_of_wrap (hend : offset < (img.inodes inode).length)
    (hwrap : 2 ^ 32 ≤ offset.toNat + length.toNat) :
    img.readLength inode offset length = length := by
  have hlt := length.isLt
  have hoff := offset.isLt
  rw [BitVec.lt_def] at hend
  rw [Image.readLength]
  rw [if_neg (by rw [BitVec.le_def]; omega), if_neg]
  rw [BitVec.lt_def, BitVec.toNat_add]
  omega

/-- What `read_data` is for: it delivers as much of the file as there is, and touches nothing
else. -/
def ReadsFile (img : Image) (inode offset buf length : Word) : Prop :=
  let r := readData img inode offset buf length
  let fileLength := (img.inodes inode).length.toNat
  if img.numInodes ≤ inode then r.1 = -1 ∧ img.stores r.2 = []
  else
    let n := min length.toNat (fileLength - offset.toNat)
    r.1.toNat = n ∧
      (∀ mem,
        (List.range n).map (fun i => storeAll mem (img.stores r.2) (buf + BitVec.ofNat 32 i)) =
          ((img.content inode).drop offset.toNat).take n) ∧
      (∀ s ∈ img.stores r.2, ∃ i < n, s.1 = buf + BitVec.ofNat 32 i) ∧
      ∀ p ∈ readSlots img inode offset buf length, p.1 < (fileLength + 4095) / blockSize

/-- A read of an inode that there is, with a clamp that does what it should. -/
lemma readsFile_of_clamp (hinode : inode < img.numInodes)
    (hlen : (img.inodes inode).length.toNat < 2 ^ 31) (hbuf : buf ≠ 0#32)
    (h : (img.inodes inode).length ≤ offset ∨ offset.toNat + length.toNat < 2 ^ 32) :
    ReadsFile img inode offset buf length := by
  have hle := le_sub_one_of_lt hinode
  have hn := readLength_toNat_of_end_or h
  have hbound : (img.readLength inode offset length).toNat < 2 ^ 31 := by omega
  obtain ⟨hret, hstores⟩ := readData_spec hle hbuf hbound
  rw [ReadsFile, if_neg (BitVec.not_le.mpr hinode)]
  simp only [hret, hstores, hn]
  refine ⟨trivial, fun mem => ?_, fun s hs => ?_, fun p hp => ?_⟩
  · rw [← content_segment (by omega)]
    refine List.map_congr_left fun i hi => ?_
    exact storeAll_fill (by omega) (List.mem_range.mp hi)
  · obtain ⟨i, hi, rfl⟩ := mem_fill.mp hs
    exact ⟨i, hi, rfl⟩
  · rcases h with hend | hwrap
    · rw [readSlots_end hend] at hp
      cases hp
    · obtain ⟨hb, -⟩ := readSlots_copiesFrom hlen hwrap p hp
      simp only [blockSize] at hb ⊢
      omega

/-- There is no such inode. -/
lemma readsFile_of_le (hne : img.numInodes ≠ 0#32) (hinode : img.numInodes ≤ inode) :
    ReadsFile img inode offset buf length := by
  have hfail : img.numInodes - 1 < inode ∨ buf = 0#32 := by
    refine Or.inl (BitVec.not_le.mp fun hle => ?_)
    exact BitVec.not_lt.mpr hinode ((le_sub_one_iff hne).mp hle)
  rw [ReadsFile, if_pos hinode, readData_fail hfail]
  exact ⟨rfl, rfl⟩

/-- In an image without inodes every inode passes the check. -/
lemma not_readsFile_of_zero (hzero : img.numInodes = 0#32) (hbuf : buf ≠ 0#32) :
    ¬ ReadsFile img inode offset buf length := by
  have hle : inode ≤ img.numInodes - 1 := by
    rw [hzero, BitVec.le_def]
    exact Nat.le_of_lt_succ inode.isLt
  have hout : img.numInodes ≤ inode := by
    rw [hzero, BitVec.le_def]
    exact Nat.zero_le _
  rw [ReadsFile, if_pos hout]
  rintro ⟨hret, hstores⟩
  rw [readData_length hle hbuf] at hret
  exact stores_readData_ne_nil hle hbuf (by rw [hret]; decide) hstores

/-- Where the clamp wraps around, `read_data` goes beyond the end of the file. -/
lemma not_readsFile_of_wrap (hinode : inode < img.numInodes)
    (hend : offset < (img.inodes inode).length) (hbuf : buf ≠ 0#32)
    (hwrap : 2 ^ 32 ≤ offset.toNat + length.toNat) :
    ¬ ReadsFile img inode offset buf length := by
  rw [ReadsFile, if_neg (BitVec.not_le.mpr hinode)]
  rintro ⟨hret, -⟩
  rw [readData_length (le_sub_one_of_lt hinode) hbuf, readLength_of_wrap hend hwrap] at hret
  have hlt := (img.inodes inode).length.isLt
  rw [BitVec.lt_def] at hend
  omega

variable (img inode offset length) in
/-- `read_data` reads the file unless its check of the inode or its clamp wraps around. -/
theorem readsFile_iff
    (hlen : ∀ i < img.numInodes, (img.inodes i).length.toNat ≤ 1023 * blockSize)
    (hbuf : buf ≠ 0#32) :
    ReadsFile img inode offset buf length ↔
      img.numInodes ≠ 0#32 ∧ (img.numInodes ≤ inode ∨ (img.inodes inode).length ≤ offset ∨
        offset.toNat + length.toNat < 2 ^ 32) := by
  constructor
  · intro h
    refine ⟨fun hzero => not_readsFile_of_zero hzero hbuf h, ?_⟩
    by_contra hnot
    obtain ⟨hinode, hend, hwrap⟩ := by
      simpa only [not_or, BitVec.not_le, Nat.not_lt] using hnot
    exact not_readsFile_of_wrap hinode hend hbuf hwrap h
  · rintro ⟨hne, hcase⟩
    by_cases hinode : inode < img.numInodes
    · have hbound := hlen inode hinode
      have hclamp := hcase.resolve_left (BitVec.not_le.mpr hinode)
      exact readsFile_of_clamp hinode (by simp only [blockSize] at hbound; omega) hbuf hclamp
    · exact readsFile_of_le hne (BitVec.not_lt.mp hinode)

end

/-- A read of the 40 bytes of a file. -/
theorem readsFile_small : ReadsFile smallImage 0 0 0x8000000 40 := by
  have hlen : ∀ i < smallImage.numInodes,
      (smallImage.inodes i).length.toNat ≤ 1023 * blockSize := by
    intro i _
    show 40 ≤ 1023 * blockSize
    decide
  have hbuf : (0x8000000 : Word) ≠ 0#32 := by decide
  exact (readsFile_iff smallImage 0 0 40 hlen hbuf).mpr
    ⟨by decide, Or.inr (Or.inr (by decide))⟩

/-- A read of as much as there is after the first byte. -/
theorem readsFile_wrap : ¬ ReadsFile smallImage 0 1 0x8000000 0xffffffff :=
  not_readsFile_of_wrap (by decide) (by decide) (by decide) (by decide)

/-! ### The data region -/

/-- Every byte that a copy reads lies in the data region. -/
def Image.Inside (img : Image) (c : Copy 32) : Prop :=
  ∀ j < c.len.toNat, (c.src + BitVec.ofNat 32 j).toNat < img.numDataBlocks.toNat * blockSize

/-- The image with other block numbers, and another number of data blocks. -/
def Image.withBlocks (img : Image) (blocks : Word → ℕ → Word) (num : Word) : Image :=
  { img with
    numDataBlocks := num
    inodes        := fun i => { img.inodes i with dataBlocks := blocks i } }

/-- A slot, and where its copy goes. -/
def place (p : ℕ × Copy 32) : ℕ × Word × Word := (p.1, p.2.dst, p.2.len)

section

variable {img : Image} {inode offset buf length : Word}

variable (img inode) in
/-- The address of a block wraps around. -/
lemma blockAddress_toNat (b : ℕ) : (img.blockAddress inode b).toNat =
    ((img.inodes inode).dataBlocks b).toNat % 2 ^ 20 * blockSize := by
  rw [Image.blockAddress, BitVec.toNat_mul]
  exact Nat.mul_mod_mul_right 4096 _ (2 ^ 20)

/-- A copy out of a block stays in the data region if the block is one of the image. -/
lemma inside_iff {n : ℕ} {p : ℕ × Copy 32} (h : img.CopiesFrom inode n p)
    (hpos : 0 < p.2.len.toNat) : img.Inside p.2 ↔
      ((img.inodes inode).dataBlocks p.1).toNat % 2 ^ 20 < img.numDataBlocks.toNat := by
  obtain ⟨-, i, hsrc, hblock, -⟩ := h
  have haddr := blockAddress_toNat img inode p.1
  generalize hm : ((img.inodes inode).dataBlocks p.1).toNat % 2 ^ 20 = m at haddr ⊢
  have hlt : m < 2 ^ 20 := by
    rw [← hm]
    exact Nat.mod_lt _ (by decide)
  have hbyte : ∀ j < p.2.len.toNat,
      (p.2.src + BitVec.ofNat 32 j).toNat = m * blockSize + (i + j) := by
    intro j hj
    rw [hsrc, BitVec.add_assoc, ← BitVec.ofNat_add, BitVec.toNat_add, haddr, BitVec.toNat_ofNat]
    simp only [blockSize] at hblock ⊢
    omega
  constructor
  · intro h
    have hfirst := h 0 hpos
    rw [hbyte 0 hpos] at hfirst
    simp only [blockSize] at hfirst
    omega
  · intro h j hj
    rw [hbyte j hj]
    simp only [blockSize] at hblock ⊢
    omega

lemma readBlocksSlots_withBlocks (blocks : Word → ℕ → Word) (num : Word) {readLength : Word}
    {b : ℕ} :
    (readBlocksSlots (img.withBlocks blocks num) inode buf readLength b).map place =
      (readBlocksSlots img inode buf readLength b).map place := by
  induction buf, readLength, b using readBlocks.induct img inode with
  | case1 buf readLength b hlt ih =>
    rw [readBlocksSlots, dif_pos hlt, List.map_cons, ih, readBlocksSlots.eq_def img inode buf,
      dif_pos hlt, List.map_cons, place, place]
  | case2 buf readLength b hle =>
    rw [readBlocksSlots, dif_neg hle, readBlocksSlots.eq_def img inode buf, dif_neg hle,
      List.map_singleton, List.map_singleton, place, place]

/-- Which slots are used, and where the copies go, does not depend on what is in the slots. -/
lemma readSlots_withBlocks (blocks : Word → ℕ → Word) (num : Word) :
    (readSlots (img.withBlocks blocks num) inode offset buf length).map place =
      (readSlots img inode offset buf length).map place := by
  have hnum : (img.withBlocks blocks num).numInodes = img.numInodes := rfl
  have hlen : ((img.withBlocks blocks num).inodes inode).length = (img.inodes inode).length := rfl
  simp only [readSlots, hnum, hlen]
  split_ifs <;> simp [readBlocksSlots_withBlocks, place]

lemma readData_withBlocks (blocks : Word → ℕ → Word) (num : Word) :
    (readData (img.withBlocks blocks num) inode offset buf length).1 =
      (readData img inode offset buf length).1 := by
  by_cases hfail : img.numInodes - 1 < inode ∨ buf = 0#32
  · rw [readData_fail hfail, readData_fail (by exact hfail)]
  · obtain ⟨hinode, hbuf⟩ := not_or.mp hfail
    have hinode' := BitVec.not_lt.mp hinode
    rw [readData_length hinode' hbuf, readData_length (by exact hinode') hbuf]
    rfl

/-- `read_data` guards itself against the image. -/
def ChecksBlocks (img : Image) (inode offset buf length : Word) : Prop :=
  (∀ p ∈ readSlots img inode offset buf length, p.1 < 1023 ∧ img.Inside p.2) ∧
    ((∃ p ∈ readSlots img inode offset buf length,
      img.numDataBlocks ≤ (img.inodes inode).dataBlocks p.1) →
        (readData img inode offset buf length).1 = -1)

variable (img inode offset buf length) in
/-- `read_data` trusts the image: the block numbers decide neither its result nor where it stores,
and it stays in the data region exactly as far as they do. -/
theorem readData_trusts :
    (readSlots img inode offset buf length).map Prod.snd =
        (readData img inode offset buf length).2 ∧
      (∀ blocks num,
        (readData (img.withBlocks blocks num) inode offset buf length).1 =
            (readData img inode offset buf length).1 ∧
          (readSlots (img.withBlocks blocks num) inode offset buf length).map place =
            (readSlots img inode offset buf length).map place) ∧
      ((img.inodes inode).length.toNat ≤ 1023 * blockSize →
        offset.toNat + length.toNat < 2 ^ 32 →
          ∀ p ∈ readSlots img inode offset buf length, p.1 < 1023 ∧
            (0 < p.2.len.toNat → (img.Inside p.2 ↔
              ((img.inodes inode).dataBlocks p.1).toNat % 2 ^ 20 < img.numDataBlocks.toNat))) := by
  refine ⟨readSlots_snd,
    fun blocks num => ⟨readData_withBlocks blocks num, readSlots_withBlocks blocks num⟩, ?_⟩
  intro hlen hwrap p hp
  simp only [blockSize] at hlen
  have hfrom := readSlots_copiesFrom (by omega) hwrap p hp
  have hslot := hfrom.1
  simp only [blockSize] at hslot
  exact ⟨by omega, inside_iff hfrom⟩

end

/-- The small image, with a block number that is not one of its data blocks. -/
def strayImage : Image := smallImage.withBlocks (fun _ _ => 5) 1

/-- It is read all the same, from beyond the data region. -/
theorem not_checksBlocks_stray : ¬ ChecksBlocks strayImage 0 0 0x8000000 40 := by
  have hslots : readSlots strayImage 0 0 0x8000000 40 = [(0, ⟨0x8000000, 0x5000, 40⟩)] := rfl
  have hret : (readData strayImage 0 0 0x8000000 40).1 = 40 := by
    decide
  rintro ⟨-, hrefuse⟩
  rw [hslots, hret] at hrefuse
  exact absurd (hrefuse ⟨_, List.mem_singleton_self _, by decide⟩) (by decide)

/-- In the small image, the block is one of the data region. -/
theorem readData_trusts_small :
    ∀ p ∈ readSlots smallImage 0 0 0x8000000 40, p.1 < 1023 ∧ smallImage.Inside p.2 := by
  intro p hp
  obtain ⟨hslot, hinside⟩ := (readData_trusts smallImage 0 0 0x8000000 40).2.2
    (by decide) (by decide) p hp
  have hslots : readSlots smallImage 0 0 0x8000000 40 = [(0, ⟨0x8000000, 0, 40⟩)] := rfl
  rw [hslots] at hp
  obtain rfl := List.mem_singleton.mp hp
  exact ⟨hslot, (hinside (by decide)).mpr (by decide)⟩

end Osgods
