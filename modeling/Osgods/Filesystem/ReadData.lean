import Osgods.Filesystem.Basic

/-!
# `read_data` delivers the file

The logical content of a file is the concatenation of its blocks, cut at its length. `read_data`
walks these blocks in three phases; its copies together store a segment of the content.
-/

namespace Osgods

open ByteCopy

/-- Byte `i` of the blocks of a file. -/
def Image.byteAt (img : Image) (inode : Word) (i : ℕ) : Byte :=
  img.data (img.blockAddress inode (i / blockSize) + BitVec.ofNat 32 (i % blockSize))

/-- The logical content of a file. -/
def Image.content (img : Image) (inode : Word) : List Byte :=
  (List.range (img.inodes inode).length.toNat).map (img.byteAt inode)

section

variable {img : Image} {inode offset buf length : Word}

lemma stores_nil : img.stores [] = [] := rfl

lemma stores_cons (c : Copy 32) (cs : List (Copy 32)) :
    img.stores (c :: cs) = c.stores img.data ++ img.stores cs := rfl

variable (img inode buf) in
/-- A copy from inside a block stores a piece of the content. -/
lemma stores_block (b i : ℕ) {n : ℕ} {len : Word} (hlen : len.toNat = n) (h : i + n ≤ blockSize) :
    Copy.stores img.data ⟨buf, img.blockAddress inode b + BitVec.ofNat 32 i, len⟩ =
      fill buf n fun j => img.byteAt inode (b * blockSize + i + j) := by
  subst hlen
  refine fill_congr fun j hj => ?_
  have hj' : j < len.toNat := hj
  have hdiv : (b * blockSize + i + j) / blockSize = b := by
    simp only [blockSize] at h ⊢
    omega
  have hmod : (b * blockSize + i + j) % blockSize = i + j := by
    simp only [blockSize] at h ⊢
    omega
  rw [Image.byteAt, hdiv, hmod, BitVec.add_assoc, ← BitVec.ofNat_add]

variable (img inode buf) in
/-- A copy from the start of a block. -/
lemma stores_block_start (b : ℕ) {n : ℕ} {len : Word} (hlen : len.toNat = n) (h : n ≤ blockSize) :
    Copy.stores img.data ⟨buf, img.blockAddress inode b, len⟩ =
      fill buf n fun j => img.byteAt inode (b * blockSize + j) := by
  have hblock := stores_block img inode buf b 0 hlen (by omega)
  rwa [BitVec.add_zero, Nat.add_zero] at hblock

/-- Where the second block starts in the content, seen from position `p` in the first. -/
lemma next_block_index (p i : ℕ) :
    (p / blockSize + 1) * blockSize + i = p + (blockSize - p % blockSize + i) := by
  simp only [blockSize]
  omega

lemma slt_iff_of_lt {x y : Word} (hx : x.toNat < 2 ^ 31) (hy : y.toNat < 2 ^ 31) :
    x.slt y = true ↔ x.toNat < y.toNat := by
  simp only [BitVec.slt_eq_decide, BitVec.toInt_eq_toNat_cond, decide_eq_true_eq]
  omega

/-- From the second block on, `read_data` stores what is left to read. -/
lemma stores_readBlocks {readLength : Word} {b : ℕ} (h : readLength.toNat < 2 ^ 31) :
    img.stores (readBlocks img inode buf readLength b) =
      fill buf readLength.toNat fun i => img.byteAt inode (b * blockSize + i) := by
  induction buf, readLength, b using readBlocks.induct img inode with
  | case1 buf readLength b hlt ih =>
    have hlt' := (slt_iff_of_lt (by decide) h).mp hlt
    simp only [BitVec.toNat_ofNat] at hlt'
    have hsub : (readLength - 4096#32).toNat = readLength.toNat - 4096 := by
      rw [BitVec.toNat_sub_of_le (by rw [BitVec.le_def]; simp; omega)]
      rfl
    have hfirst := stores_block_start img inode buf b (rfl : (4096#32).toNat = 4096) (by decide)
    have hle : 4096 ≤ readLength.toNat := Nat.le_of_lt hlt'
    rw [readBlocks, dif_pos hlt, stores_cons, hfirst, ih (by omega), hsub, fill_split hle]
    refine congrArg (fill buf 4096 _ ++ ·) (fill_congr fun i _ => ?_)
    rw [show (b + 1) * blockSize + i = b * blockSize + (4096 + i) by simp only [blockSize]; omega]
  | case2 buf readLength b hle =>
    have hle' := (not_congr (slt_iff_of_lt (by decide) h)).mp hle
    simp only [BitVec.toNat_ofNat] at hle'
    have hlast := stores_block_start img inode buf b (rfl : readLength.toNat = _)
      (by simp only [blockSize]; omega)
    rw [readBlocks, dif_neg hle, stores_cons, stores_nil, List.append_nil, hlast]

/-- The number of bytes that a read of `length` bytes at `offset` delivers. -/
def Image.readLength (img : Image) (inode offset length : Word) : Word :=
  let fileLength := (img.inodes inode).length
  if fileLength ≤ offset then 0#32
  else if fileLength < offset + length then fileLength - offset else length

variable (img inode offset length) in
lemma readLength_le : (img.readLength inode offset length).toNat ≤ length.toNat := by
  simp only [Image.readLength]
  split_ifs with hend hlt
  · simp
  · rw [BitVec.not_le, BitVec.lt_def] at hend
    rw [BitVec.lt_def, BitVec.toNat_add] at hlt
    rw [BitVec.toNat_sub_of_le (by rw [BitVec.le_def]; omega)]
    omega
  · exact Nat.le_refl _

variable (img inode) in
/-- Unless `offset + length` wraps around, the file's end is what limits a read. -/
lemma readLength_toNat (hwrap : offset.toNat + length.toNat < 2 ^ 32) :
    (img.readLength inode offset length).toNat =
      min length.toNat ((img.inodes inode).length.toNat - offset.toNat) := by
  have hadd : (offset + length).toNat = offset.toNat + length.toNat := by
    rw [BitVec.toNat_add]
    omega
  simp only [Image.readLength]
  split_ifs with hend hlt
  · rw [BitVec.le_def] at hend
    simp only [BitVec.toNat_ofNat]
    omega
  · rw [BitVec.not_le, BitVec.lt_def] at hend
    rw [BitVec.lt_def, hadd] at hlt
    rw [BitVec.toNat_sub_of_le (by rw [BitVec.le_def]; omega)]
    omega
  · rw [BitVec.lt_def, hadd] at hlt
    omega

/-- What the check of the inode comes down to, if there is an inode at all. -/
lemma le_sub_one_iff {m i : Word} (hm : m ≠ 0#32) : i ≤ m - 1 ↔ i < m := by
  have hpos : 1 ≤ m.toNat := by
    refine Nat.one_le_iff_ne_zero.mpr fun hzero => hm ?_
    apply BitVec.eq_of_toNat_eq
    simpa using hzero
  have hone : (1 : Word).toNat = 1 := rfl
  rw [BitVec.le_def, BitVec.lt_def, BitVec.toNat_sub_of_le (by rwa [BitVec.le_def, hone]), hone]
  omega

lemma le_sub_one_of_lt {m i : Word} (h : i < m) : i ≤ m - 1 := by
  refine (le_sub_one_iff ?_).mpr h
  rintro rfl
  exact BitVec.not_lt_zero h

lemma readData_fail (h : img.numInodes - 1 < inode ∨ buf = 0#32) :
    readData img inode offset buf length = (-1, []) := by
  rw [readData, if_pos h]

/-- The return value of a call that does not fail. -/
lemma readData_length (hinode : inode ≤ img.numInodes - 1) (hbuf : buf ≠ 0#32) :
    (readData img inode offset buf length).1 = img.readLength inode offset length := by
  have hcheck : ¬ (img.numInodes - 1 < inode ∨ buf = 0#32) := by
    rintro (h | h)
    · exact absurd hinode (BitVec.not_le.mpr h)
    · exact hbuf h
  unfold readData Image.readLength
  rw [if_neg hcheck]
  by_cases hend : (img.inodes inode).length ≤ offset
  · simp only [if_pos hend]
    rfl
  · simp only [if_neg hend]
    generalize (if (img.inodes inode).length < offset + length then
      (img.inodes inode).length - offset else length) = n
    split <;> rfl

/-! ### The first block -/

variable (offset) in
lemma byteOffset_toNat : (offset % 4096#32).toNat = offset.toNat % blockSize := by
  simp [blockSize]

variable (offset) in
lemma byteOffset_eq : offset % 4096#32 = BitVec.ofNat 32 (offset.toNat % blockSize) := by
  rw [← byteOffset_toNat, BitVec.ofNat_toNat, BitVec.setWidth_eq]

variable (offset) in
/-- What is left of the first block. -/
lemma blockRest_toNat :
    (4096#32 - offset % 4096#32).toNat = blockSize - offset.toNat % blockSize := by
  have hle : offset % 4096#32 ≤ 4096#32 := by
    rw [BitVec.le_def, byteOffset_toNat]
    exact (Nat.mod_lt _ (by decide)).le
  rw [BitVec.toNat_sub_of_le hle, byteOffset_toNat]
  rfl

/-- A read ends in its first block. -/
lemma sle_blockRest {n : Word} (hn : n.toNat < 2 ^ 31) :
    n.sle (4096#32 - offset % 4096#32) = true ↔
      n.toNat ≤ blockSize - offset.toNat % blockSize := by
  have hmod : offset.toNat % blockSize < blockSize := Nat.mod_lt _ (by decide)
  rw [BitVec.sle_eq_decide, decide_eq_true_eq, BitVec.toInt_eq_toNat_cond,
    BitVec.toInt_eq_toNat_cond, blockRest_toNat]
  simp only [blockSize] at hmod ⊢
  omega

lemma sub_blockRest_toNat {n : Word} (hn : blockSize - offset.toNat % blockSize ≤ n.toNat) :
    (n - (4096#32 - offset % 4096#32)).toNat =
      n.toNat - (blockSize - offset.toNat % blockSize) := by
  have hle : 4096#32 - offset % 4096#32 ≤ n := by
    rw [BitVec.le_def, blockRest_toNat]
    exact hn
  rw [BitVec.toNat_sub_of_le hle, blockRest_toNat]

/-! ### The whole read -/

/-- `read_data` returns the number of bytes it delivers, and stores that segment of the content. -/
theorem readData_spec (hinode : inode ≤ img.numInodes - 1) (hbuf : buf ≠ 0#32)
    (hlen : (img.readLength inode offset length).toNat < 2 ^ 31) :
    (readData img inode offset buf length).1 = img.readLength inode offset length ∧
      img.stores (readData img inode offset buf length).2 =
        fill buf (img.readLength inode offset length).toNat
          fun i => img.byteAt inode (offset.toNat + i) := by
  have hcheck : ¬ (img.numInodes - 1 < inode ∨ buf = 0#32) := by
    rintro (h | h)
    · exact absurd hinode (BitVec.not_le.mpr h)
    · exact hbuf h
  refine ⟨readData_length hinode hbuf, ?_⟩
  unfold readData
  rw [if_neg hcheck]
  unfold Image.readLength at hlen ⊢
  by_cases hend : (img.inodes inode).length ≤ offset
  · simp [hend, stores_nil]
  · simp only [if_neg hend] at hlen ⊢
    generalize hn : (if (img.inodes inode).length < offset + length then
      (img.inodes inode).length - offset else length) = n at hlen ⊢
    have hrest := blockRest_toNat offset
    have hpos : offset.toNat / blockSize * blockSize + offset.toNat % blockSize = offset.toNat :=
      Nat.div_add_mod' _ _
    have hmod : offset.toNat % blockSize < blockSize := Nat.mod_lt _ (by decide)
    by_cases hcase : n.toNat ≤ blockSize - offset.toNat % blockSize
    · -- everything lies in the first block
      rw [if_pos ((sle_blockRest hlen).mpr hcase), stores_cons, stores_nil, List.append_nil,
        byteOffset_eq, stores_block img inode buf _ _ rfl (by omega), hpos]
    · -- the rest of the first block, then from the second block on
      have hlt : blockSize - offset.toNat % blockSize ≤ n.toNat := by omega
      have hsub := sub_blockRest_toNat hlt
      rw [if_neg (mt (sle_blockRest hlen).mp hcase), stores_cons, stores_readBlocks (by omega),
        hsub]
      have hfirst := stores_block img inode buf (offset.toNat / blockSize)
        (offset.toNat % blockSize) hrest (by omega)
      rw [← byteOffset_eq, hpos] at hfirst
      have hdst : BitVec.ofNat 32 (blockSize - offset.toNat % blockSize) =
          4096#32 - offset % 4096#32 := by
        apply BitVec.eq_of_toNat_eq
        rw [hrest, BitVec.toNat_ofNat]
        simp only [blockSize]
        omega
      simp only [hfirst, next_block_index]
      rw [fill_split hlt, hdst]

/-- `read_data` stores only into the buffer it is given, whatever the image says. -/
lemma readData_stores_subset (hlen : length.toNat < 2 ^ 31) {s : Word × Byte}
    (hs : s ∈ img.stores (readData img inode offset buf length).2) :
    ∃ i < length.toNat, s.1 = buf + BitVec.ofNat 32 i := by
  by_cases h : img.numInodes - 1 < inode ∨ buf = 0#32
  · rw [readData_fail h] at hs
    cases hs
  · obtain ⟨hinode, hbuf⟩ := not_or.mp h
    have hle := readLength_le img inode offset length
    rw [(readData_spec (BitVec.not_lt.mp hinode) hbuf (by omega)).2] at hs
    obtain ⟨i, hi, rfl⟩ := mem_fill.mp hs
    exact ⟨i, by omega, rfl⟩

/-- A segment of the content, as a list of bytes. -/
lemma content_segment {p n : ℕ} (h : n ≤ (img.inodes inode).length.toNat - p) :
    (List.range n).map (fun i => img.byteAt inode (p + i)) =
      ((img.content inode).drop p).take n := by
  apply List.ext_getElem?
  intro i
  by_cases hi : i < n
  · have hlt : p + i < (img.inodes inode).length.toNat := by omega
    simp [Image.content, hi, hlt]
  · simp [Image.content, hi]

end

end Osgods
