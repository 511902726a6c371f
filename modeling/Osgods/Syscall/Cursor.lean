import Osgods.Syscall.Frame
import Osgods.Library.Transition

/-!
# File cursors

A process reads regular files through its descriptors, while it opens, closes and reads others and
the RTC interrupts it. A ghost history keeps, for each descriptor, the bytes returned since its
last `open`; they are always the beginning of the file, up to the cursor.
-/

namespace Osgods

open ByteCopy Transition

/-- An image that `createfs` could have made. -/
structure Image.WellFormed (img : Image) : Prop where
  numInodes_pos : (1#32).sle img.numInodes = true
  length_le     : ∀ inode < img.numInodes, (img.inodes inode).length.toNat ≤ 1023 * blockSize
  blocks        : ∀ inode < img.numInodes, ∀ b : ℕ,
    b * blockSize < (img.inodes inode).length.toNat →
      (img.inodes inode).dataBlocks b < img.numDataBlocks
  regular       : ∀ i < img.numDirEntries.toInt.toNat, (img.dirEntries i).fileType = fileType →
    (img.dirEntries i).inodeId < img.numInodes

/-- The descriptor is open on a regular file. -/
def FileObject.Regular (o : FileObject) : Prop := o.flag ≠ 0#32 ∧ o.fileOpTb.readFn = .fileRead

abbrev OwnCall := { c : Call // c.OwnBuffer }

/-- What a process finds in the first `n` bytes of its buffer. -/
def returned (τ : Task) (buf : Word) (n : ℕ) : List Byte :=
  (List.range n).map fun i => τ.mem (buf + BitVec.ofNat 32 i)

/-- The history of a descriptor's bytes after a call: `open` starts it, a read that does not fail
extends it. -/
def record (c : Call) (r : Option Word) (τ : Task) (delivered : Fd → List Byte) : Fd → List Byte :=
  match c, r with
  | .open _, some r =>
    match fdOf r with
    | some i => Function.update delivered i []
    | none   => delivered
  | .read fd buf _ _, some r =>
    match fdOf fd with
    | some i =>
      if r.slt 0#32 then delivered
      else Function.update delivered i (delivered i ++ returned τ buf r.toNat)
    | none   => delivered
  | _, _ => delivered

structure CursorState where
  task      : Task
  delivered : Fd → List Byte

def cursorStep (E : FileEnv) (s : CursorState) (c : OwnCall) : Option CursorState :=
  (s.task.step E c.1).map fun r => ⟨r.2, record c.1 r.1 r.2 s.delivered⟩

/-- A cursor at position `p` of a file stands for the first `p` bytes having been delivered. -/
def CursorOk (img : Image) (o : FileObject) (bytes : List Byte) : Prop :=
  o.Regular →
    o.inode < img.numInodes ∧
    o.filePosition.toNat ≤ (img.inodes o.inode).length.toNat ∧
    bytes = (img.content o.inode).take o.filePosition.toNat

def CursorState.Consistent (img : Image) (s : CursorState) : Prop :=
  ∀ i, CursorOk img (s.task.table i) (s.delivered i)

section

variable {E : FileEnv} {τ τ' : Task} {s s' : CursorState} {i : Fd} {keys : KeyBuffer}
  {fd buf nbytes r : Word} {n : ℕ}

lemma Image.WellFormed.toNat_pos {img : Image} (h : img.WellFormed) :
    0 < img.numInodes.toNat ∧ img.numInodes.toNat < 2 ^ 31 := by
  have hpos := h.numInodes_pos
  have hlt := img.numInodes.isLt
  simp only [BitVec.sle_eq_decide, BitVec.toInt_eq_toNat_cond, decide_eq_true_eq,
    BitVec.toNat_ofNat] at hpos
  omega

lemma own_ne_zero (hlo : mb128 ≤ buf.toNat) : buf ≠ 0#32 := by
  rintro rfl
  exact absurd hlo (by decide)

/-- One read of a regular file in its own page: what it returns, what the process then finds in its
buffer, and what it does to the table. -/
lemma fileRead_spec (hwf : E.img.WellFormed) (hlo : mb128 ≤ buf.toNat) (hhi : buf.toNat < mb132)
    (hn : nbytes.toNat < 2 ^ 31) (hinode : (τ.table i).inode < E.img.numInodes)
    (hpos : (τ.table i).filePosition.toNat ≤ (E.img.inodes (τ.table i).inode).length.toNat)
    (h : fileRead E i buf nbytes τ = some (r, τ')) :
    r.toNat = min nbytes.toNat ((E.img.inodes (τ.table i).inode).length.toNat -
        (τ.table i).filePosition.toNat) ∧
      returned τ' buf r.toNat = ((E.img.content (τ.table i).inode).drop
        (τ.table i).filePosition.toNat).take r.toNat ∧
      τ'.table = Function.update τ.table i
        { τ.table i with filePosition := (τ.table i).filePosition + r } := by
  have hlen := hwf.length_le _ hinode
  simp only [blockSize] at hlen
  have hwrap : (τ.table i).filePosition.toNat + nbytes.toNat < 2 ^ 32 := by omega
  have hcount := readLength_toNat E.img (τ.table i).inode hwrap
  obtain ⟨hret, hstores⟩ := readData_spec (le_sub_one_of_lt hinode) (own_ne_zero hlo)
    (show (E.img.readLength _ (τ.table i).filePosition nbytes).toNat < 2 ^ 31 by omega)
  unfold fileRead at h
  obtain ⟨τ₁, hst, heq⟩ := Option.map_eq_some_iff.mp h
  have htable := store_table (fun s hs => by
    obtain ⟨j, hj, heq⟩ := readData_stores_subset hn hs
    rw [heq]
    exact outsideKernel_of_own hlo hhi (Nat.le_of_lt hn) j hj) hst
  rw [hret] at heq
  have hnonneg : ¬ (E.img.readLength (τ.table i).inode (τ.table i).filePosition nbytes).slt
      0#32 := by
    simp only [BitVec.slt_eq_decide, BitVec.toInt_eq_toNat_cond, decide_eq_true_eq,
      BitVec.toNat_ofNat]
    omega
  rw [if_neg hnonneg] at heq
  cases heq
  refine ⟨hcount, ?_, by rw [setPosition_table, htable]⟩
  rw [← content_segment (by omega)]
  refine List.map_congr_left fun j hj => ?_
  rw [setPosition_mem, store_eq_some hst, Task.store, hstores]
  exact storeAll_fill (Nat.le_of_lt (BitVec.isLt _)) (List.mem_range.mp hj)

/-- A read of a regular file returns if its buffer is mapped. -/
lemma fileRead_isSome (hn : nbytes.toNat < 2 ^ 31)
    (hmap : ∀ j < nbytes.toNat, E.mapped (buf + BitVec.ofNat 32 j) = true) :
    (fileRead E i buf nbytes τ).isSome := by
  have hall : (E.img.stores (readData E.img (τ.table i).inode (τ.table i).filePosition buf
      nbytes).2).all (fun s => E.mapped s.1) = true := by
    rw [List.all_eq_true]
    intro s hs
    obtain ⟨j, hj, heq⟩ := readData_stores_subset hn hs
    rw [heq]
    exact hmap j hj
  simp [fileRead, Task.store?, hall]

namespace CursorState.Consistent

/-- A call touches one descriptor and its history at most. -/
lemma update {o : FileObject} {bytes : List Byte} (hs : s.Consistent E.img)
    (htable : τ.table = Function.update s.task.table i o) (ho : CursorOk E.img o bytes) :
    CursorState.Consistent E.img ⟨τ, Function.update s.delivered i bytes⟩ := by
  intro j
  by_cases hij : j = i
  · subst hij
    simpa [htable] using ho
  · simpa [htable, Function.update_of_ne hij] using hs j

/-- The same when the descriptor is none of a regular file, whatever becomes of its history. -/
lemma update_other {o : FileObject} {delivered : Fd → List Byte} (hs : s.Consistent E.img)
    (htable : τ.table = Function.update s.task.table i o) (ho : ¬ o.Regular)
    (hd : ∀ j, j ≠ i → delivered j = s.delivered j) :
    CursorState.Consistent E.img ⟨τ, delivered⟩ := by
  intro j
  by_cases hij : j = i
  · subst hij
    simp only [htable, Function.update_self]
    exact fun hreg => absurd hreg ho
  · simp only [htable, Function.update_of_ne hij, hd j hij]
    exact hs j

lemma step_open (hwf : E.img.WellFormed) (hs : s.Consistent E.img)
    {filename : Option (List Byte)} {t' : FileTable}
    (h : openCall E.img filename s.task.table = (r, t')) (hτ : τ.table = t') :
    CursorState.Consistent E.img ⟨τ, record (.open filename) (some r) τ s.delivered⟩ := by
  rcases openCall_cases h with ⟨rfl, rfl⟩ | ⟨j, fname, d, -, rfl, hd, htype, rfl, rfl⟩
  · intro i
    rw [hτ]
    exact hs i
  · have hrecord : record (.open (some fname)) (some (BitVec.ofNat 32 j)) τ s.delivered =
        Function.update s.delivered j [] := by
      simp [record]
    rw [hrecord]
    refine hs.update hτ fun hreg => ?_
    have hfile : d.fileType = fileType := by
      rcases openType_cases htype with h | h | h
      · rw [openObject, h] at hreg
        cases hreg.2
      · rw [openObject, h] at hreg
        cases hreg.2
      · exact h
    refine ⟨?_, ?_, ?_⟩
    · have hnrtc : d.fileType ≠ rtcType := by
        rw [hfile]
        decide
      simp only [openObject, if_neg hnrtc, if_pos hfile]
      obtain ⟨k, hk, rfl⟩ := readDentryByName_eq_some hd
      exact hwf.regular k hk hfile
    · exact Nat.zero_le _
    · simp [openObject]

lemma step_close (hs : s.Consistent E.img) {t' : FileTable}
    (h : closeCall fd s.task.table = (r, t')) (hτ : τ.table = t') :
    CursorState.Consistent E.img ⟨τ, s.delivered⟩ := by
  rcases closeCall_cases h with ⟨-, rfl, -⟩ | ⟨j, -, -, -, -, rfl⟩
  · intro i
    rw [hτ]
    exact hs i
  · exact hs.update_other hτ (fun hreg => absurd rfl hreg.1) fun _ _ => rfl

lemma step_rtc (hwf : E.img.WellFormed) (hs : s.Consistent E.img)
    (hτ : τ.table = rtcTick s.task.table) : CursorState.Consistent E.img ⟨τ, s.delivered⟩ := by
  rcases rtcTick_cases s.task.table with heq | ⟨j, hinode, -, heq⟩
  · intro i
    rw [hτ, heq]
    exact hs i
  · rw [heq] at hτ
    refine hs.update_other hτ (fun hreg => ?_) fun _ _ => rfl
    -- no regular file has the inode number that marks an RTC descriptor
    have hlt := (hs j hreg).1
    rw [hinode, BitVec.lt_def] at hlt
    have hpos := hwf.toNat_pos.2
    simp only [BitVec.reduceNeg, BitVec.toNat_ofNat] at hlt
    omega

lemma step_read (hwf : E.img.WellFormed) (hs : s.Consistent E.img)
    (hlo : mb128 ≤ buf.toNat) (hhi : buf.toNat < mb132)
    (h : readCall E keys fd buf nbytes s.task = some (r, τ)) :
    CursorState.Consistent E.img
      ⟨τ, record (.read fd buf nbytes keys) (some r) τ s.delivered⟩ := by
  rcases readCall_cases h with ⟨rfl, rfl⟩ | ⟨i, hfd, hbuf, hn, hflag, hcall⟩
  · have hrecord : record (.read fd buf nbytes keys) (some (-1#32)) s.task s.delivered =
        s.delivered := by
      simp only [record]
      split <;> rfl
    rw [hrecord]
    exact hs
  · by_cases hfile : (s.task.table i).fileOpTb.readFn = .fileRead
    · obtain ⟨hinode, hpos, hdel⟩ := hs i ⟨hflag, hfile⟩
      rw [callRead, hfile] at hcall
      obtain ⟨hcount, hbytes, htable⟩ := fileRead_spec hwf hlo hhi hn hinode hpos hcall
      have hlen := hwf.length_le _ hinode
      simp only [blockSize] at hlen
      have hnonneg : ¬ r.slt 0#32 := by
        simp only [BitVec.slt_eq_decide, BitVec.toInt_eq_toNat_cond, decide_eq_true_eq,
          BitVec.toNat_ofNat]
        omega
      have hrecord : record (.read fd buf nbytes keys) (some r) τ s.delivered =
          Function.update s.delivered i (s.delivered i ++ returned τ buf r.toNat) := by
        simp [record, hfd, hnonneg]
      have hadd : ((s.task.table i).filePosition + r).toNat =
          (s.task.table i).filePosition.toNat + r.toNat := by
        rw [BitVec.toNat_add]
        omega
      rw [hrecord]
      refine hs.update htable fun _ => ⟨hinode, ?_, ?_⟩
      · change ((s.task.table i).filePosition + r).toNat ≤
          (E.img.inodes (s.task.table i).inode).length.toNat
        omega
      · rw [hadd, hdel, hbytes, List.take_add]
    · obtain ⟨p, htable⟩ := callRead_table hcall hn
        (outsideKernel_of_own hlo hhi (readExtent_le _ hn))
      refine hs.update_other htable (fun hreg => hfile hreg.2) fun j hj => ?_
      simp only [record, hfd]
      split_ifs
      · rfl
      · exact Function.update_of_ne hj _ _

/-- One call keeps every cursor in step with its history. -/
lemma step (hwf : E.img.WellFormed) (hs : s.Consistent E.img) {c : OwnCall}
    (h : Graph (cursorStep E) s c s') : s'.Consistent E.img := by
  obtain ⟨⟨ret, τ⟩, hstep, rfl⟩ := Option.map_eq_some_iff.mp h
  obtain ⟨c, hc⟩ := c
  cases c with
  | «open» filename =>
    cases hstep
    exact hs.step_open hwf rfl rfl
  | close fd =>
    cases hstep
    exact hs.step_close rfl rfl
  | read fd buf nbytes keys =>
    obtain ⟨⟨r, τ₁⟩, hread, heq⟩ := Option.map_eq_some_iff.mp hstep
    cases heq
    exact hs.step_read hwf hc.1 hc.2 hread
  | write fd buf nbytes =>
    obtain ⟨r, -, heq⟩ := Option.map_eq_some_iff.mp hstep
    cases heq
    exact hs
  | rtcInterrupt =>
    cases hstep
    exact hs.step_rtc hwf rfl

end CursorState.Consistent

/-- Over any run of calls and interrupts, what has been returned from a regular file since its
`open` is the beginning of the file up to the cursor. The next read, if its buffer is mapped,
returns as much of the rest as was asked for, and nothing at the end. -/
theorem file_cursors (E : FileEnv) (hwf : E.img.WellFormed) {s₀ s : CursorState}
    (hs₀ : s₀.Consistent E.img) {cs : List OwnCall} (hrun : Run (Graph (cursorStep E)) s₀ cs s) :
    ∀ i, (s.task.table i).Regular →
      s.delivered i <+: E.img.content (s.task.table i).inode ∧
      (s.task.table i).filePosition.toNat = (s.delivered i).length ∧
      (s.task.table i).filePosition.toNat ≤
        (E.img.inodes (s.task.table i).inode).length.toNat ∧
      ∀ buf nbytes keys, mb128 ≤ buf.toNat → buf.toNat < mb132 → nbytes.slt 0#32 = false →
        ((∀ j < nbytes.toNat, E.mapped (buf + BitVec.ofNat 32 j) = true) →
          (readCall E keys (BitVec.ofNat 32 i) buf nbytes s.task).isSome) ∧
        ∀ r τ, readCall E keys (BitVec.ofNat 32 i) buf nbytes s.task = some (r, τ) →
          r.toNat = min nbytes.toNat ((E.img.inodes (s.task.table i).inode).length.toNat -
            (s.task.table i).filePosition.toNat) ∧
          returned τ buf r.toNat = ((E.img.content (s.task.table i).inode).drop
            (s.task.table i).filePosition.toNat).take r.toNat ∧
          ((s.task.table i).filePosition = (E.img.inodes (s.task.table i).inode).length →
            r = 0#32) := by
  intro i hreg
  have hs := hrun.invariant (I := CursorState.Consistent E.img)
    (fun _ _ _ hs h => hs.step hwf h) hs₀
  obtain ⟨hinode, hpos, hdel⟩ := hs i hreg
  refine ⟨?_, ?_, hpos, ?_⟩
  · rw [hdel]
    exact List.take_prefix _ _
  · rw [hdel, List.length_take]
    simp only [Image.content, List.length_map, List.length_range]
    omega
  · intro buf nbytes keys hlo hhi hn
    have hlt : nbytes.toNat < 2 ^ 31 := toNat_lt_of_not_slt (by simp [hn])
    have hcall : readCall E keys (BitVec.ofNat 32 i) buf nbytes s.task =
        fileRead E i buf nbytes s.task := by
      rw [readCall_of_open (fdOf_ofNat i) (own_ne_zero hlo) hn hreg.1, callRead, hreg.2]
    rw [hcall]
    refine ⟨fun hmap => fileRead_isSome hlt hmap, fun r τ hread => ?_⟩
    obtain ⟨hcount, hbytes, -⟩ := fileRead_spec hwf hlo hhi hlt hinode hpos hread
    refine ⟨hcount, hbytes, fun hend => ?_⟩
    apply BitVec.eq_of_toNat_eq
    rw [hcount, hend, Nat.sub_self, Nat.min_zero]
    rfl

/-- A new process has no file open. -/
lemma consistent_createTable (img : Image) (mem : Word → Byte) (delivered : Fd → List Byte) :
    CursorState.Consistent img ⟨⟨createTable, mem⟩, delivered⟩ := by
  intro i hreg
  have hfn : ∀ i, (createTable i).fileOpTb.readFn ≠ .fileRead := by decide
  exact absurd hreg.2 (hfn i)

lemma smallImage_wellFormed : smallImage.WellFormed where
  numInodes_pos := by decide
  length_le     := fun _ _ => show (40#32).toNat ≤ 1023 * blockSize by decide
  blocks        := fun _ _ _ _ => show 0#32 < 1#32 by decide
  regular       := fun i _ _ => by
    rcases i with _ | _ | i <;> exact show 0#32 < 1#32 by decide

/-- A process opens `shell` and reads 16 bytes of it. -/
theorem file_cursors_small : ∃ s : CursorState, (s.task.table 2).filePosition = 16#32 ∧
    s.delivered 2 <+: smallImage.content 0#32 ∧ (s.delivered 2).length = 16 := by
  have hcs : (runFrom (cursorStep ⟨smallImage, 0, fun _ => true⟩)
      ⟨⟨createTable, fun _ => 0#8⟩, fun _ => []⟩
      [⟨.open (some shellName), trivial⟩,
        ⟨.read 2 0x8000000 16 ⟨fun _ => 0#8, 0⟩, ⟨by decide, by decide⟩⟩]).any (fun s =>
          (s.task.table 2).filePosition = 16#32 ∧ (s.task.table 2).inode = 0#32 ∧
          (s.task.table 2).flag ≠ 0#32 ∧
          (s.task.table 2).fileOpTb.readFn = .fileRead) = true := by
    decide
  obtain ⟨s, hrun, hs⟩ := exists_run_of_any hcs
  rw [decide_eq_true_eq] at hs
  obtain ⟨hpos, hinode, hreg⟩ := hs
  obtain ⟨hdelivered, hlength, -⟩ := file_cursors ⟨smallImage, 0, fun _ => true⟩
    smallImage_wellFormed (consistent_createTable _ _ _) hrun 2 hreg
  rw [hinode] at hdelivered
  rw [hpos] at hlength
  exact ⟨s, hpos, hdelivered, hlength.symm⟩

end

end Osgods
