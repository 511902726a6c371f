import Osgods.Filesystem.ReadData
import Osgods.Syscall.Basic

/-!
# What a call leaves alone

A store outside the kernel's page cannot reach a descriptor table, so a read whose buffer stays out
of that page changes its own descriptor's position at most.
-/

namespace Osgods

open ByteCopy

/-- The 4 MB page of the kernel, with its data and all PCBs. -/
def KernelPage (a : Word) : Prop := mb4 ≤ a.toNat ∧ a.toNat < mb8

instance : DecidablePred KernelPage := fun _ => inferInstanceAs (Decidable (_ ∧ _))

/-- None of the `n` bytes from `buf` on lies in the kernel's page. -/
def OutsideKernel (buf : Word) (n : ℕ) : Prop := ∀ i < n, ¬ KernelPage (buf + BitVec.ofNat 32 i)

/-- How many bytes from `buf` on a read of a descriptor may store. -/
def readExtent (keys : KeyBuffer) (o : FileObject) (nbytes : Word) : ℕ :=
  match o.fileOpTb.readFn with
  | .terminalRead => if 128 ≤ keys.keybIndex then 0 else keys.keybIndex + 1
  | .dirRead      => fileNameSize
  | .fileRead     => nbytes.toNat
  | _             => 0

/-- A read stores into the page of its process. -/
def Call.OwnBuffer : Call → Prop
  | .read _ buf _ _ => mb128 ≤ buf.toNat ∧ buf.toNat < mb132
  | _               => True

instance : DecidablePred Call.OwnBuffer
  | .read _ _ _ _ => inferInstanceAs (Decidable (_ ∧ _))
  | .open _ | .close _ | .write _ _ _ | .rtcInterrupt => .isTrue trivial

section

variable {E : FileEnv} {τ τ' : Task} {i : Fd} {l : List (Word × Byte)} {keys : KeyBuffer}
  {fd buf nbytes r : Word} {n : ℕ}

/-- A buffer in the process's page never reaches the kernel's. -/
lemma outsideKernel_of_own (hlo : mb128 ≤ buf.toNat) (hhi : buf.toNat < mb132) (hn : n ≤ 2 ^ 31) :
    OutsideKernel buf n := by
  intro i hi hk
  simp only [KernelPage, mb4, mb8, mb128, mb132, BitVec.toNat_add, BitVec.toNat_ofNat] at *
  omega

lemma readExtent_le (o : FileObject) (hn : nbytes.toNat < 2 ^ 31) :
    readExtent keys o nbytes ≤ 2 ^ 31 := by
  unfold readExtent
  split
  · split_ifs <;> omega
  · decide
  · omega
  · omega

lemma pcbAddress_add_toNat : ∀ s : Slot, (pcbAddress s + 8#32).toNat = mb8 - kb8 * (s + 1) + 8 := by
  decide

lemma tableAddress_toNat (E : FileEnv) :
    E.tableAddress.toNat = mb8 - kb8 * (E.slot + 1) + 8 :=
  pcbAddress_add_toNat E.slot

lemma patch_of_not_kernelPage {t : FileTable} {s : Word × Byte} (h : ¬ KernelPage s.1) :
    FileTable.patch E.tableAddress t s = t := by
  have hslot := E.slot.isLt
  have haddr := tableAddress_toNat E
  have hs := s.1.isLt
  have hfar : ¬ (s.1 - E.tableAddress).toNat < fileTableSize := by
    rw [BitVec.toNat_sub, haddr]
    simp only [KernelPage, mb4, mb8, kb8, fileTableSize, fileObjectSize] at h ⊢
    omega
  rw [FileTable.patch]
  exact dif_neg hfar

lemma foldl_patch_of_not_kernelPage {t : FileTable} (h : ∀ s ∈ l, ¬ KernelPage s.1) :
    l.foldl (FileTable.patch E.tableAddress) t = t := by
  induction l with
  | nil => rfl
  | cons s l ih =>
    rw [List.foldl_cons, patch_of_not_kernelPage (h s List.mem_cons_self)]
    exact ih fun s' hs' => h s' (List.mem_cons_of_mem s hs')

lemma store_eq_some (h : τ.store? E l = some τ') : τ' = τ.store E l := by
  unfold Task.store? at h
  split at h
  · exact (Option.some.inj h).symm
  · cases h

lemma store_table (h : ∀ s ∈ l, ¬ KernelPage s.1) (hst : τ.store? E l = some τ') :
    τ'.table = τ.table := by
  rw [store_eq_some hst]
  exact foldl_patch_of_not_kernelPage h

@[simp] lemma setPosition_table (p : Word) :
    (τ.setPosition i p).table =
      Function.update τ.table i { τ.table i with filePosition := p } := rfl

@[simp] lemma setPosition_mem (p : Word) : (τ.setPosition i p).mem = τ.mem := rfl

/-- A table that differs from another in one position at most. -/
lemma eq_update_position (t : FileTable) (i : Fd) :
    t = Function.update t i { t i with filePosition := (t i).filePosition } := by
  rw [Function.update_eq_self]

/-- A read outside the kernel's page changes its own position at most. -/
lemma callRead_table (h : callRead E keys i buf nbytes τ = some (r, τ'))
    (hn : nbytes.toNat < 2 ^ 31) (hbuf : OutsideKernel buf (readExtent keys (τ.table i) nbytes)) :
    ∃ p, τ'.table = Function.update τ.table i { τ.table i with filePosition := p } := by
  unfold callRead at h
  unfold readExtent at hbuf
  split at h
  · next hfn =>
    rw [hfn] at hbuf
    unfold terminalRead at h
    split at h
    · cases h
      exact ⟨_, eq_update_position _ _⟩
    · next hidx =>
      simp only [if_neg hidx] at hbuf
      obtain ⟨τ₁, hst, heq⟩ := Option.map_eq_some_iff.mp h
      cases heq
      refine ⟨_, (store_table (fun s hs => ?_) hst).trans (eq_update_position _ _)⟩
      rcases List.mem_append.mp hs with hs | hs
      · obtain ⟨j, hj, rfl⟩ := mem_fill.mp hs
        exact hbuf j (by omega)
      · rw [List.mem_singleton] at hs
        rw [hs]
        exact hbuf _ (Nat.lt_succ_self _)
  · cases h
    exact ⟨_, eq_update_position _ _⟩
  · unfold rtcRead at h
    split at h
    · cases h
    · cases h
      exact ⟨_, rfl⟩
  · next hfn =>
    rw [hfn] at hbuf
    unfold dirRead at h
    split at h
    · cases h
      exact ⟨_, eq_update_position _ _⟩
    · obtain ⟨τ₁, hst, heq⟩ := Option.map_eq_some_iff.mp h
      cases heq
      have htable := store_table (fun s hs => by
        obtain ⟨j, hj, rfl⟩ := mem_fill.mp hs
        exact hbuf j hj) hst
      exact ⟨_, by rw [setPosition_table, htable]⟩
  · next hfn =>
    rw [hfn] at hbuf
    unfold fileRead at h
    obtain ⟨τ₁, hst, heq⟩ := Option.map_eq_some_iff.mp h
    have htable := store_table (fun s hs => by
      obtain ⟨j, hj, heq⟩ := readData_stores_subset hn hs
      rw [heq]
      exact hbuf j hj) hst
    split at heq
    · cases heq
      exact ⟨_, htable.trans (eq_update_position _ _)⟩
    · cases heq
      exact ⟨_, by rw [setPosition_table, htable]⟩
  · cases h
    exact ⟨_, eq_update_position _ _⟩
  · cases h

lemma toNat_lt_of_not_slt (h : ¬ nbytes.slt 0#32) : nbytes.toNat < 2 ^ 31 := by
  simp only [BitVec.slt_eq_decide, BitVec.toInt_eq_toNat_cond, decide_eq_true_eq,
    BitVec.toNat_ofNat] at h
  have hlt := nbytes.isLt
  omega

/-- A read either fails its checks and does nothing, or calls the descriptor's operation. -/
lemma readCall_cases (h : readCall E keys fd buf nbytes τ = some (r, τ')) :
    (r = -1#32 ∧ τ' = τ) ∨
      ∃ i, fdOf fd = some i ∧ buf ≠ 0#32 ∧ nbytes.toNat < 2 ^ 31 ∧ (τ.table i).flag ≠ 0#32 ∧
        callRead E keys i buf nbytes τ = some (r, τ') := by
  unfold readCall at h
  split at h
  · cases h
    exact Or.inl ⟨rfl, rfl⟩
  · next i hi =>
    split_ifs at h with hargs hflag
    · cases h
      exact Or.inl ⟨rfl, rfl⟩
    · cases h
      exact Or.inl ⟨rfl, rfl⟩
    · obtain ⟨hbuf, hn⟩ := not_or.mp hargs
      exact Or.inr ⟨i, hi, hbuf, toNat_lt_of_not_slt hn, hflag, h⟩

/-- On an open descriptor, with arguments that pass its checks, `read` is the operation. -/
lemma readCall_of_open (hfd : fdOf fd = some i) (hbuf : buf ≠ 0#32) (hn : nbytes.slt 0#32 = false)
    (hflag : (τ.table i).flag ≠ 0#32) :
    readCall E keys fd buf nbytes τ = callRead E keys i buf nbytes τ := by
  have hargs : ¬ (buf = 0#32 ∨ nbytes.slt 0#32 = true) := by
    simp [hbuf, hn]
  unfold readCall
  rw [hfd]
  simp only [if_neg hargs, if_neg hflag]

/-! ### The other calls -/

lemma fdOf_eq_some : fdOf fd = some i ↔ fd.toNat = i.val := by
  unfold fdOf
  have hi := i.isLt
  split_ifs with h
  · rw [Option.some.injEq, Fin.ext_iff]
  · constructor
    · intro h'
      cases h'
    · intro h'
      omega

@[simp] lemma fdOf_ofNat (i : Fd) : fdOf (BitVec.ofNat 32 i) = some i := by
  have hi := i.isLt
  rw [fdOf_eq_some, BitVec.toNat_ofNat]
  omega

@[simp] lemma fdOf_neg_one : fdOf (-1#32) = none := by
  decide

/-- The types that `open` accepts. -/
lemma openType_cases {t : Word} (h : ¬ (t.slt rtcType ∨ fileType.slt t)) :
    t = rtcType ∨ t = dirType ∨ t = fileType := by
  simp only [rtcType, dirType, fileType, BitVec.slt_eq_decide, BitVec.toInt_eq_toNat_cond,
    decide_eq_true_eq, BitVec.ofNat_eq_ofNat, BitVec.toNat_ofNat] at h ⊢
  have hlt := t.isLt
  have hcases : t.toNat = 0 ∨ t.toNat = 1 ∨ t.toNat = 2 := by omega
  rcases hcases with h | h | h
  · exact Or.inl (BitVec.eq_of_toNat_eq h)
  · exact Or.inr (Or.inl (BitVec.eq_of_toNat_eq h))
  · exact Or.inr (Or.inr (BitVec.eq_of_toNat_eq h))

/-- A call of `open` fails and does nothing, or fills the descriptor it returns. -/
lemma openCall_cases {img : Image} {filename : Option (List Byte)} {t t' : FileTable}
    (h : openCall img filename t = (r, t')) :
    (r = -1#32 ∧ t' = t) ∨
      ∃ i fname d, findFree t (List.finRange 8) = some i ∧ filename = some fname ∧
        readDentryByName img fname = some d ∧
        ¬ (d.fileType.slt rtcType ∨ fileType.slt d.fileType) ∧
        r = BitVec.ofNat 32 i ∧ t' = Function.update t i (openObject d) := by
  unfold openCall at h
  split at h
  · cases h
    exact Or.inl ⟨rfl, rfl⟩
  · next i hi =>
    split at h
    · cases h
      exact Or.inl ⟨rfl, rfl⟩
    · next fname =>
      split at h
      · cases h
        exact Or.inl ⟨rfl, rfl⟩
      · next d hd =>
        split at h
        · cases h
          exact Or.inl ⟨rfl, rfl⟩
        · next htype =>
          cases h
          exact Or.inr ⟨i, fname, d, hi, rfl, hd, htype, rfl, rfl⟩

/-- A call of `close` fails and does nothing, or resets an open descriptor from 2 on. -/
lemma closeCall_cases {t t' : FileTable} (h : closeCall fd t = (r, t')) :
    (r = -1#32 ∧ t' = t ∧ ∀ i, fdOf fd = some i → 2 ≤ i.val → (t i).flag = 0#32) ∨
      ∃ i, fdOf fd = some i ∧ 2 ≤ i.val ∧ (t i).flag ≠ 0#32 ∧ r = 0#32 ∧
        t' = Function.update t i closeObject := by
  unfold closeCall at h
  split at h
  · next hfd =>
    cases h
    exact Or.inl ⟨rfl, rfl, fun i hi => by rw [hfd] at hi; cases hi⟩
  · next i hi =>
    split_ifs at h with hlow hflag
    · cases h
      refine Or.inl ⟨rfl, rfl, fun j hj h2 => ?_⟩
      obtain rfl := Option.some.inj (hi.symm.trans hj)
      omega
    · cases h
      refine Or.inl ⟨rfl, rfl, fun j hj _ => ?_⟩
      obtain rfl := Option.some.inj (hi.symm.trans hj)
      exact hflag
    · cases h
      exact Or.inr ⟨i, hi, by omega, hflag, rfl, rfl⟩

/-- The interrupt handler advances one RTC descriptor at most. -/
lemma rtcTick_cases (t : FileTable) :
    rtcTick t = t ∨ ∃ i, (t i).inode = -1#32 ∧ (t i).flag = 1#32 ∧
      rtcTick t = Function.update t i { t i with filePosition := (t i).filePosition + 1#32 } := by
  unfold rtcTick
  split
  · exact Or.inl rfl
  · next i hi =>
    have hrtc := List.find?_some hi
    rw [decide_eq_true_eq] at hrtc
    exact Or.inr ⟨i, hrtc.1, hrtc.2, rfl⟩

end

end Osgods
