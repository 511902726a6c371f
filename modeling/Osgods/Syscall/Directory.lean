import Osgods.Syscall.Cursor
import Osgods.Syscall.Buffer

/-!
# Reading a directory

A process opens a directory and reads it 32 bytes at a time, while it goes on with its other
descriptors. The log of these reads is compared with the entries of the directory: `dir_read`
delivers them in order, but it announces the 63rd name as the end.
-/

namespace Osgods

open ByteCopy Transition

/-- A read of the directory: its result, what it has stored, and the 32 bytes that the process then
finds in its buffer. -/
structure DirRead where
  result : Word
  stores : List (Word × Byte)
  found  : List Byte

structure DirState where
  task : Task
  log  : List DirRead

/-- What a call adds to the log of descriptor `i`. -/
def logRead (E : FileEnv) (i : Fd) (τ τ' : Task) (c : Call) (r : Option Word) : List DirRead :=
  match c, r with
  | .read fd buf nbytes keys, some r =>
    if fdOf fd = some i then
      [⟨r, (readStores E keys fd buf nbytes τ).all, returned τ' buf fileNameSize⟩]
    else []
  | _, _ => []

def dirStep (E : FileEnv) (i : Fd) (s : DirState) (c : OwnCall) : Option DirState :=
  (s.task.step E c.1).map fun r => ⟨r.2, s.log ++ logRead E i s.task r.2 c.1 r.1⟩

/-- The loop over the directory reads 32 bytes a time, and nobody closes its descriptor. -/
def KeepsDir (i : Fd) : Call → Prop
  | .read fd _ nbytes _ => fdOf fd = some i → nbytes = 32#32
  | .close fd           => fdOf fd ≠ some i
  | _                   => True

/-- The names come one after the other, each with a result that is not 0, and then nothing. -/
def Enumerates (img : Image) (log : List DirRead) : Prop :=
  ∀ k x, log[k]? = some x →
    (k < img.numDirEntries.toNat → x.result ≠ 0#32 ∧ x.found = (img.dirEntries k).fileName) ∧
      (img.numDirEntries.toNat ≤ k → x.result = 0#32 ∧ x.stores = [])

/-- What `dir_read` makes of it. -/
def DirLog (img : Image) (log : List DirRead) : Prop :=
  ∀ k x, log[k]? = some x →
    (k < img.numDirEntries.toNat →
      x.result = (if k + 1 < 63 then 32#32 else 0#32) ∧ x.found = (img.dirEntries k).fileName) ∧
      (img.numDirEntries.toNat ≤ k → x.result = 0#32 ∧ x.stores = [])

/-- Between two calls, the position is the number of names that have been read. -/
structure DirOpen (img : Image) (i : Fd) (s : DirState) : Prop where
  flags  : ∀ j, (s.task.table j).flag = 0#32 ∨ (s.task.table j).flag = 1#32
  object : s.task.table i =
    ⟨dirTable, 0#32, BitVec.ofNat 32 (min s.log.length img.numDirEntries.toNat), 1#32⟩
  log    : DirLog img s.log

section

variable {E : FileEnv} {τ τ' : Task} {i : Fd} {c : Call} {r : Option Word} {s s' : DirState}
  {fd buf nbytes w : Word} {keys : KeyBuffer}

/-! ### The flags of a table -/

/-- Every flag is 0 or 1. -/
def FlagsOk (t : FileTable) : Prop := ∀ j, (t j).flag = 0#32 ∨ (t j).flag = 1#32

lemma FlagsOk.update {t : FileTable} {j : Fd} {o : FileObject} (h : FlagsOk t)
    (ho : o.flag = 0#32 ∨ o.flag = 1#32) : FlagsOk (Function.update t j o) := by
  intro k
  by_cases hk : k = j
  · subst hk
    rwa [Function.update_self]
  · rw [Function.update_of_ne hk]
    exact h k

/-- A call changes one descriptor at most: a closed one, one that it names, or one of the RTC. -/
lemma step_update (hflags : FlagsOk τ.table) (hown : c.OwnBuffer) (h : τ.step E c = some (r, τ')) :
    τ'.table = τ.table ∨ ∃ j o, τ'.table = Function.update τ.table j o ∧
      (o.flag = 0#32 ∨ o.flag = 1#32) ∧
        ((τ.table j).flag = 0#32 ∨ (∃ fd, c = .close fd ∧ fdOf fd = some j) ∨
          (∃ fd buf nbytes keys, c = .read fd buf nbytes keys ∧ fdOf fd = some j) ∨
          (τ.table j).inode = -1#32) := by
  cases c with
  | «open» filename =>
    cases hcall : openCall E.img filename τ.table with
    | mk w t' =>
      simp only [Task.step, hcall] at h
      cases h
      rcases openCall_cases hcall with ⟨-, rfl⟩ | ⟨j, fname, d, hfree, -, -, -, -, rfl⟩
      · exact Or.inl rfl
      · have hclosed : (τ.table j).flag = 0#32 := by
          rcases findFree_finRange hflags with ⟨k, hk, hzero, -⟩ | ⟨hnone, -⟩
          · obtain rfl := Option.some.inj (hfree.symm.trans hk)
            exact hzero
          · rw [hfree] at hnone
            cases hnone
        exact Or.inr ⟨j, _, rfl, Or.inr rfl, Or.inl hclosed⟩
  | close fd =>
    cases hcall : closeCall fd τ.table with
    | mk w t' =>
      simp only [Task.step, hcall] at h
      cases h
      rcases closeCall_cases hcall with ⟨-, rfl, -⟩ | ⟨j, hj, -, -, -, rfl⟩
      · exact Or.inl rfl
      · exact Or.inr ⟨j, _, rfl, Or.inl rfl, Or.inr (Or.inl ⟨fd, rfl, hj⟩)⟩
  | read fd buf nbytes keys =>
    obtain ⟨⟨w, τ₁⟩, hcall, heq⟩ := Option.map_eq_some_iff.mp h
    cases heq
    rcases readCall_cases hcall with ⟨-, rfl⟩ | ⟨j, hj, -, hn, -, hcall⟩
    · exact Or.inl rfl
    · obtain ⟨p, htable⟩ := callRead_table hcall hn
        (outsideKernel_of_own hown.1 hown.2 (readExtent_le _ hn))
      exact Or.inr ⟨j, _, htable, hflags j,
        Or.inr (Or.inr (Or.inl ⟨fd, buf, nbytes, keys, rfl, hj⟩))⟩
  | write fd buf nbytes =>
    obtain ⟨w, -, heq⟩ := Option.map_eq_some_iff.mp h
    cases heq
    exact Or.inl rfl
  | rtcInterrupt =>
    cases h
    rcases rtcTick_cases τ.table with heq | ⟨j, hj, -, heq⟩
    · exact Or.inl heq
    · exact Or.inr ⟨j, _, heq, hflags j, Or.inr (Or.inr (Or.inr hj))⟩

lemma step_flags (hflags : FlagsOk τ.table) (hown : c.OwnBuffer) (h : τ.step E c = some (r, τ')) :
    FlagsOk τ'.table := by
  rcases step_update hflags hown h with heq | ⟨j, o, heq, ho, -⟩
  · rwa [heq]
  · rw [heq]
    exact hflags.update ho

/-- A call that does not concern an open descriptor leaves it alone. -/
lemma step_other (hflags : FlagsOk τ.table) (hopen : (τ.table i).flag = 1#32)
    (hinode : (τ.table i).inode ≠ -1#32) (hown : c.OwnBuffer)
    (hclose : ∀ fd, c = .close fd → fdOf fd ≠ some i)
    (hread : ∀ fd buf nbytes keys, c = .read fd buf nbytes keys → fdOf fd ≠ some i)
    (h : τ.step E c = some (r, τ')) : τ'.table i = τ.table i := by
  rcases step_update hflags hown h with heq | ⟨j, o, heq, -, hj⟩
  · rw [heq]
  · have hij : i ≠ j := by
      rintro rfl
      rcases hj with hzero | ⟨fd, hc, hfd⟩ | ⟨fd, buf, nbytes, keys, hc, hfd⟩ | hrtc
      · rw [hopen] at hzero
        exact absurd hzero (by decide)
      · exact hclose fd hc hfd
      · exact hread fd buf nbytes keys hc hfd
      · exact hinode hrtc
    rw [heq, Function.update_of_ne hij]

/-! ### A read of the directory -/

/-- The check of `read_dentry_by_index`. -/
lemma readDentryByIndex_ofNat {img : Image} {p : ℕ} (hpos : 1 ≤ img.numDirEntries.toNat)
    (hp : p ≤ 63) :
    readDentryByIndex img (BitVec.ofNat 32 p) =
      if p < img.numDirEntries.toNat then some (img.dirEntries p) else none := by
  have hne : img.numDirEntries ≠ 0#32 := by
    intro hzero
    rw [hzero] at hpos
    exact absurd hpos (by decide)
  have hcheck : img.numDirEntries - 1 < BitVec.ofNat 32 p ↔ ¬ p < img.numDirEntries.toNat := by
    rw [← BitVec.not_le, le_sub_one_iff hne, BitVec.lt_def, BitVec.toNat_ofNat,
      Nat.mod_eq_of_lt (by omega)]
  have hnat : (BitVec.ofNat 32 p).toNat = p := by
    rw [BitVec.toNat_ofNat, Nat.mod_eq_of_lt (by omega)]
  by_cases hlt : p < img.numDirEntries.toNat
  · rw [readDentryByIndex, if_neg (fun h => hcheck.mp h hlt), if_pos hlt, hnat]
  · rw [readDentryByIndex, if_pos (hcheck.mpr hlt), if_neg hlt]

/-- The end of the loop, as `dir_read` sees it. -/
lemma position_slt {p : ℕ} (hp : p ≤ 63) :
    (BitVec.ofNat 32 p + 1#32).slt 63#32 = decide (p + 1 < 63) := by
  have hnat : (BitVec.ofNat 32 p + 1#32).toNat = p + 1 := by
    rw [BitVec.toNat_add, BitVec.toNat_ofNat, BitVec.toNat_ofNat]
    omega
  rw [BitVec.slt_eq_decide, BitVec.toInt_eq_toNat_cond, BitVec.toInt_eq_toNat_cond, hnat,
    BitVec.toNat_ofNat]
  simp only [decide_eq_decide]
  omega

/-- What is true of each entry of a list remains so when one more is added. -/
lemma forall_getElem?_snoc {β : Type*} {l : List β} {x : β} {P : ℕ → β → Prop}
    (h : ∀ k y, l[k]? = some y → P k y) (hx : P l.length x) :
    ∀ k y, (l ++ [x])[k]? = some y → P k y := by
  intro k y hy
  rcases Nat.lt_trichotomy k l.length with hk | rfl | hk
  · rw [List.getElem?_append_left hk] at hy
    exact h k y hy
  · rw [List.getElem?_concat_length] at hy
    cases hy
    exact hx
  · rw [List.getElem?_eq_none (by simp; omega)] at hy
    cases hy

/-- The bytes of a name, once they are stored. -/
lemma returned_name (d : Dentry) (mem : Word → Byte) :
    (List.range fileNameSize).map (fun j =>
      storeAll mem (fill buf fileNameSize fun j => d.fileName.getD j 0) (buf + BitVec.ofNat 32 j)) =
        d.fileName := by
  have hget : ∀ j ∈ List.range fileNameSize,
      storeAll mem (fill buf fileNameSize fun j => d.fileName.getD j 0) (buf + BitVec.ofNat 32 j) =
        d.fileName.getD j 0 :=
    fun j hj => storeAll_fill (by decide) (List.mem_range.mp hj)
  rw [List.map_congr_left hget]
  apply List.ext_getElem?
  intro j
  by_cases hj : j < fileNameSize
  · have hlt : j < d.fileName.length := by rwa [d.fileName_length]
    simp [hj, hlt]
  · have hle : d.fileName.length ≤ j := by
      rw [d.fileName_length]
      exact Nat.le_of_not_lt hj
    simp [hj, hle]

variable (hpos : 1 ≤ E.img.numDirEntries.toNat) (hmax : E.img.numDirEntries.toNat ≤ 63)

include hpos hmax

/-- A read of the directory delivers the next name, or nothing at the end. -/
lemma DirOpen.read (h : DirOpen E.img i s) (hlo : mb128 ≤ buf.toNat) (hhi : buf.toNat < mb132)
    (hfd : fdOf fd = some i) (hcall : readCall E keys fd buf 32#32 s.task = some (w, τ')) :
    DirOpen E.img i ⟨τ', s.log ++ [⟨w, (readStores E keys fd buf 32#32 s.task).all,
      returned τ' buf fileNameSize⟩]⟩ := by
  have hopen : (s.task.table i).flag ≠ 0#32 := by
    rw [h.object]
    exact (by decide : (1#32 : Word) ≠ 0#32)
  have hbuf := own_ne_zero hlo
  have hstores : readStores E keys fd buf 32#32 s.task =
      callStores E.img keys (s.task.table i) buf 32#32 := by
    have hargs : ¬ (buf = 0#32 ∨ (32#32).slt 0#32 = true) := by simp [hbuf]
    simp only [readStores, hfd, if_neg hargs, if_neg hopen]
  rw [readCall_of_open hfd hbuf (by decide) hopen] at hcall
  have hread : (s.task.table i).fileOpTb.readFn = .dirRead := by
    rw [h.object]
    rfl
  have hposition : (s.task.table i).filePosition =
      BitVec.ofNat 32 (min s.log.length E.img.numDirEntries.toNat) := by
    rw [h.object]
  have hentry := readDentryByIndex_ofNat (p := min s.log.length E.img.numDirEntries.toNat) hpos
    (by omega)
  simp only [callRead, hread, dirRead, hposition, hentry] at hcall
  simp only [callStores, hread, hposition, hentry] at hstores
  by_cases hlt : s.log.length < E.img.numDirEntries.toNat
  · -- one more name
    have hmin : min s.log.length E.img.numDirEntries.toNat = s.log.length := by omega
    simp only [hmin, if_pos hlt] at hcall
    obtain ⟨τ₁, hst, heq⟩ := Option.map_eq_some_iff.mp hcall
    have htable := store_table (fun st hs => by
      obtain ⟨j, hj, rfl⟩ := mem_fill.mp hs
      exact outsideKernel_of_own hlo hhi (by decide) j hj) hst
    have hmem : τ₁.mem = storeAll s.task.mem (fill buf fileNameSize fun j =>
        (E.img.dirEntries s.log.length).fileName.getD j 0) := by
      rw [store_eq_some hst, Task.store]
    rw [htable, hposition, hmin, position_slt (by omega)] at heq
    cases heq
    refine ⟨?_, ?_, forall_getElem?_snoc h.log ⟨fun _ => ⟨by simp, ?_⟩, fun hle => by omega⟩⟩
    · rw [setPosition_table, htable]
      exact FlagsOk.update h.flags (h.flags i)
    · have hnext : min (s.log.length + 1) E.img.numDirEntries.toNat = s.log.length + 1 := by omega
      rw [setPosition_table, Function.update_self, htable, h.object, List.length_append,
        List.length_singleton, hnext, BitVec.ofNat_add]
    · rw [← returned_name (E.img.dirEntries s.log.length) s.task.mem, ← hmem]
      rfl
  · -- the end
    have hmin : min s.log.length E.img.numDirEntries.toNat = E.img.numDirEntries.toNat := by omega
    simp only [hmin, lt_irrefl, if_false] at hcall hstores
    cases hcall
    refine ⟨h.flags, ?_, forall_getElem?_snoc h.log ⟨fun hlt' => absurd hlt' hlt, fun _ => ?_⟩⟩
    · have hnext : min (s.log.length + 1) E.img.numDirEntries.toNat =
          E.img.numDirEntries.toNat := by omega
      rw [List.length_append, List.length_singleton, hnext, h.object, hmin]
    · rw [hstores]
      exact ⟨rfl, rfl⟩

/-- The loop and whatever goes on beside it keep the directory in step with the log. -/
lemma DirOpen.step (h : DirOpen E.img i s) {c : OwnCall}
    (hstep : Guarded (Graph (dirStep E i)) (fun _ c => KeepsDir i c.1) s c s') :
    DirOpen E.img i s' := by
  obtain ⟨hstep, hkeep⟩ := hstep
  obtain ⟨⟨r, τ⟩, hcall, rfl⟩ := Option.map_eq_some_iff.mp hstep
  obtain ⟨c, hown⟩ := c
  by_cases hread : ∃ fd buf nbytes keys, c = .read fd buf nbytes keys ∧ fdOf fd = some i
  · obtain ⟨fd, buf, nbytes, keys, rfl, hfd⟩ := hread
    obtain rfl : nbytes = 32#32 := hkeep hfd
    obtain ⟨⟨w, τ₁⟩, hret, heq⟩ := Option.map_eq_some_iff.mp hcall
    cases heq
    have hnext := h.read hpos hmax hown.1 hown.2 hfd hret
    simpa only [logRead, if_pos hfd] using hnext
  · have hlog : logRead E i s.task τ c r = [] := by
      cases c with
      | read fd buf nbytes keys =>
        cases r with
        | none => rfl
        | some w => exact if_neg fun hfd => hread ⟨fd, buf, nbytes, keys, rfl, hfd⟩
      | «open» filename => rfl
      | close fd => rfl
      | write fd buf nbytes => rfl
      | rtcInterrupt => rfl
    have hinode : (s.task.table i).inode ≠ -1#32 := by
      rw [h.object]
      exact (by decide : (0#32 : Word) ≠ -1#32)
    have hobject := step_other h.flags (by rw [h.object]) hinode hown
      (fun fd hc => by subst hc; exact hkeep)
      (fun fd buf nbytes keys hc hfd => hread ⟨fd, buf, nbytes, keys, hc, hfd⟩) hcall
    rw [hlog, List.append_nil]
    exact ⟨step_flags h.flags hown hcall, hobject.trans h.object, h.log⟩

/-- One more turn of the loop, with a buffer at the start of the page. -/
lemma DirOpen.exists_read (h : DirOpen E.img i s) (hpage : ∀ a, UserPage a → E.mapped a = true) :
    ∃ c s', Guarded (Graph (dirStep E i)) (fun _ c => KeepsDir i c.1) s c s' ∧
      DirOpen E.img i s' ∧ s'.log.length = s.log.length + 1 := by
  have hfd : fdOf (BitVec.ofNat 32 i) = some i := fdOf_ofNat i
  have hown : Call.OwnBuffer (.read (BitVec.ofNat 32 i) 0x8000000#32 32#32 ⟨fun _ => 0#8, 0⟩) :=
    ⟨by decide, by decide⟩
  have hsome : ∃ w τ', readCall E ⟨fun _ => 0#8, 0⟩ (BitVec.ofNat 32 i) 0x8000000#32 32#32 s.task =
      some (w, τ') := by
    have hread : (s.task.table i).fileOpTb.readFn = .dirRead := by
      rw [h.object]
      rfl
    have hopen : (s.task.table i).flag ≠ 0#32 := by
      rw [h.object]
      exact (by decide : (1#32 : Word) ≠ 0#32)
    have hmapped : ∀ d : Dentry, ∀ st ∈ fill 0x8000000#32 fileNameSize fun j =>
        d.fileName.getD j 0, E.mapped st.1 = true := by
      intro d st hst
      obtain ⟨j, hj, rfl⟩ := mem_fill.mp hst
      exact hpage _ ((userRange_iff (n := fileNameSize) (by decide)).mpr (by decide) j hj)
    rw [readCall_of_open hfd (by decide) (by decide) hopen]
    cases hentry : readDentryByIndex E.img (s.task.table i).filePosition with
    | none =>
      simp only [callRead, hread, dirRead, hentry]
      exact ⟨_, _, rfl⟩
    | some d =>
      simp only [callRead, hread, dirRead, hentry, store_of_mapped (hmapped d)]
      exact ⟨_, _, rfl⟩
  obtain ⟨w, τ', hcall⟩ := hsome
  refine ⟨⟨_, hown⟩, _, ⟨?_, fun _ => rfl⟩, h.read hpos hmax hown.1 hown.2 hfd hcall, by simp⟩
  rw [Transition.Graph, dirStep, Task.step, hcall, Option.map_some, Option.map_some, logRead,
    if_pos hfd]

lemma DirOpen.exists_reads (h : DirOpen E.img i s) (hpage : ∀ a, UserPage a → E.mapped a = true)
    (n : ℕ) : ∃ cs s', Run (Guarded (Graph (dirStep E i)) fun _ c => KeepsDir i c.1) s cs s' ∧
      DirOpen E.img i s' ∧ s'.log.length = s.log.length + n := by
  induction n with
  | zero => exact ⟨[], s, .refl s, h, rfl⟩
  | succ n ih =>
    obtain ⟨cs, s₁, hrun, hs₁, hlen₁⟩ := ih
    obtain ⟨c, s₂, hstep, hs₂, hlen₂⟩ := hs₁.exists_read hpos hmax hpage
    exact ⟨cs ++ [c], s₂, hrun.snoc hstep, hs₂, by omega⟩

omit hpos hmax

/-- The log of a directory that is not full is as it should be. -/
lemma DirLog.enumerates {img : Image} {log : List DirRead} (h : DirLog img log)
    (hn : img.numDirEntries.toNat ≤ 62) : Enumerates img log := by
  intro k x hx
  obtain ⟨hname, hend⟩ := h k x hx
  refine ⟨fun hk => ⟨?_, (hname hk).2⟩, hend⟩
  rw [(hname hk).1, if_pos (by omega)]
  decide

/-- The last name of a full directory comes with the result 0. -/
lemma DirLog.not_enumerates {img : Image} {log : List DirRead} (h : DirLog img log)
    (hn : img.numDirEntries.toNat = 63) (hlen : log.length = 63) : ¬ Enumerates img log := by
  intro henum
  have hlast : log[62]? = some (log.get ⟨62, by omega⟩) := List.getElem?_eq_getElem (by omega)
  obtain ⟨hname, -⟩ := h 62 _ hlast
  have hresult := ((henum 62 _ hlast).1 (by omega)).1
  exact hresult (hname (by omega)).1

lemma dirOpen_fresh {d : Dentry} (hflags : FlagsOk τ.table) (hfresh : τ.table i = openObject d)
    (hdir : d.fileType = dirType) : DirOpen E.img i ⟨τ, []⟩ := by
  refine ⟨hflags, ?_, fun k x hx => by simp at hx⟩
  have hrtc : d.fileType ≠ rtcType := by
    rw [hdir]
    decide
  have hfile : d.fileType ≠ fileType := by
    rw [hdir]
    decide
  simp only [hfresh, openObject, if_neg hrtc, if_neg hfile, if_pos hdir, List.length_nil,
    Nat.zero_min]

/-- In a full directory the loop stops one name short. -/
lemma DirOpen.not_enumerates {τ : Task} (h : DirOpen E.img i ⟨τ, []⟩)
    (hn : E.img.numDirEntries.toNat = 63) (hpage : ∀ a, UserPage a → E.mapped a = true) :
    ∃ cs s, Run (Guarded (Graph (dirStep E i)) fun _ c => KeepsDir i c.1) ⟨τ, []⟩ cs s ∧
      ¬ Enumerates E.img s.log := by
  obtain ⟨cs, s, hrun, hs, hlen⟩ := h.exists_reads (by omega) (by omega) hpage 63
  exact ⟨cs, s, hrun, hs.log.not_enumerates hn (by simpa using hlen)⟩

end

/-- A process between its calls. -/
def ownStep (E : FileEnv) (τ : Task) (c : OwnCall) : Option Task := (τ.step E c.1).map Prod.snd

/-- The flags of a process's table, in every run. -/
lemma flagsOk_of_run {E : FileEnv} {mem : Word → Byte} {cs : List OwnCall} {τ : Task}
    (hrun : Run (Graph (ownStep E)) ⟨createTable, mem⟩ cs τ) : FlagsOk τ.table := by
  refine hrun.invariant (I := fun τ => FlagsOk τ.table) (fun τ c τ' hflags hstep => ?_) ?_
  · obtain ⟨⟨r, τ₁⟩, hcall, rfl⟩ := Option.map_eq_some_iff.mp hstep
    exact step_flags hflags c.2 hcall
  · show FlagsOk createTable
    unfold FlagsOk
    decide

/-- A directory is read name by name, whatever goes on beside it, unless it is full. -/
theorem directory_enumeration (E : FileEnv) (hpage : ∀ a, UserPage a → E.mapped a = true)
    (hpos : 1 ≤ E.img.numDirEntries.toNat) (hmax : E.img.numDirEntries.toNat ≤ 63)
    {mem : Word → Byte} {cs₀ : List OwnCall} {τ₀ : Task} {i : Fd} {d : Dentry}
    (hrun₀ : Run (Graph (ownStep E)) ⟨createTable, mem⟩ cs₀ τ₀)
    (hfresh : τ₀.table i = openObject d) (hdir : d.fileType = dirType) :
    (∀ cs s, Run (Guarded (Graph (dirStep E i)) fun _ c => KeepsDir i c.1) ⟨τ₀, []⟩ cs s →
      Enumerates E.img s.log) ↔ E.img.numDirEntries.toNat ≤ 62 := by
  have hopen : DirOpen E.img i ⟨τ₀, []⟩ := dirOpen_fresh (flagsOk_of_run hrun₀) hfresh hdir
  constructor
  · intro hall
    by_contra hfull
    obtain ⟨cs, s, hrun, hnot⟩ := hopen.not_enumerates (by omega) hpage
    exact hnot (hall cs s hrun)
  · intro hn cs s hrun
    have hs := hrun.invariant (I := DirOpen E.img i) (fun _ _ _ h hstep => h.step hpos hmax hstep)
      hopen
    exact hs.log.enumerates hn

def dotName : List Byte := [0x2e]

/-- A process opens the directory of the small image and reads it four times. -/
theorem directory_enumeration_small : ∃ s : DirState, s.log.length = 4 ∧
    Enumerates smallImage s.log := by
  have hcs : (runFrom (ownStep smallEnv) ⟨createTable, fun _ => 0#8⟩
      [⟨.open (some dotName), trivial⟩]).any (fun τ =>
        τ.table 2 = openObject (smallImage.dirEntries 0)) = true := by
    decide
  obtain ⟨τ₀, hrun₀, hτ₀⟩ := exists_run_of_any hcs
  have hfresh := of_decide_eq_true hτ₀
  have hopen : DirOpen smallImage 2 ⟨τ₀, []⟩ :=
    dirOpen_fresh (E := smallEnv) (flagsOk_of_run hrun₀) hfresh rfl
  obtain ⟨cs, s, hrun, -, hlen⟩ := hopen.exists_reads (E := smallEnv) (by decide) (by decide)
    smallEnv_page 4
  exact ⟨s, by simpa using hlen, (directory_enumeration smallEnv smallEnv_page (by decide)
    (by decide) hrun₀ hfresh rfl).mpr (by decide) cs s hrun⟩

/-- A directory of 63 entries. -/
def fullEnv : FileEnv :=
  { smallEnv with
    img := { smallImage with
      numDirEntries := 63
      dirEntries    := fun _ => .make (padName dotName (by decide)) 1 0 } }

/-- The loop over it ends before the last name. -/
theorem directory_enumeration_full : ∃ cs₀ τ₀ cs s,
    Run (Graph (ownStep fullEnv)) ⟨createTable, fun _ => 0#8⟩ cs₀ τ₀ ∧
      τ₀.table 2 = openObject (fullEnv.img.dirEntries 0) ∧
      Run (Guarded (Graph (dirStep fullEnv 2)) fun _ c => KeepsDir 2 c.1) ⟨τ₀, []⟩ cs s ∧
      ¬ Enumerates fullEnv.img s.log := by
  have hcs : (runFrom (ownStep fullEnv) ⟨createTable, fun _ => 0#8⟩
      [⟨.open (some dotName), trivial⟩]).any (fun τ =>
        τ.table 2 = openObject (fullEnv.img.dirEntries 0)) = true := by
    decide
  obtain ⟨τ₀, hrun₀, hτ₀⟩ := exists_run_of_any hcs
  have hfresh := of_decide_eq_true hτ₀
  have hopen : DirOpen fullEnv.img 2 ⟨τ₀, []⟩ :=
    dirOpen_fresh (E := fullEnv) (flagsOk_of_run hrun₀) hfresh rfl
  obtain ⟨cs, s, hrun, hnot⟩ := hopen.not_enumerates (E := fullEnv) rfl smallEnv_page
  exact ⟨_, τ₀, cs, s, hrun₀, hfresh, hrun, hnot⟩

end Osgods
