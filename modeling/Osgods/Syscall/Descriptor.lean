import Osgods.Syscall.Frame
import Osgods.Library.Transition

/-!
# The descriptor table

What `open`, `close`, `read`, `write` and the RTC interrupt keep true of a process's descriptor
table, from `create_pcb` on. `read` stores wherever its buffer points, the kernel's page included,
so the table is safe in the runs whose reads keep out of that page.
-/

namespace Osgods

open ByteCopy Transition

/-- The operations of a file type. -/
def typeTable (type : Word) : Option FileOpTable :=
  if type = rtcType then some rtcTable
  else if type = dirType then some dirTable
  else if type = fileType then some fileTable
  else none

structure DescriptorState where
  task   : Task
  opened : Fd → Option Dentry

/-- Which entry a descriptor was last opened on. -/
def noteOpen (img : Image) (c : Call) (r : Option Word) (opened : Fd → Option Dentry) :
    Fd → Option Dentry :=
  match c, r with
  | .open (some fname), some r =>
    match fdOf r with
    | some i => Function.update opened i (readDentryByName img fname)
    | none   => opened
  | _, _ => opened

def descriptorStep (E : FileEnv) (s : DescriptorState) (c : Call) : Option DescriptorState :=
  (s.task.step E c).map fun r => ⟨r.2, noteOpen E.img c r.1 s.opened⟩

/-- A process as `create_pcb` leaves it. -/
def newProcess (mem : Word → Byte) : DescriptorState := ⟨⟨createTable, mem⟩, fun _ => none⟩

/-- No entry of the directory has a negative inode number. -/
def Image.InodesNonneg (img : Image) : Prop :=
  ∀ i < img.numDirEntries.toInt.toNat, (img.dirEntries i).inodeId.slt 0#32 = false

/-- A descriptor open on a directory entry. -/
def FileObject.OpenOn (o : FileObject) (d : Dentry) : Prop :=
  typeTable d.fileType = some o.fileOpTb ∧ (o.inode = -1#32 ↔ d.fileType = rtcType)

/-- The shape of the descriptor table. -/
structure TableOk (t : FileTable) (opened : Fd → Option Dentry) : Prop where
  stdin  : (t 0).flag = 1#32 ∧ (t 0).fileOpTb = stdinTable
  stdout : (t 1).flag = 1#32 ∧ (t 1).fileOpTb = stdoutTable
  flags  : ∀ i, (t i).flag = 0#32 ∨ (t i).flag = 1#32
  opens  : ∀ i, 2 ≤ i.val → (t i).flag = 1#32 → ∃ d, opened i = some d ∧ (t i).OpenOn d

/-- Why a call of `open` must fail. -/
def OpenFails (img : Image) (t : FileTable) (filename : Option (List Byte)) : Prop :=
  (∀ i : Fd, 2 ≤ i.val → (t i).flag = 1#32) ∨ filename = none ∨
    (∃ fname, filename = some fname ∧ readDentryByName img fname = none) ∨
    ∃ fname d, filename = some fname ∧ readDentryByName img fname = some d ∧
      typeTable d.fileType = none

/-- What the next call of each kind does on a table. -/
structure CallsOk (E : FileEnv) (τ : Task) : Prop where
  openFails   : ∀ filename, (openCall E.img filename τ.table).1 = -1#32 ↔
    OpenFails E.img τ.table filename
  openLowest  : ∀ filename r t', openCall E.img filename τ.table = (r, t') → r ≠ -1#32 →
    ∃ i : Fd, r = BitVec.ofNat 32 i ∧ 2 ≤ i.val ∧ (τ.table i).flag = 0#32 ∧
      (∀ j : Fd, 2 ≤ j.val → j < i → (τ.table j).flag = 1#32) ∧
      (t' i).flag = 1#32 ∧ (t' i).filePosition = 0#32
  openFrame   : ∀ filename t', openCall E.img filename τ.table = (-1#32, t') → t' = τ.table
  closeOpen   : ∀ fd, (closeCall fd τ.table).1 = 0#32 ↔
    ∃ i, fdOf fd = some i ∧ 2 ≤ i.val ∧ (τ.table i).flag = 1#32
  closeFrame  : ∀ fd r t', closeCall fd τ.table = (r, t') → r ≠ 0#32 →
    r = -1#32 ∧ t' = τ.table
  readClosed  : ∀ keys fd buf nbytes, (∀ i, fdOf fd = some i → (τ.table i).flag = 0#32) →
    readCall E keys fd buf nbytes τ = some (-1#32, τ)
  writeClosed : ∀ fd buf nbytes, (∀ i, fdOf fd = some i → (τ.table i).flag = 0#32) →
    writeCall E fd buf nbytes τ = some (-1#32)

/-- The buffer of a read that passes its checks keeps out of the kernel's page. -/
def ReadOutsideKernel (s : DescriptorState) : Call → Prop
  | .read fd buf nbytes keys => ∀ i, fdOf fd = some i → (s.task.table i).flag ≠ 0#32 →
    buf ≠ 0#32 → nbytes.slt 0#32 = false →
      OutsideKernel buf (readExtent keys (s.task.table i) nbytes)
  | _ => True

/-! ### The loop of `open` -/

section

variable {t : FileTable} {i : Fd}

/-- The loop stops at the first closed descriptor, and fails if there is none. -/
lemma findFree_spec (hflags : ∀ i, (t i).flag = 0#32 ∨ (t i).flag = 1#32) (l : List Fd)
    (hl : (7 : Fd) ∉ l) :
    (∃ pre i post, l ++ [7] = pre ++ i :: post ∧ (∀ j ∈ pre, (t j).flag = 1#32) ∧
        (t i).flag = 0#32 ∧ findFree t (l ++ [7]) = some i) ∨
      ((∀ j ∈ l ++ [7], (t j).flag = 1#32) ∧ findFree t (l ++ [7]) = none) := by
  induction l with
  | nil =>
    rcases hflags 7 with h | h
    · exact Or.inl ⟨[], 7, [], rfl, by simp, h, by simp [findFree, h]⟩
    · exact Or.inr ⟨by simp [h], by simp [findFree, h]⟩
  | cons k l ih =>
    have hk : k ≠ 7 := fun h => hl (h ▸ List.mem_cons_self)
    have hcons : findFree t (k :: l ++ [7]) =
        if (t k).flag = 0#32 then some k else findFree t (l ++ [7]) := by
      rw [List.cons_append, findFree, if_neg fun h => hk h.1]
    rw [hcons]
    rcases hflags k with h | h
    · exact Or.inl ⟨[], k, l ++ [7], rfl, by simp, h, if_pos h⟩
    · have hne : ¬ (t k).flag = 0#32 := by
        rw [h]
        decide
      rw [if_neg hne]
      rcases ih fun h7 => hl (List.mem_cons_of_mem k h7) with
        ⟨pre, i, post, heq, hpre, hi, hfind⟩ | ⟨hall, hfind⟩
      · refine Or.inl ⟨k :: pre, i, post, by rw [List.cons_append, heq, List.cons_append], ?_, hi,
          hfind⟩
        intro j hj
        rcases List.mem_cons.mp hj with rfl | hj
        · exact h
        · exact hpre j hj
      · refine Or.inr ⟨?_, hfind⟩
        intro j hj
        rcases List.mem_cons.mp hj with rfl | hj
        · exact h
        · exact hall j hj

lemma findFree_finRange (hflags : ∀ i, (t i).flag = 0#32 ∨ (t i).flag = 1#32) :
    (∃ i, findFree t (List.finRange 8) = some i ∧ (t i).flag = 0#32 ∧
        ∀ j < i, (t j).flag = 1#32) ∨
      (findFree t (List.finRange 8) = none ∧ ∀ j, (t j).flag = 1#32) := by
  have hsplit : List.finRange 8 = [0, 1, 2, 3, 4, 5, 6] ++ [7] := by decide
  have hsorted : (List.finRange 8).Pairwise (· < ·) := by decide
  rw [hsplit] at hsorted ⊢
  rcases findFree_spec hflags [0, 1, 2, 3, 4, 5, 6] (by decide) with
    ⟨pre, i, post, heq, hpre, hi, hfind⟩ | ⟨hall, hfind⟩
  · refine Or.inl ⟨i, hfind, hi, fun j hj => ?_⟩
    have hmem : j ∈ pre ++ i :: post := by
      rw [← heq, ← hsplit]
      exact List.mem_finRange j
    rw [heq, List.pairwise_append] at hsorted
    rcases List.mem_append.mp hmem with h | h
    · exact hpre j h
    · rcases List.mem_cons.mp h with rfl | h
      · exact absurd hj (lt_irrefl j)
      · exact absurd (hj.trans ((List.pairwise_cons.mp hsorted.2.1).1 j h)) (lt_irrefl j)
  · refine Or.inr ⟨hfind, fun j => hall j ?_⟩
    rw [← hsplit]
    exact List.mem_finRange j

end

/-! ### One call -/

section

variable {E : FileEnv} {s s' : DescriptorState} {τ τ' : Task} {t t' : FileTable}
  {opened : Fd → Option Dentry} {i : Fd} {keys : KeyBuffer} {fd buf nbytes r : Word}

lemma typeTable_eq_none {type : Word} :
    typeTable type = none ↔ type.slt rtcType ∨ fileType.slt type := by
  constructor
  · intro h
    by_contra hin
    rcases openType_cases hin with rfl | rfl | rfl <;> exact absurd h (by decide)
  · intro h
    have hrtc : type ≠ rtcType := by
      rintro rfl
      exact absurd h (by decide)
    have hdir : type ≠ dirType := by
      rintro rfl
      exact absurd h (by decide)
    have hfile : type ≠ fileType := by
      rintro rfl
      exact absurd h (by decide)
    rw [typeTable, if_neg hrtc, if_neg hdir, if_neg hfile]

/-- A fresh descriptor carries the operations of its type. -/
lemma openObject_openOn {d : Dentry} (htype : ¬ (d.fileType.slt rtcType ∨ fileType.slt d.fileType))
    (hinode : d.inodeId.slt 0#32 = false) : (openObject d).OpenOn d := by
  have hneg : d.inodeId ≠ -1#32 := by
    intro h
    rw [h] at hinode
    exact absurd hinode (by decide)
  rcases openType_cases htype with h | h | h <;> rw [FileObject.OpenOn, openObject, h]
  · exact ⟨rfl, iff_of_true rfl rfl⟩
  · exact ⟨rfl, iff_of_false (show 0#32 ≠ -1#32 by decide) (by decide)⟩
  · exact ⟨rfl, iff_of_false (show d.inodeId ≠ -1#32 from hneg) (by decide)⟩

namespace TableOk

lemma flag_ne_zero (h : TableOk t opened) : (t i).flag ≠ 0#32 ↔ (t i).flag = 1#32 := by
  rcases h.flags i with h | h <;> simp [h]

lemma createTable (opened : Fd → Option Dentry) : TableOk createTable opened where
  stdin  := by decide
  stdout := by decide
  flags  := by decide
  opens  := fun i hi hflag => by
    have hclosed : ∀ i : Fd, 2 ≤ i.val → (Osgods.createTable i).flag ≠ 1#32 := by decide
    exact absurd hflag (hclosed i hi)

/-- Only the position of a descriptor changes. -/
lemma setPosition (h : TableOk t opened) (i : Fd) (p : Word) :
    TableOk (Function.update t i { t i with filePosition := p }) opened := by
  have hsame : ∀ j, (Function.update t i { t i with filePosition := p } j).flag = (t j).flag ∧
      (Function.update t i { t i with filePosition := p } j).fileOpTb = (t j).fileOpTb ∧
      (Function.update t i { t i with filePosition := p } j).inode = (t j).inode := by
    intro j
    by_cases hj : j = i
    · subst hj
      simp
    · simp [Function.update_of_ne hj]
  refine ⟨?_, ?_, fun j => ?_, fun j hj hflag => ?_⟩
  · rw [(hsame 0).1, (hsame 0).2.1]
    exact h.stdin
  · rw [(hsame 1).1, (hsame 1).2.1]
    exact h.stdout
  · rw [(hsame j).1]
    exact h.flags j
  · rw [(hsame j).1] at hflag
    obtain ⟨d, hd, hopen⟩ := h.opens j hj hflag
    refine ⟨d, hd, ?_⟩
    rw [FileObject.OpenOn, (hsame j).2.1, (hsame j).2.2]
    exact hopen

/-- A descriptor from 2 on is replaced. -/
lemma update {o : FileObject} {d : Option Dentry} (h : TableOk t opened) (hi : 2 ≤ i.val)
    (hflag : o.flag = 0#32 ∨ o.flag = 1#32) (ho : o.flag = 1#32 → ∃ e, d = some e ∧ o.OpenOn e) :
    TableOk (Function.update t i o) (Function.update opened i d) := by
  have h0 : (0 : Fd) ≠ i := by
    rintro rfl
    exact absurd hi (by decide)
  have h1 : (1 : Fd) ≠ i := by
    rintro rfl
    exact absurd hi (by decide)
  refine ⟨?_, ?_, fun j => ?_, fun j hj hone => ?_⟩
  · rw [Function.update_of_ne h0]
    exact h.stdin
  · rw [Function.update_of_ne h1]
    exact h.stdout
  · by_cases hji : j = i
    · subst hji
      rwa [Function.update_self]
    · rw [Function.update_of_ne hji]
      exact h.flags j
  · by_cases hji : j = i
    · subst hji
      rw [Function.update_self] at hone ⊢
      rw [Function.update_self]
      exact ho hone
    · rw [Function.update_of_ne hji] at hone ⊢
      rw [Function.update_of_ne hji]
      exact h.opens j hj hone

/-- The first closed descriptor is none of the two that stay open. -/
lemma two_le_of_closed (h : TableOk t opened) (hi : (t i).flag = 0#32) : 2 ≤ i.val := by
  by_contra hlt
  have hlow : ∀ i : Fd, ¬ 2 ≤ i.val → i = 0 ∨ i = 1 := by decide
  rcases hlow i hlt with rfl | rfl
  · rw [h.stdin.1] at hi
    exact absurd hi (by decide)
  · rw [h.stdout.1] at hi
    exact absurd hi (by decide)

lemma openCall (h : TableOk t opened) {img : Image} (himg : img.InodesNonneg)
    {filename : Option (List Byte)} (hcall : openCall img filename t = (r, t')) :
    TableOk t' (noteOpen img (.open filename) (some r) opened) := by
  rcases openCall_cases hcall with ⟨rfl, rfl⟩ | ⟨i, fname, d, hfree, rfl, hd, htype, rfl, rfl⟩
  · cases filename with
    | none => exact h
    | some fname => exact h
  · have hnote : noteOpen img (.open (some fname)) (some (BitVec.ofNat 32 i)) opened =
        Function.update opened i (some d) := by
      simp [noteOpen, hd]
    rw [hnote]
    rcases findFree_finRange h.flags with ⟨j, hj, hclosed, -⟩ | ⟨hnone, -⟩
    · obtain rfl := Option.some.inj (hj.symm.trans hfree)
      obtain ⟨k, hk, rfl⟩ := readDentryByName_eq_some hd
      exact h.update (h.two_le_of_closed hclosed) (Or.inr rfl) fun _ =>
        ⟨_, rfl, openObject_openOn htype (himg k hk)⟩
    · rw [hnone] at hfree
      cases hfree

lemma closeCall (h : TableOk t opened) (hcall : closeCall fd t = (r, t')) :
    TableOk t' opened := by
  rcases closeCall_cases hcall with ⟨-, rfl, -⟩ | ⟨i, -, hi, -, -, rfl⟩
  · exact h
  · have hupdate := h.update (o := closeObject) (d := opened i) hi (Or.inl rfl) fun hone =>
      absurd hone (by decide)
    rwa [Function.update_eq_self] at hupdate

lemma rtcTick (h : TableOk t opened) : TableOk (rtcTick t) opened := by
  rcases rtcTick_cases t with heq | ⟨i, -, -, heq⟩
  · rw [heq]
    exact h
  · rw [heq]
    exact h.setPosition i _

lemma readCall (h : TableOk τ.table opened)
    (hbuf : ReadOutsideKernel ⟨τ, opened⟩ (.read fd buf nbytes keys))
    (hcall : readCall E keys fd buf nbytes τ = some (r, τ')) : TableOk τ'.table opened := by
  rcases readCall_cases hcall with ⟨rfl, rfl⟩ | ⟨i, hfd, hne, hn, hflag, hcall⟩
  · exact h
  · have hnonneg : nbytes.slt 0#32 = false := by
      simp only [BitVec.slt_eq_decide, BitVec.toInt_eq_toNat_cond, BitVec.toNat_ofNat,
        decide_eq_false_iff_not]
      omega
    obtain ⟨p, htable⟩ := callRead_table hcall hn (hbuf i hfd hflag hne hnonneg)
    rw [htable]
    exact h.setPosition i p

/-- `open` fails exactly when there is nothing it could do. -/
lemma openFails_iff (h : TableOk t opened) (img : Image) (filename : Option (List Byte)) :
    (Osgods.openCall img filename t).1 = -1#32 ↔ OpenFails img t filename := by
  rcases findFree_finRange h.flags with ⟨j, hj, hclosed, -⟩ | ⟨hnone, hall⟩
  · have hnotall : ¬ ∀ i : Fd, 2 ≤ i.val → (t i).flag = 1#32 := by
      intro hall
      rw [hall j (h.two_le_of_closed hclosed)] at hclosed
      exact absurd hclosed (by decide)
    simp only [Osgods.openCall, hj]
    cases filename with
    | none => exact iff_of_true rfl (Or.inr (Or.inl rfl))
    | some fname =>
      cases hd : readDentryByName img fname with
      | none =>
        simp only [hd, true_iff]
        exact Or.inr (Or.inr (Or.inl ⟨fname, rfl, hd⟩))
      | some d =>
        by_cases htype : d.fileType.slt rtcType ∨ fileType.slt d.fileType
        · simp only [hd, if_pos htype, true_iff]
          exact Or.inr (Or.inr (Or.inr ⟨fname, d, rfl, hd, typeTable_eq_none.mpr htype⟩))
        · simp only [hd, if_neg htype]
          refine iff_of_false (fun heq => ?_) ?_
          · have hfd := congrArg fdOf heq
            rw [fdOf_ofNat, fdOf_neg_one] at hfd
            cases hfd
          · rintro (hall | hname | ⟨f, hf, hfd⟩ | ⟨f, e, hf, he, htab⟩)
            · exact hnotall hall
            · cases hname
            · cases hf
              rw [hd] at hfd
              cases hfd
            · cases hf
              rw [hd] at he
              cases he
              exact htype (typeTable_eq_none.mp htab)
  · unfold Osgods.openCall
    rw [hnone]
    exact iff_of_true rfl (Or.inl fun i _ => hall i)

/-- `close` succeeds exactly on the open descriptors from 2 on. -/
lemma closeOpen_iff (h : TableOk t opened) (fd : Word) :
    (Osgods.closeCall fd t).1 = 0#32 ↔
      ∃ i, fdOf fd = some i ∧ 2 ≤ i.val ∧ (t i).flag = 1#32 := by
  obtain ⟨r, t', hcall⟩ : ∃ r t', Osgods.closeCall fd t = (r, t') := ⟨_, _, rfl⟩
  rw [hcall]
  rcases closeCall_cases hcall with ⟨rfl, -, hclosed⟩ | ⟨i, hfd, hi, hflag, rfl, -⟩
  · refine iff_of_false (show -1#32 ≠ 0#32 by decide) ?_
    rintro ⟨i, hfd, hi, hone⟩
    rw [hclosed i hfd hi] at hone
    exact absurd hone (by decide)
  · exact iff_of_true rfl ⟨i, hfd, hi, h.flag_ne_zero.mp hflag⟩

/-- What the next calls do follows from the shape of the table. -/
lemma callsOk (h : TableOk τ.table opened) : CallsOk E τ := by
  have hfree := findFree_finRange h.flags
  refine ⟨h.openFails_iff E.img, fun filename r t' hcall hr => ?_, fun filename t' hcall => ?_,
    h.closeOpen_iff, fun fd r t' hcall hr => ?_, fun keys fd buf nbytes hclosed => ?_,
    fun fd buf nbytes hclosed => ?_⟩
  · rcases openCall_cases hcall with ⟨rfl, -⟩ | ⟨i, fname, d, hi, -, -, -, rfl, rfl⟩
    · exact absurd rfl hr
    · rcases hfree with ⟨j, hj, hclosed, hlow⟩ | ⟨hnone, -⟩
      · obtain rfl := Option.some.inj (hj.symm.trans hi)
        refine ⟨j, rfl, h.two_le_of_closed hclosed, hclosed, fun k _ hk => hlow k hk, ?_, ?_⟩
        · simp [openObject]
        · simp [openObject]
      · rw [hnone] at hi
        cases hi
  · rcases openCall_cases hcall with ⟨-, rfl⟩ | ⟨i, -, -, -, -, -, -, hr, -⟩
    · rfl
    · have hfd := congrArg fdOf hr
      rw [fdOf_ofNat, fdOf_neg_one] at hfd
      cases hfd
  · rcases closeCall_cases hcall with ⟨rfl, rfl, -⟩ | ⟨i, -, -, -, rfl, -⟩
    · exact ⟨rfl, rfl⟩
    · exact absurd rfl hr
  · unfold Osgods.readCall
    split
    · rfl
    · next i hi =>
      rw [if_pos (hclosed i hi)]
      exact ite_self _
  · unfold writeCall
    split
    · rfl
    · next i hi =>
      rw [if_pos (hclosed i hi)]
      exact ite_self _

/-- One call, if it is a read one that keeps out of the kernel's page, keeps the table in shape. -/
lemma step (himg : E.img.InodesNonneg) (h : TableOk s.task.table s.opened) {c : Call}
    (hstep : Guarded (Graph (descriptorStep E)) ReadOutsideKernel s c s') :
    TableOk s'.task.table s'.opened := by
  obtain ⟨hstep, hbuf⟩ := hstep
  obtain ⟨⟨ret, τ⟩, hcall, rfl⟩ := Option.map_eq_some_iff.mp hstep
  cases c with
  | «open» filename =>
    cases hcall
    exact h.openCall himg rfl
  | close fd =>
    cases hcall
    exact h.closeCall rfl
  | read fd buf nbytes keys =>
    obtain ⟨⟨r, τ₁⟩, hread, heq⟩ := Option.map_eq_some_iff.mp hcall
    cases heq
    exact h.readCall hbuf hread
  | write fd buf nbytes =>
    obtain ⟨r, -, heq⟩ := Option.map_eq_some_iff.mp hcall
    cases heq
    exact h
  | rtcInterrupt =>
    cases hcall
    exact h.rtcTick

end TableOk

/-- In every run whose reads keep out of the kernel's page, the descriptor table keeps its shape
and the next calls do what they should. -/
theorem descriptor_table (E : FileEnv) (himg : E.img.InodesNonneg) (mem : Word → Byte)
    {cs : List Call} {s : DescriptorState}
    (hrun : Run (Guarded (Graph (descriptorStep E)) ReadOutsideKernel) (newProcess mem) cs s) :
    TableOk s.task.table s.opened ∧ CallsOk E s.task := by
  have h := hrun.invariant (I := fun s => TableOk s.task.table s.opened)
    (fun _ _ _ h hstep => h.step himg hstep) (TableOk.createTable _)
  exact ⟨h, h.callsOk⟩

lemma readOutsideKernel_of_own {c : Call} (h : c.OwnBuffer) : ReadOutsideKernel s c := by
  cases c with
  | read fd buf nbytes keys =>
    intro i _ _ _ hn
    exact outsideKernel_of_own h.1 h.2 (readExtent_le _ (toNat_lt_of_not_slt (by simp [hn])))
  | «open» filename => trivial
  | close fd => trivial
  | write fd buf nbytes => trivial
  | rtcInterrupt => trivial

end

/-! ### A read into the table -/

/-- The process in slot 0, with the kernel's page and its own page mapped. -/
def smallEnv : FileEnv where
  img    := smallImage
  slot   := 0
  mapped := fun a => KernelPage a ∨ mb128 ≤ a.toNat ∧ a.toNat < mb132

lemma smallImage_inodesNonneg : smallImage.InodesNonneg := by
  intro i _
  rcases i with _ | _ | i <;> rfl

/-- A process opens `shell` twice, reads from it and closes the first descriptor. -/
theorem descriptor_table_small : ∃ s : DescriptorState, (s.task.table 2).flag = 0#32 ∧
    TableOk s.task.table s.opened ∧ CallsOk smallEnv s.task := by
  have hcs : (runFrom (guardedStep (descriptorStep smallEnv) fun _ c => c.OwnBuffer)
      (newProcess fun _ => 0#8)
      [.open (some shellName), .open (some shellName),
        .read 2 0x8000000 16 ⟨fun _ => 0#8, 0⟩, .close 2]).any
          (fun s => (s.task.table 2).flag = 0#32) = true := by
    decide
  obtain ⟨s, hrun, hs⟩ := exists_run_of_any hcs
  have hguarded := guarded_graph (P := ReadOutsideKernel)
    (fun _ _ h => readOutsideKernel_of_own (of_decide_eq_true h)) hrun
  exact ⟨s, of_decide_eq_true hs, descriptor_table smallEnv smallImage_inodesNonneg _ hguarded⟩

/-- A process opens `shell` and reads its first four bytes over the flag of descriptor 0. -/
theorem descriptor_table_overwritten :
    ¬ ∀ (cs : List Call) (s : DescriptorState),
      Run (Graph (descriptorStep smallEnv)) (newProcess fun _ => 0#8) cs s →
        TableOk s.task.table s.opened := by
  intro hall
  have hcs : (runFrom (descriptorStep smallEnv) (newProcess fun _ => 0#8)
      [.open (some shellName), .read 2 (pcbAddress 0 + 32#32) 4 ⟨fun _ => 0#8, 0⟩]).any
        (fun s => (s.task.table 0).flag = 0x464c457f#32) = true := by
    decide
  obtain ⟨s, hrun, hs⟩ := exists_run_of_any hcs
  rw [decide_eq_true_eq] at hs
  have hflags := (hall _ s hrun).flags 0
  rw [hs] at hflags
  exact absurd hflags (by decide)

end Osgods
