import Osgods.Page.Translate
import Mathlib.Data.Fintype.Option

/-!
# Page-table isolation

`PageOp` is a call of one of the table-editing functions as the kernel makes them. After any
sequence of calls the tables are `Isolated`, and from that alone follows what user code and the
kernel can reach.
-/

namespace Osgods

open BitField

/-- A call that edits the tables: a process's user page, the user video page, the kernel's mapping
of a terminal's video page, and the target of the user video page (`none` is `VIDEO`). -/
inductive PageOp where
  | setUpPaging (pid : Slot)
  | setUserVideoMap
  | mapVideoPage (t : Tid) (targetAddr present : Word)
  | setVidMap (target : Option Tid) (present : Word)

def PageOp.apply (L : Layout) (pt : PageTables) : PageOp → PageTables
  | .setUpPaging pid        => pt.setUpPaging (slotWord pid)
  | .setUserVideoMap        => pt.setUserVideoMap L
  | .mapVideoPage t a v     => pt.mapVideoPage (videoPage t) a v
  | .setVidMap target v     => pt.setVidMap (videoTarget target) v

/-- The process whose page was set up last. -/
def PageOp.lastPid (last : Option Slot) : PageOp → Option Slot
  | .setUpPaging pid => some pid
  | _                => last

/-- What the table-editing functions keep true, `last` being the last process set up. -/
structure Isolated (L : Layout) (last : Option Slot) (pt : PageTables) : Prop where
  kernelTable  : pt.pageDir 0#10 = pde4k L
  kernelPage   : pt.pageDir 1#10 = pde4m
  userPage     : pt.pageDir 32#10 = last.elim 0#32 fun pid => userPde (slotWord pid)
  userVideo    : pt.pageDir 33#10 = 0#32 ∨
    pt.pageDir 33#10 = userVideoPde L ∧
      ∃ v, baseAddress (pt.pageVidTable 0#10) = baseAddress (videoTarget v)
  otherDirs    : ∀ i, i ≠ 0#10 → i ≠ 1#10 → i ≠ 32#10 → i ≠ 33#10 → pt.pageDir i = 0#32
  videoEntries : ∀ i, present (pt.pageTable i) = true → ∃ v, i = tableIndex (videoTarget v)
  otherVideo   : ∀ i, i ≠ 0#10 → pt.pageVidTable i = 0#32

namespace Isolated

variable {L : Layout} {last : Option Slot} {pt : PageTables}

lemma setUpPaging (h : Isolated L last pt) (pid : Slot) :
    Isolated L (some pid) (pt.setUpPaging (slotWord pid)) where
  kernelTable  := by simp [h.kernelTable]
  kernelPage   := by simp [h.kernelPage]
  userPage     := by simp
  userVideo    := by simpa using h.userVideo
  otherDirs    := fun i h0 h1 h32 h33 => by
    rw [setUpPaging_pageDir, Function.update_of_ne h32]
    exact h.otherDirs i h0 h1 h32 h33
  videoEntries := h.videoEntries
  otherVideo   := h.otherVideo

lemma setUserVideoMap (h : Isolated L last pt) : Isolated L last (pt.setUserVideoMap L) where
  kernelTable  := by simp [PageTables.setUserVideoMap, h.kernelTable]
  kernelPage   := by simp [PageTables.setUserVideoMap, h.kernelPage]
  userPage     := by simpa [PageTables.setUserVideoMap] using h.userPage
  userVideo    := by
    refine Or.inr ⟨by simp [PageTables.setUserVideoMap], none, ?_⟩
    simp only [PageTables.setUserVideoMap, Function.update_self, userVideoPte,
      baseAddress_assignReadWrite, baseAddress_assignPresent, baseAddress_assignUseSupervisor,
      baseAddress_assignBaseAddress]
    decide
  otherDirs    := fun i h0 h1 h32 h33 => by
    simpa [PageTables.setUserVideoMap, h33] using h.otherDirs i h0 h1 h32 h33
  videoEntries := h.videoEntries
  otherVideo   := fun i hi => by
    simp [PageTables.setUserVideoMap, hi]

lemma setVidMap (h : Isolated L last pt) (v : Option Tid) (w : Word) :
    Isolated L last (pt.setVidMap (videoTarget v) w) where
  kernelTable  := h.kernelTable
  kernelPage   := h.kernelPage
  userPage     := h.userPage
  userVideo    := by
    refine h.userVideo.imp id fun hv => ⟨hv.1, v, ?_⟩
    simp [PageTables.setVidMap, setWidth_sshiftRight]
  otherDirs    := h.otherDirs
  videoEntries := fun i hi => by
    -- `page_table[0]` gains flags, but not its present bit
    refine h.videoEntries i ?_
    by_cases h0 : i = 0#10
    · subst h0
      simpa [PageTables.setVidMap] using hi
    · simpa [PageTables.setVidMap, h0] using hi
  otherVideo   := fun i hi => by
    simpa [PageTables.setVidMap, hi] using h.otherVideo i hi

lemma setWidth_videoPage (t : Tid) :
    ((videoPage t >>> 12).setWidth 10 : BitVec 10) = tableIndex (videoTarget (some t)) := by
  revert t
  decide

lemma mapVideoPage (h : Isolated L last pt) (t : Tid) (a w : Word) :
    Isolated L last (pt.mapVideoPage (videoPage t) a w) where
  kernelTable  := h.kernelTable
  kernelPage   := h.kernelPage
  userPage     := h.userPage
  userVideo    := h.userVideo
  otherDirs    := h.otherDirs
  videoEntries := fun i hi => by
    by_cases ht : i = (videoPage t >>> 12).setWidth 10
    · exact ⟨some t, by rw [ht, setWidth_videoPage]⟩
    · refine h.videoEntries i ?_
      simpa [PageTables.mapVideoPage, ht] using hi
  otherVideo   := h.otherVideo

lemma initPaging (L : Layout) : Isolated L none (initPaging L .zero) where
  kernelTable  := by simp [Osgods.initPaging]
  kernelPage   := by simp [Osgods.initPaging]
  userPage     := by simp [Osgods.initPaging]
  userVideo    := by simp [Osgods.initPaging]
  otherDirs    := fun i h0 h1 _ _ => by simp [Osgods.initPaging, h0, h1]
  videoEntries := fun i hi => by
    by_cases h : i = (videoMemoryAddr >>> 12).setWidth 10
    · exact ⟨none, by rw [h]; decide⟩
    · simp [Osgods.initPaging, Function.update_of_ne h, present] at hi
  otherVideo   := fun i _ => rfl

lemma boot (L : Layout) : Isolated L none (bootTables L) := by
  unfold bootTables
  have h := Isolated.initPaging L
  generalize Osgods.initPaging L .zero = pt at h
  induction List.finRange 3 generalizing pt with
  | nil => exact h
  | cons t l ih => exact ih _ (h.mapVideoPage t _ _)

/-- One call keeps the tables isolated. -/
lemma apply (h : Isolated L last pt) (op : PageOp) :
    Isolated L (op.lastPid last) (op.apply L pt) := by
  cases op with
  | setUpPaging pid => exact h.setUpPaging pid
  | setUserVideoMap => exact h.setUserVideoMap
  | mapVideoPage t a v => exact h.mapVideoPage t a v
  | setVidMap target v => exact h.setVidMap target v

/-- So does every sequence of calls. -/
lemma foldl (h : Isolated L last pt) (ops : List PageOp) :
    Isolated L (ops.foldl PageOp.lastPid last) (ops.foldl (PageOp.apply L) pt) := by
  induction ops generalizing last pt with
  | nil => exact h
  | cons op ops ih => exact ih (h.apply op)

end Isolated

/-! ### Addresses -/

lemma dirIndex_toNat (va : Word) : (dirIndex va).toNat = va.toNat / mb4 := by
  have hlt := va.isLt
  simp only [dirIndex, BitVec.extractLsb'_toNat, Nat.shiftRight_eq_div_pow, mb4]
  omega

lemma tableIndex_toNat (va : Word) : (tableIndex va).toNat = va.toNat / kb4 % 1024 := by
  simp only [tableIndex, BitVec.extractLsb'_toNat, Nat.shiftRight_eq_div_pow]

lemma append_toNat {n m : ℕ} (x : BitVec n) (y : BitVec m) :
    (x ++ y).toNat = x.toNat * 2 ^ m + y.toNat := by
  rw [BitVec.toNat_append, ← Nat.shiftLeft_add_eq_or_of_lt y.isLt, Nat.shiftLeft_eq]

lemma largePage_toNat (pde va : Word) :
    (pde.extractLsb' 22 10 ++ va.extractLsb' 0 22 : Word).toNat =
      (pde.extractLsb' 22 10 ++ (0 : BitVec 22) : Word).toNat + va.toNat % mb4 := by
  have hlow : (va.extractLsb' 0 22).toNat = va.toNat % mb4 := by
    rw [BitVec.extractLsb'_toNat, Nat.shiftRight_zero]
  have hzero : (0 : BitVec 22).toNat = 0 := rfl
  generalize pde.extractLsb' 22 10 = n
  rw [append_toNat n, append_toNat n, hlow, hzero, Nat.add_zero]

lemma smallPage_toNat (n : BitVec 20) (va : Word) :
    (n ++ va.extractLsb' 0 12 : Word).toNat = n.toNat * kb4 + va.toNat % kb4 := by
  have hlow : (va.extractLsb' 0 12).toNat = va.toNat % kb4 := by
    rw [BitVec.extractLsb'_toNat, Nat.shiftRight_zero]
  rw [append_toNat n, hlow]
  rfl

lemma baseAddress_videoTarget (v : Option Tid) :
    (baseAddress (videoTarget v)).toNat * kb4 = (videoTarget v).toNat := by
  revert v
  decide

lemma videoTarget_lt (v : Option Tid) : (videoTarget v).toNat < mb4 := by
  revert v
  decide

/-! ### What is mapped -/

/-- A user-mode access goes to the frame of the last process set up, or to a text-video page. -/
def UserAccess (last : Option Slot) (va pa : Word) : Prop :=
  (mb128 ≤ va.toNat ∧ va.toNat < mb132 ∧ ∃ pid, last = some pid ∧
    pa.toNat = (processFrame (slotWord pid)).toNat + (va.toNat - mb128)) ∨
  (mb132 ≤ va.toNat ∧ va.toNat < mb132 + kb4 ∧ ∃ v,
    pa.toNat = (videoTarget v).toNat + (va.toNat - mb132))

/-- A supervisor access goes where user code may go, to a text-video page or to the kernel page. -/
def SupervisorAddress (va : Word) : Prop :=
  (mb128 ≤ va.toNat ∧ va.toNat < mb132 + kb4) ∨
  (∃ v, (videoTarget v).toNat ≤ va.toNat ∧ va.toNat < (videoTarget v).toNat + kb4) ∨
  (mb4 ≤ va.toNat ∧ va.toNat < mb8)

/-- The entries met on the way to a translated address allow the access. -/
lemma translate_eq_some {L : Layout} {pt : PageTables} {user : Bool} {va pa : Word}
    (h : pt.translate L user va = some pa) :
    entryAllows user (pt.pageDir (dirIndex va)) = true ∧
      (pageSize (pt.pageDir (dirIndex va)) = true ∧
          pa = (pt.pageDir (dirIndex va)).extractLsb' 22 10 ++ va.extractLsb' 0 22 ∨
        pageSize (pt.pageDir (dirIndex va)) = false ∧ ∃ pte,
          pte = L.tableAt pt (baseAddress (pt.pageDir (dirIndex va))) (tableIndex va) ∧
          entryAllows user pte = true ∧ pa = baseAddress pte ++ va.extractLsb' 0 12) := by
  simp only [PageTables.translate] at h
  split_ifs at h with hd hs ht
  · exact ⟨hd, Or.inl ⟨hs, (Option.some.inj h).symm⟩⟩
  · exact ⟨hd, Or.inr ⟨by simpa using hs, _, rfl, ht, (Option.some.inj h).symm⟩⟩

namespace Isolated

variable {L : Layout} {last : Option Slot} {pt : PageTables} {user : Bool} {va pa : Word}

/-- Only the four directory entries in use can allow an access. -/
lemma dirIndex_cases (h : Isolated L last pt) (ha : present (pt.pageDir (dirIndex va)) = true) :
    dirIndex va = 0#10 ∨ dirIndex va = 1#10 ∨ dirIndex va = 32#10 ∨ dirIndex va = 33#10 := by
  by_contra hne
  simp only [not_or] at hne
  obtain ⟨h0, h1, h32, h33⟩ := hne
  rw [h.otherDirs _ h0 h1 h32 h33] at ha
  exact absurd ha (by decide)

/-- Through the first 4 MB only the kernel gets, and only to the text-video pages. -/
lemma translate_low (h : Isolated L last pt) (hi : dirIndex va = 0#10)
    (ht : pt.translate L user va = some pa) :
    user = false ∧ ∃ v, (videoTarget v).toNat ≤ va.toNat ∧
      va.toNat < (videoTarget v).toNat + kb4 := by
  obtain ⟨hd, hrest⟩ := translate_eq_some ht
  obtain ⟨-, hus, hps, hbase⟩ := pde4k_bits L
  rw [hi, h.kernelTable] at hd hrest
  have huser : user = false := by
    simp only [entryAllows, hus, Bool.or_false, Bool.and_eq_true, Bool.not_eq_true'] at hd
    exact hd.2
  refine ⟨huser, ?_⟩
  rcases hrest with ⟨hbig, -⟩ | ⟨-, pte, rfl, hpte, -⟩
  · rw [hps] at hbig
    cases hbig
  · rw [hbase] at hpte
    have hpresent : present (pt.pageTable (tableIndex va)) = true := by
      simpa [Layout.tableAt] using entryAllows_present hpte
    obtain ⟨v, hv⟩ := h.videoEntries _ hpresent
    have hdir := congrArg BitVec.toNat hi
    have htab := congrArg BitVec.toNat hv
    rw [dirIndex_toNat] at hdir
    rw [tableIndex_toNat, tableIndex_toNat] at htab
    have hlt := videoTarget_lt v
    have hal := baseAddress_videoTarget v
    simp only [BitVec.toNat_ofNat, Nat.zero_mod, kb4, mb4] at hdir htab hlt hal ⊢
    exact ⟨v, by omega, by omega⟩

/-- The kernel page is the second 4 MB, closed to user code. -/
lemma translate_kernelPage (h : Isolated L last pt) (hi : dirIndex va = 1#10)
    (ht : pt.translate L user va = some pa) :
    user = false ∧ mb4 ≤ va.toNat ∧ va.toNat < mb8 := by
  obtain ⟨hd, -⟩ := translate_eq_some ht
  rw [hi, h.kernelPage] at hd
  have huser : user = false := by
    cases user with
    | false => rfl
    | true => exact absurd hd (by decide)
  have hdir := congrArg BitVec.toNat hi
  rw [dirIndex_toNat] at hdir
  simp only [BitVec.toNat_ofNat, mb4, mb8] at hdir ⊢
  exact ⟨huser, by omega, by omega⟩

/-- The user page leads to the frame of the last process set up. -/
lemma translate_userPage (h : Isolated L last pt) (hi : dirIndex va = 32#10)
    (ht : pt.translate L user va = some pa) :
    mb128 ≤ va.toNat ∧ va.toNat < mb132 ∧ ∃ pid, last = some pid ∧
      pa.toNat = (processFrame (slotWord pid)).toNat + (va.toNat - mb128) := by
  obtain ⟨hd, hrest⟩ := translate_eq_some ht
  rw [hi, h.userPage] at hd hrest
  cases last with
  | none => exact absurd (entryAllows_present hd) (by decide)
  | some pid =>
    have hdir := congrArg BitVec.toNat hi
    rw [dirIndex_toNat] at hdir
    rcases hrest with ⟨-, hpa⟩ | ⟨hsmall, -⟩
    · have htarget : pa.toNat = (processFrame (slotWord pid)).toNat + va.toNat % mb4 := by
        rw [hpa, largePage_toNat]
        rfl
      simp only [BitVec.toNat_ofNat, mb4, mb128, mb132] at hdir htarget ⊢
      exact ⟨by omega, by omega, pid, rfl, by omega⟩
    · simp [(userPde_bits (slotWord pid)).2.2] at hsmall

/-- The user video page leads to a text-video page. -/
lemma translate_userVideo (h : Isolated L last pt) (hi : dirIndex va = 33#10)
    (ht : pt.translate L user va = some pa) :
    mb132 ≤ va.toNat ∧ va.toNat < mb132 + kb4 ∧ ∃ v,
      pa.toNat = (videoTarget v).toNat + (va.toNat - mb132) := by
  obtain ⟨hd, hrest⟩ := translate_eq_some ht
  rw [hi] at hd hrest
  rcases h.userVideo with h0 | ⟨hpde, v, hv⟩
  · rw [h0] at hd
    exact absurd (entryAllows_present hd) (by decide)
  · obtain ⟨-, hps, hbase⟩ := userVideoPde_bits L
    rw [hpde] at hrest
    rcases hrest with ⟨hbig, -⟩ | ⟨-, pte, rfl, hpte, rfl⟩
    · rw [hps] at hbig
      cases hbig
    · have hne : L.pageVidTable ≠ L.pageTable := L.distinct.symm
      rw [hbase] at hpte ⊢
      simp only [Layout.tableAt, if_neg hne, if_true] at hpte ⊢
      have htab : tableIndex va = 0#10 := by
        by_contra hne0
        rw [h.otherVideo _ hne0] at hpte
        exact absurd (entryAllows_present hpte) (by decide)
      have hdir := congrArg BitVec.toNat hi
      have htabNat := congrArg BitVec.toNat htab
      rw [dirIndex_toNat] at hdir
      rw [tableIndex_toNat] at htabNat
      have htarget := smallPage_toNat (baseAddress (videoTarget v)) va
      rw [baseAddress_videoTarget] at htarget
      rw [htab, hv]
      simp only [BitVec.toNat_ofNat, kb4, mb4, mb132] at hdir htabNat htarget ⊢
      exact ⟨by omega, by omega, v, by omega⟩

lemma translate_user (h : Isolated L last pt) (ht : pt.translate L true va = some pa) :
    UserAccess last va pa := by
  rcases h.dirIndex_cases (entryAllows_present (translate_eq_some ht).1) with hi | hi | hi | hi
  · exact absurd (h.translate_low hi ht).1 (by decide)
  · exact absurd (h.translate_kernelPage hi ht).1 (by decide)
  · exact Or.inl (h.translate_userPage hi ht)
  · exact Or.inr (h.translate_userVideo hi ht)

lemma translate_supervisor (h : Isolated L last pt) (ht : pt.translate L false va = some pa) :
    SupervisorAddress va := by
  rcases h.dirIndex_cases (entryAllows_present (translate_eq_some ht).1) with hi | hi | hi | hi
  · exact Or.inr (Or.inl (h.translate_low hi ht).2)
  · exact Or.inr (Or.inr (h.translate_kernelPage hi ht).2)
  · obtain ⟨hlo, hhi, -⟩ := h.translate_userPage hi ht
    exact Or.inl ⟨hlo, Nat.lt_add_right kb4 hhi⟩
  · obtain ⟨hlo, hhi, -⟩ := h.translate_userVideo hi ht
    exact Or.inl ⟨Nat.le_trans (by decide) hlo, hhi⟩

/-- The null pointer is mapped for nobody. -/
lemma translate_null (h : Isolated L last pt) : pt.translate L user 0 = none := by
  cases ht : pt.translate L user 0 with
  | none => rfl
  | some pa =>
    obtain ⟨-, v, hv, -⟩ := h.translate_low rfl ht
    exact absurd hv (by revert v; decide)

end Isolated

/-! ### Physical frames -/

lemma processFrame_mem (pid : Slot) :
    mb8 ≤ (processFrame (slotWord pid)).toNat ∧
      (processFrame (slotWord pid)).toNat + mb4 ≤ 2 ^ 32 := by
  revert pid
  decide

lemma processFrame_disjoint {p q : Slot} (h : p ≠ q) :
    (processFrame (slotWord p)).toNat + mb4 ≤ (processFrame (slotWord q)).toNat ∨
      (processFrame (slotWord q)).toNat + mb4 ≤ (processFrame (slotWord p)).toNat := by
  revert p q
  decide

/-- After any sequence of table-editing calls, user code reaches only the user page of the last
process set up and a text-video page, the kernel only these, the text-video pages and its own page,
and nobody address 0; and the frames of the processes are disjoint and above the first 8 MB. -/
theorem page_table_isolation (L : Layout) (ops : List PageOp) :
    (∀ va pa, (ops.foldl (PageOp.apply L) (bootTables L)).translate L true va = some pa →
      UserAccess (ops.foldl PageOp.lastPid none) va pa) ∧
    (∀ va pa, (ops.foldl (PageOp.apply L) (bootTables L)).translate L false va = some pa →
      SupervisorAddress va) ∧
    (∀ user, (ops.foldl (PageOp.apply L) (bootTables L)).translate L user 0 = none) ∧
    (∀ p q : Slot, p ≠ q →
      (processFrame (slotWord p)).toNat + mb4 ≤ (processFrame (slotWord q)).toNat ∨
        (processFrame (slotWord q)).toNat + mb4 ≤ (processFrame (slotWord p)).toNat) ∧
    (∀ p : Slot, mb8 ≤ (processFrame (slotWord p)).toNat) := by
  have h := (Isolated.boot L).foldl ops
  refine ⟨fun va pa ht => h.translate_user ht, fun va pa ht => h.translate_supervisor ht,
    fun user => h.translate_null, fun p q hpq => processFrame_disjoint hpq, fun p => ?_⟩
  exact (processFrame_mem p).1

end Osgods
