import Osgods.Syscall.Descriptor

/-!
# The buffer of `read`

`read` hands its buffer on to one of four operations, each with its own idea of how much it stores:
a typed line and a terminator, the rest of a file, the 32 bytes of a name, or nothing. `BufferOk`
says when that is what the caller has asked for.
-/

namespace Osgods

open ByteCopy Transition

/-- The 4 MB page of a user program. -/
def UserPage (a : Word) : Prop := mb128 ≤ a.toNat ∧ a.toNat < mb132

instance : DecidablePred UserPage := fun _ => inferInstanceAs (Decidable (_ ∧ _))

/-- One of the `n` bytes from `buf` on. -/
def InBuffer (buf : Word) (n : ℕ) (a : Word) : Prop := ∃ j < n, a = buf + BitVec.ofNat 32 j

/-- The `n` bytes from `buf` on lie in the user's page. -/
def UserRange (buf : Word) (n : ℕ) : Prop := n = 0 ∨ mb128 ≤ buf.toNat ∧ buf.toNat + n ≤ mb132

instance (buf : Word) (n : ℕ) : Decidable (UserRange buf n) := inferInstanceAs (Decidable (_ ∨ _))

/-- The stores go to each of the `n` bytes from `buf` on, and nowhere else. -/
def Covers (l : List (Word × Byte)) (buf : Word) (n : ℕ) : Prop :=
  ∀ a, (∃ s ∈ l, s.1 = a) ↔ InBuffer buf n a

/-! ### What a read stores -/

/-- The stores of a read through its buffer: the data, and a terminator. -/
structure ReadStores where
  data       : List (Word × Byte)
  terminator : List (Word × Byte)

def ReadStores.all (l : ReadStores) : List (Word × Byte) := l.data ++ l.terminator

/-- The stores of the operations. -/
def callStores (img : Image) (keys : KeyBuffer) (o : FileObject) (buf nbytes : Word) : ReadStores :=
  match o.fileOpTb.readFn with
  | .terminalRead =>
    if 128 ≤ keys.keybIndex then ⟨[], []⟩
    else ⟨fill buf keys.keybIndex keys.keyBuffer, [(buf + BitVec.ofNat 32 keys.keybIndex, 0#8)]⟩
  | .dirRead      =>
    match readDentryByIndex img o.filePosition with
    | none   => ⟨[], []⟩
    | some d => ⟨fill buf fileNameSize fun i => d.fileName.getD i 0, []⟩
  | .fileRead     => ⟨img.stores (readData img o.inode o.filePosition buf nbytes).2, []⟩
  | _             => ⟨[], []⟩

/-- The stores of a call of `read`. -/
def readStores (E : FileEnv) (keys : KeyBuffer) (fd buf nbytes : Word) (τ : Task) : ReadStores :=
  match fdOf fd with
  | none   => ⟨[], []⟩
  | some i =>
    if buf = 0#32 ∨ nbytes.slt 0#32 then ⟨[], []⟩
    else if (τ.table i).flag = 0#32 then ⟨[], []⟩
    else callStores E.img keys (τ.table i) buf nbytes

/-- `rtc_read` is left only when the interrupt handler has counted. -/
def Waits (fd : Word) (τ : Task) : Prop :=
  ∃ i, fdOf fd = some i ∧ (τ.table i).fileOpTb.readFn = .rtcRead ∧ (τ.table i).filePosition = 0#32

/-- What the caller of `read` may rely on: all stores go to its `nbytes` bytes and to its page, and
what is returned is -1 or the number of bytes that were filled with data. -/
structure BufferContract (E : FileEnv) (keys : KeyBuffer) (fd buf nbytes : Word) (τ : Task) :
    Prop where
  stores : ∀ s ∈ (readStores E keys fd buf nbytes τ).all,
    InBuffer buf nbytes.toNat s.1 ∧ UserPage s.1
  result : Waits fd τ ∨ ∃ r τ', readCall E keys fd buf nbytes τ = some (r, τ') ∧
    (r = -1#32 ∨ r.toNat ≤ nbytes.toNat ∧
      Covers (readStores E keys fd buf nbytes τ).data buf r.toNat)

/-- For the terminal: the line is shorter than `nbytes`, as a terminator follows it. For a file: the
bytes that are left of it, `nbytes` at most, fit the page. For a directory: exactly one name is
asked for, and it is not the 63rd or a later one. -/
def BufferOk (img : Image) (keys : KeyBuffer) (o : FileObject) (buf nbytes : Word) : Prop :=
  match o.fileOpTb.readFn with
  | .terminalRead => 128 ≤ keys.keybIndex ∨
      keys.keybIndex < nbytes.toNat ∧ UserRange buf (keys.keybIndex + 1)
  | .fileRead     => img.numInodes - 1 < o.inode ∨
      UserRange buf (img.readLength o.inode o.filePosition nbytes).toNat
  | .dirRead      => img.numDirEntries - 1 < o.filePosition ∨
      nbytes = 32#32 ∧ (o.filePosition + 1#32).slt 63#32 = true ∧ UserRange buf fileNameSize
  | _             => True

section

variable {E : FileEnv} {keys : KeyBuffer} {τ τ' : Task} {i : Fd} {fd buf nbytes r a : Word}
  {m n : ℕ} {f : ℕ → Byte} {l : List (Word × Byte)}

/-! ### Ranges -/

lemma userRange_iff (hn : n ≤ 2 ^ 31) :
    (∀ j < n, UserPage (buf + BitVec.ofNat 32 j)) ↔ UserRange buf n := by
  have hbuf := buf.isLt
  simp only [UserPage, UserRange, mb128, mb132, BitVec.toNat_add, BitVec.toNat_ofNat]
  constructor
  · intro h
    by_cases hzero : n = 0
    · exact Or.inl hzero
    · have hfirst := h 0 (by omega)
      have hlo : 0x8000000 ≤ buf.toNat := by omega
      refine Or.inr ⟨hlo, ?_⟩
      by_contra hlong
      have hlast := h (0x8400000 - buf.toNat) (by omega)
      omega
  · rintro (rfl | ⟨hlo, hhi⟩) j hj
    · cases hj
    · omega

lemma covers_fill : Covers (fill buf n f) buf n := by
  intro a
  constructor
  · rintro ⟨s, hs, rfl⟩
    obtain ⟨j, hj, rfl⟩ := mem_fill.mp hs
    exact ⟨j, hj, rfl⟩
  · rintro ⟨j, hj, rfl⟩
    exact ⟨_, mem_fill.mpr ⟨j, hj, rfl⟩, rfl⟩

lemma covers_nil : Covers [] buf 0 := by
  intro a
  constructor
  · rintro ⟨s, hs, -⟩
    cases hs
  · rintro ⟨j, hj, -⟩
    cases hj

/-- One more store, behind a range. -/
lemma Covers.snoc (h : Covers l buf n) (b : Byte) :
    Covers (l ++ [(buf + BitVec.ofNat 32 n, b)]) buf (n + 1) := by
  intro a
  constructor
  · rintro ⟨s, hs, rfl⟩
    rcases List.mem_append.mp hs with hs | hs
    · obtain ⟨j, hj, heq⟩ := (h s.1).mp ⟨s, hs, rfl⟩
      exact ⟨j, Nat.lt_succ_of_lt hj, heq⟩
    · obtain rfl := List.mem_singleton.mp hs
      exact ⟨n, Nat.lt_succ_self n, rfl⟩
  · rintro ⟨j, hj, rfl⟩
    rcases Nat.lt_succ_iff_lt_or_eq.mp hj with hj | rfl
    · obtain ⟨s, hs, heq⟩ := (h _).mpr ⟨j, hj, rfl⟩
      exact ⟨s, List.mem_append_left _ hs, heq⟩
    · exact ⟨_, List.mem_append_right _ (List.mem_singleton_self _), rfl⟩

lemma Covers.forall_iff (h : Covers l buf n) {P : Word → Prop} :
    (∀ s ∈ l, P s.1) ↔ ∀ a, InBuffer buf n a → P a := by
  constructor
  · intro hall a ha
    obtain ⟨s, hs, rfl⟩ := (h a).mpr ha
    exact hall s hs
  · intro hall s hs
    exact hall s.1 ((h s.1).mp ⟨s, hs, rfl⟩)

lemma forall_userPage_iff (hn : n ≤ 2 ^ 31) :
    (∀ a, InBuffer buf n a → UserPage a) ↔ UserRange buf n := by
  rw [← userRange_iff hn]
  constructor
  · intro h j hj
    exact h _ ⟨j, hj, rfl⟩
  · rintro h a ⟨j, hj, rfl⟩
    exact h j hj

/-- Ranges with the same start are ordered by their lengths. -/
lemma inBuffer_subset_iff (hm : m ≤ 2 ^ 31) (hn : n ≤ 2 ^ 31) :
    (∀ a, InBuffer buf m a → InBuffer buf n a) ↔ m ≤ n := by
  constructor
  · intro h
    by_contra hlt
    obtain ⟨j, hj, heq⟩ := h _ ⟨n, Nat.lt_of_not_le hlt, rfl⟩
    have hjn := add_ofNat_inj (by omega) (by omega) heq
    omega
  · rintro hle a ⟨j, hj, rfl⟩
    exact ⟨j, Nat.lt_of_lt_of_le hj hle, rfl⟩

lemma Covers.iff_eq (h : Covers l buf m) (hm : m ≤ 2 ^ 31) (hn : n ≤ 2 ^ 31) :
    Covers l buf n ↔ m = n := by
  constructor
  · intro h'
    apply Nat.le_antisymm
    · exact (inBuffer_subset_iff hm hn).mp fun a ha => (h' a).mp ((h a).mpr ha)
    · exact (inBuffer_subset_iff hn hm).mp fun a ha => (h a).mp ((h' a).mpr ha)
  · rintro rfl
    exact h

/-! ### The stores are those of the call -/

lemma store_of_mapped (h : ∀ s ∈ l, E.mapped s.1 = true) : τ.store? E l = some (τ.store E l) :=
  if_pos (List.all_eq_true.mpr h)

lemma store_nil : τ.store? E [] = some τ := rfl

/-- A read stores what `callStores` lists, or faults. -/
lemma callRead_stores (h : callRead E keys i buf nbytes τ = some (r, τ')) :
    ∃ τ₁, τ.store? E (callStores E.img keys (τ.table i) buf nbytes).all = some τ₁ ∧
      τ'.mem = τ₁.mem := by
  unfold callRead at h
  unfold callStores
  split at h
  · next hfn =>
    rw [hfn]
    unfold terminalRead at h
    dsimp only
    split_ifs at h ⊢ with hidx
    · cases h
      exact ⟨τ, store_nil, rfl⟩
    · obtain ⟨τ₁, hst, heq⟩ := Option.map_eq_some_iff.mp h
      cases heq
      exact ⟨_, hst, rfl⟩
  · next hfn =>
    cases h
    rw [hfn]
    exact ⟨τ, store_nil, rfl⟩
  · next hfn =>
    rw [hfn]
    unfold rtcRead at h
    split_ifs at h
    cases h
    exact ⟨τ, store_nil, rfl⟩
  · next hfn =>
    rw [hfn]
    cases hd : readDentryByIndex E.img (τ.table i).filePosition with
    | none =>
      simp only [dirRead, hd] at h
      cases h
      exact ⟨τ, store_nil, rfl⟩
    | some d =>
      simp only [dirRead, hd] at h
      obtain ⟨τ₁, hst, heq⟩ := Option.map_eq_some_iff.mp h
      cases heq
      refine ⟨τ₁, ?_, rfl⟩
      rw [ReadStores.all, List.append_nil]
      exact hst
  · next hfn =>
    rw [hfn]
    unfold fileRead at h
    obtain ⟨τ₁, hst, heq⟩ := Option.map_eq_some_iff.mp h
    refine ⟨τ₁, ?_, ?_⟩
    · rw [ReadStores.all, List.append_nil]
      exact hst
    · split_ifs at heq
      · cases heq
        rfl
      · cases heq
        rfl
  · next hfn =>
    cases h
    rw [hfn]
    exact ⟨τ, store_nil, rfl⟩
  · cases h

/-- Nor does a call of `read` store anything else. -/
lemma readCall_stores (h : readCall E keys fd buf nbytes τ = some (r, τ')) :
    ∃ τ₁, τ.store? E (readStores E keys fd buf nbytes τ).all = some τ₁ ∧ τ'.mem = τ₁.mem := by
  cases hfd : fdOf fd with
  | none =>
    simp only [readCall, hfd] at h
    simp only [readStores, hfd]
    cases h
    exact ⟨τ, store_nil, rfl⟩
  | some i =>
    simp only [readCall, hfd] at h
    simp only [readStores, hfd]
    split_ifs at h ⊢
    · cases h
      exact ⟨τ, store_nil, rfl⟩
    · cases h
      exact ⟨τ, store_nil, rfl⟩
    · exact callRead_stores h

/-! ### The four kinds -/

/-- What an operation owes the caller. -/
structure CallContract (E : FileEnv) (keys : KeyBuffer) (i : Fd) (buf nbytes : Word) (τ : Task) :
    Prop where
  stores : ∀ s ∈ (callStores E.img keys (τ.table i) buf nbytes).all,
    InBuffer buf nbytes.toNat s.1 ∧ UserPage s.1
  result : ∃ r τ', callRead E keys i buf nbytes τ = some (r, τ') ∧
    (r = -1#32 ∨ r.toNat ≤ nbytes.toNat ∧
      Covers (callStores E.img keys (τ.table i) buf nbytes).data buf r.toNat)

/-- An operation that stores `m` bytes, of which the first `n` are data, and returns `r`. -/
lemma callContract_iff (hm : m ≤ 2 ^ 31) (hnm : n ≤ m) (hnbytes : nbytes.toNat < 2 ^ 31)
    (hall : Covers (callStores E.img keys (τ.table i) buf nbytes).all buf m)
    (hdata : Covers (callStores E.img keys (τ.table i) buf nbytes).data buf n) (hr : r ≠ -1#32)
    (hcall : (∀ s ∈ (callStores E.img keys (τ.table i) buf nbytes).all, UserPage s.1) →
      ∃ τ', callRead E keys i buf nbytes τ = some (r, τ')) :
    CallContract E keys i buf nbytes τ ↔ UserRange buf m ∧ m ≤ nbytes.toNat ∧ n = r.toNat := by
  have hrlt := r.isLt
  rw [← forall_userPage_iff hm, ← inBuffer_subset_iff hm hnbytes.le]
  constructor
  · rintro ⟨hstores, r', τ', hcall', hresult⟩
    have huser := fun s hs => (hstores s hs).2
    obtain ⟨τ₁, heq⟩ := hcall huser
    obtain ⟨rfl, -⟩ := Prod.mk.inj (Option.some.inj (heq.symm.trans hcall'))
    obtain ⟨hle, hcovers⟩ := hresult.resolve_left hr
    refine ⟨hall.forall_iff.mp huser, hall.forall_iff.mp fun s hs => (hstores s hs).1, ?_⟩
    exact (hdata.iff_eq (by omega) (by omega)).mp hcovers
  · rintro ⟨huser, hin, rfl⟩
    have huser' := hall.forall_iff.mpr huser
    obtain ⟨τ₁, heq⟩ := hcall huser'
    have hle := (inBuffer_subset_iff hm hnbytes.le).mp hin
    exact ⟨fun s hs => ⟨hall.forall_iff.mpr hin s hs, huser' s hs⟩,
      r, τ₁, heq, Or.inr ⟨hnm.trans hle, hdata⟩⟩

/-- An operation that stores nothing and returns 0 or -1. -/
lemma callContract_of_empty
    (hstores : callStores E.img keys (τ.table i) buf nbytes = ⟨[], []⟩)
    (hr : r = 0#32 ∨ r = -1#32) (hcall : callRead E keys i buf nbytes τ = some (r, τ')) :
    CallContract E keys i buf nbytes τ := by
  constructor
  · rw [hstores]
    intro s hs
    cases hs
  · refine ⟨r, τ', hcall, ?_⟩
    rcases hr with rfl | rfl
    · rw [hstores]
      exact Or.inr ⟨Nat.zero_le _, covers_nil⟩
    · exact Or.inl rfl

lemma terminalRead_contract_iff (hpage : ∀ a, UserPage a → E.mapped a = true)
    (hn : nbytes.toNat < 2 ^ 31) (hfn : (τ.table i).fileOpTb.readFn = .terminalRead) :
    CallContract E keys i buf nbytes τ ↔ BufferOk E.img keys (τ.table i) buf nbytes := by
  have hcall : callRead E keys i buf nbytes τ = terminalRead E keys buf τ := by
    rw [callRead, hfn]
  rw [BufferOk, hfn]
  dsimp only
  by_cases hfull : 128 ≤ keys.keybIndex
  · have hstores : callStores E.img keys (τ.table i) buf nbytes = ⟨[], []⟩ := by
      rw [callStores, hfn]
      exact if_pos hfull
    have hzero : callRead E keys i buf nbytes τ = some (0#32, τ) := by
      rw [hcall]
      exact if_pos hfull
    exact iff_of_true (callContract_of_empty hstores (Or.inl rfl) hzero) (Or.inl hfull)
  · have hstores : callStores E.img keys (τ.table i) buf nbytes =
        ⟨fill buf keys.keybIndex keys.keyBuffer,
          [(buf + BitVec.ofNat 32 keys.keybIndex, 0#8)]⟩ := by
      rw [callStores, hfn]
      exact if_neg hfull
    have hindex : (BitVec.ofNat 32 keys.keybIndex).toNat = keys.keybIndex := by
      rw [BitVec.toNat_ofNat]
      omega
    have hr : BitVec.ofNat 32 keys.keybIndex ≠ -1#32 := by
      intro h
      rw [h] at hindex
      have hmax : (-1#32 : Word).toNat = 2 ^ 32 - 1 := rfl
      omega
    have hcovers :
        Covers (callStores E.img keys (τ.table i) buf nbytes).data buf keys.keybIndex := by
      rw [hstores]
      exact covers_fill
    have hall : Covers (callStores E.img keys (τ.table i) buf nbytes).all buf
        (keys.keybIndex + 1) := by
      rw [hstores]
      exact covers_fill.snoc 0#8
    have hiff := callContract_iff (by omega) (Nat.le_succ _) hn hall hcovers hr fun huser => ?_
    · rw [hiff, hindex]
      constructor
      · rintro ⟨hrange, hlt, -⟩
        exact Or.inr ⟨hlt, hrange⟩
      · rintro (habs | ⟨hlt, hrange⟩)
        · exact absurd habs hfull
        · exact ⟨hrange, hlt, rfl⟩
    · rw [hstores, ReadStores.all] at huser
      dsimp only at huser
      rw [hcall, terminalRead, if_neg hfull, store_of_mapped fun s hs => hpage _ (huser s hs)]
      exact ⟨_, rfl⟩

lemma fileRead_contract_iff (hpage : ∀ a, UserPage a → E.mapped a = true) (hbuf : buf ≠ 0#32)
    (hn : nbytes.toNat < 2 ^ 31) (hfn : (τ.table i).fileOpTb.readFn = .fileRead) :
    CallContract E keys i buf nbytes τ ↔ BufferOk E.img keys (τ.table i) buf nbytes := by
  have hcall : callRead E keys i buf nbytes τ = fileRead E i buf nbytes τ := by
    rw [callRead, hfn]
  have hstores : callStores E.img keys (τ.table i) buf nbytes =
      ⟨E.img.stores (readData E.img (τ.table i).inode (τ.table i).filePosition buf nbytes).2,
        []⟩ := by
    rw [callStores, hfn]
  rw [BufferOk, hfn]
  dsimp only
  by_cases hinode : E.img.numInodes - 1 < (τ.table i).inode
  · have hfail : readData E.img (τ.table i).inode (τ.table i).filePosition buf nbytes = (-1, []) :=
      readData_fail (Or.inl hinode)
    have hminus : callRead E keys i buf nbytes τ = some (-1#32, τ) := by
      rw [hcall, fileRead, hfail]
      rfl
    rw [hfail] at hstores
    exact iff_of_true (callContract_of_empty hstores (Or.inr rfl) hminus) (Or.inl hinode)
  · have hle := readLength_le E.img (τ.table i).inode (τ.table i).filePosition nbytes
    obtain ⟨hlength, hdata⟩ := readData_spec (BitVec.not_lt.mp hinode) hbuf
      (Nat.lt_of_le_of_lt hle hn)
    rw [hdata] at hstores
    generalize E.img.readLength (τ.table i).inode (τ.table i).filePosition nbytes = length at *
    have hpos : ¬ length.slt 0#32 = true := by
      rw [slt_iff_of_lt (by omega) (by decide)]
      exact Nat.not_lt_zero _
    have hr : length ≠ -1#32 := by
      rintro rfl
      exact hpos rfl
    have hcovers : Covers (callStores E.img keys (τ.table i) buf nbytes).data buf length.toNat := by
      rw [hstores]
      exact covers_fill
    have hall : Covers (callStores E.img keys (τ.table i) buf nbytes).all buf length.toNat := by
      rw [hstores, ReadStores.all, List.append_nil]
      exact covers_fill
    have hiff := callContract_iff (by omega) le_rfl hn hall hcovers hr fun huser => ?_
    · rw [hiff]
      constructor
      · rintro ⟨hrange, -⟩
        exact Or.inr hrange
      · rintro (habs | hrange)
        · exact absurd habs hinode
        · exact ⟨hrange, hle, rfl⟩
    · rw [hstores, ReadStores.all, List.append_nil] at huser
      rw [hcall, fileRead, hdata, hlength, store_of_mapped fun s hs => hpage _ (huser s hs),
        Option.map_some, if_neg hpos]
      exact ⟨_, rfl⟩

lemma userPage_not_kernelPage (h : UserPage a) : ¬ KernelPage a := by
  intro hk
  simp only [UserPage, KernelPage, mb4, mb8, mb128, mb132] at h hk
  omega

lemma dirRead_contract_iff (hpage : ∀ a, UserPage a → E.mapped a = true)
    (hn : nbytes.toNat < 2 ^ 31) (hfn : (τ.table i).fileOpTb.readFn = .dirRead) :
    CallContract E keys i buf nbytes τ ↔ BufferOk E.img keys (τ.table i) buf nbytes := by
  have hcall : callRead E keys i buf nbytes τ = dirRead E i buf nbytes τ := by
    rw [callRead, hfn]
  rw [BufferOk, hfn]
  dsimp only
  by_cases hend : E.img.numDirEntries - 1 < (τ.table i).filePosition
  · have hnone : readDentryByIndex E.img (τ.table i).filePosition = none := if_pos hend
    have hstores : callStores E.img keys (τ.table i) buf nbytes = ⟨[], []⟩ := by
      rw [callStores, hfn]
      dsimp only
      rw [hnone]
    have hzero : callRead E keys i buf nbytes τ = some (0#32, τ) := by
      rw [hcall, dirRead, hnone]
    exact iff_of_true (callContract_of_empty hstores (Or.inl rfl) hzero) (Or.inl hend)
  · obtain ⟨d, hd⟩ : ∃ d, readDentryByIndex E.img (τ.table i).filePosition = some d :=
      ⟨_, if_neg hend⟩
    have hstores : callStores E.img keys (τ.table i) buf nbytes =
        ⟨fill buf fileNameSize fun i => d.fileName.getD i 0, []⟩ := by
      rw [callStores, hfn]
      dsimp only
      rw [hd]
    have hcovers : Covers (callStores E.img keys (τ.table i) buf nbytes).data buf fileNameSize := by
      rw [hstores]
      exact covers_fill
    have hall : Covers (callStores E.img keys (τ.table i) buf nbytes).all buf fileNameSize := by
      rw [hstores, ReadStores.all, List.append_nil]
      exact covers_fill
    have hr : (if ((τ.table i).filePosition + 1#32).slt 63#32 = true then nbytes else 0#32) ≠
        -1#32 := by
      split_ifs
      · rintro rfl
        exact absurd hn (by decide)
      · decide
    have hiff := callContract_iff (by decide) le_rfl hn hall hcovers hr fun huser => ?_
    · rw [hiff]
      constructor
      · rintro ⟨hrange, -, heq⟩
        split_ifs at heq with hposition
        · exact Or.inr ⟨BitVec.eq_of_toNat_eq heq.symm, hposition, hrange⟩
        · cases heq
      · rintro (habs | ⟨rfl, hposition, hrange⟩)
        · exact absurd habs hend
        · rw [if_pos hposition]
          exact ⟨hrange, le_rfl, rfl⟩
    · rw [hstores, ReadStores.all, List.append_nil] at huser
      have hst : τ.store? E (fill buf fileNameSize fun i => d.fileName.getD i 0) = some _ :=
        store_of_mapped fun s hs => hpage _ (huser s hs)
      have htable := store_table (fun s hs => userPage_not_kernelPage (huser s hs)) hst
      rw [hcall, dirRead, hd]
      dsimp only
      rw [hst, Option.map_some, htable]
      exact ⟨_, rfl⟩

/-- `rtc_read` and the operations that fail. -/
lemma quiet_contract (hwait : ¬ Waits fd τ) (hfd : fdOf fd = some i)
    (hfn : (τ.table i).fileOpTb.readFn = .rtcRead ∨
      (τ.table i).fileOpTb.readFn = .terminalBadRead) :
    CallContract E keys i buf nbytes τ := by
  rcases hfn with hfn | hfn
  · have hstores : callStores E.img keys (τ.table i) buf nbytes = ⟨[], []⟩ := by
      rw [callStores, hfn]
    have hcount : (τ.table i).filePosition ≠ 0#32 := fun hzero => hwait ⟨i, hfd, hfn, hzero⟩
    have hzero : callRead E keys i buf nbytes τ = some (0#32, τ.setPosition i 0#32) := by
      rw [callRead, hfn]
      exact if_neg hcount
    exact callContract_of_empty hstores (Or.inl rfl) hzero
  · have hstores : callStores E.img keys (τ.table i) buf nbytes = ⟨[], []⟩ := by
      rw [callStores, hfn]
    have hminus : callRead E keys i buf nbytes τ = some (-1#32, τ) := by
      rw [callRead, hfn]
    exact callContract_of_empty hstores (Or.inr rfl) hminus

/-! ### The system call -/

/-- Past its checks `read` owes what the operation does. -/
lemma bufferContract_iff (hfd : fdOf fd = some i) (hopen : (τ.table i).flag ≠ 0#32)
    (hn : nbytes.slt 0#32 = false) (hbuf : buf ≠ 0#32) (hwait : ¬ Waits fd τ) :
    BufferContract E keys fd buf nbytes τ ↔ CallContract E keys i buf nbytes τ := by
  have hcall : readCall E keys fd buf nbytes τ = callRead E keys i buf nbytes τ :=
    readCall_of_open hfd hbuf hn hopen
  have hstores :
      readStores E keys fd buf nbytes τ = callStores E.img keys (τ.table i) buf nbytes := by
    have hargs : ¬ (buf = 0#32 ∨ nbytes.slt 0#32 = true) := by
      simp [hbuf, hn]
    rw [readStores, hfd]
    dsimp only
    rw [if_neg hargs, if_neg hopen]
  constructor
  · rintro ⟨hin, hresult⟩
    rw [hstores] at hin hresult
    rw [hcall] at hresult
    exact ⟨hin, hresult.resolve_left hwait⟩
  · rintro ⟨hin, hresult⟩
    constructor
    · rw [hstores]
      exact hin
    · rw [hstores, hcall]
      exact Or.inr hresult

/-- A read that comes back before it calls an operation. -/
lemma bufferContract_null (hfd : fdOf fd = some i) : BufferContract E keys fd 0#32 nbytes τ := by
  have hargs : (0#32 : Word) = 0#32 ∨ nbytes.slt 0#32 = true := Or.inl rfl
  constructor
  · rw [readStores, hfd]
    dsimp only
    rw [if_pos hargs]
    intro s hs
    cases hs
  · refine Or.inr ⟨-1#32, τ, ?_, Or.inl rfl⟩
    rw [readCall, hfd]
    exact if_pos hargs

/-- A read that waits for the RTC has stored nothing. -/
lemma bufferContract_waits (hwait : Waits fd τ) : BufferContract E keys fd buf nbytes τ := by
  refine ⟨?_, Or.inl hwait⟩
  obtain ⟨i, hfd, hfn, -⟩ := hwait
  have hstores : callStores E.img keys (τ.table i) buf nbytes = ⟨[], []⟩ := by
    rw [callStores, hfn]
  rw [readStores, hfd]
  dsimp only
  rw [hstores, ite_self, ite_self]
  intro s hs
  cases hs

/-- A read of an open descriptor keeps to its buffer if and only if the buffer is null, or what the
operation stores is what the caller has asked for and lies in the user's page. What is stored is
what `readStores` lists. -/
theorem read_buffer (hpage : ∀ a, UserPage a → E.mapped a = true) (hfd : fdOf fd = some i)
    (hopen : (τ.table i).flag ≠ 0#32)
    (hkind : (τ.table i).fileOpTb ∈ [stdinTable, stdoutTable, fileTable, dirTable, rtcTable])
    (hn : nbytes.slt 0#32 = false) :
    (BufferContract E keys fd buf nbytes τ ↔
      buf = 0#32 ∨ BufferOk E.img keys (τ.table i) buf nbytes) ∧
    ∀ r τ', readCall E keys fd buf nbytes τ = some (r, τ') →
      τ'.mem = storeAll τ.mem (readStores E keys fd buf nbytes τ).all := by
  refine ⟨?_, fun r τ' hcall => ?_⟩
  swap
  · obtain ⟨τ₁, hst, hmem⟩ := readCall_stores hcall
    rw [hmem, store_eq_some hst]
    rfl
  have hlt : nbytes.toNat < 2 ^ 31 := toNat_lt_of_not_slt (by simp [hn])
  by_cases hbuf : buf = 0#32
  · subst hbuf
    exact iff_of_true (bufferContract_null hfd) (Or.inl rfl)
  · rw [or_iff_right hbuf]
    by_cases hwait : Waits fd τ
    · refine iff_of_true (bufferContract_waits hwait) ?_
      obtain ⟨i', hfd', hfn, -⟩ := hwait
      obtain rfl := Option.some.inj (hfd.symm.trans hfd')
      rw [BufferOk, hfn]
      trivial
    · rw [bufferContract_iff hfd hopen hn hbuf hwait]
      simp only [List.mem_cons, List.not_mem_nil, or_false] at hkind
      rcases hkind with hkind | hkind | hkind | hkind | hkind
      · exact terminalRead_contract_iff hpage hlt (by rw [hkind]; rfl)
      · have hfn : (τ.table i).fileOpTb.readFn = .terminalBadRead := by
          rw [hkind]
          rfl
        refine iff_of_true (quiet_contract hwait hfd (Or.inr hfn)) ?_
        rw [BufferOk, hfn]
        trivial
      · exact fileRead_contract_iff hpage hbuf hlt (by rw [hkind]; rfl)
      · exact dirRead_contract_iff hpage hlt (by rw [hkind]; rfl)
      · have hfn : (τ.table i).fileOpTb.readFn = .rtcRead := by
          rw [hkind]
          rfl
        refine iff_of_true (quiet_contract hwait hfd (Or.inl hfn)) ?_
        rw [BufferOk, hfn]
        trivial

end

/-! ### Lines -/

lemma smallEnv_page (a : Word) (h : UserPage a) : smallEnv.mapped a = true :=
  decide_eq_true (Or.inr h)

/-- A new process reads a line of three bytes into a buffer of four. -/
theorem read_buffer_small :
    BufferContract smallEnv ⟨fun _ => 0x61#8, 3⟩ 0#32 0x8000000#32 4#32
      ⟨createTable, fun _ => 0#8⟩ := by
  refine (read_buffer (i := 0) smallEnv_page (by decide) (by decide) (by decide)
    (by decide)).1.mpr (Or.inr ?_)
  exact Or.inr ⟨by decide, by decide⟩

/-- The same line in a buffer of two bytes. -/
theorem read_buffer_line :
    ¬ BufferContract smallEnv ⟨fun _ => 0x61#8, 3⟩ 0#32 0x8000000#32 2#32
      ⟨createTable, fun _ => 0#8⟩ := by
  intro h
  obtain ⟨⟨j, hj, heq⟩, -⟩ := h.stores (0x8000003#32, 0#8) (by decide)
  have hcases : j = 0 ∨ j = 1 := by
    have hj' : j < 2 := hj
    omega
  rcases hcases with rfl | rfl
  · exact absurd heq (by decide)
  · exact absurd heq (by decide)

end Osgods
