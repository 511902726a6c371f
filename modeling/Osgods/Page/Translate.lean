import Osgods.Page.Basic

/-!
# Address translation

`translate` is the two-level walk of the processor with 4 MB pages enabled. The lemmas read the
entries that `page.c` builds field by field, as the processor does.
-/

namespace Osgods

open BitField

/-! ### The processor's view of an entry -/

def present (e : Word) : Bool := e.getLsbD 0
def useSupervisor (e : Word) : Bool := e.getLsbD 2
def pageSize (e : Word) : Bool := e.getLsbD 7
def baseAddress (e : Word) : BitVec 20 := e.extractLsb' 12 20

/-- A user-mode access needs the U/S bit at each level. -/
def entryAllows (user : Bool) (e : Word) : Bool := present e && (!user || useSupervisor e)

/-- The table that the processor reads at a frame. -/
def Layout.tableAt (L : Layout) (pt : PageTables) (n : BitVec 20) : BitVec 10 → Word :=
  if n = L.pageTable then pt.pageTable
  else if n = L.pageVidTable then pt.pageVidTable
  else L.other n

def dirIndex (va : Word) : BitVec 10 := va.extractLsb' 22 10
def tableIndex (va : Word) : BitVec 10 := va.extractLsb' 12 10

/-- The physical address behind a virtual one, for user-mode or supervisor accesses. -/
def PageTables.translate (L : Layout) (pt : PageTables) (user : Bool) (va : Word) : Option Word :=
  let pde := pt.pageDir (dirIndex va)
  if entryAllows user pde then
    if pageSize pde then
      some (pde.extractLsb' 22 10 ++ va.extractLsb' 0 22)
    else
      let pte := L.tableAt pt (baseAddress pde) (tableIndex va)
      if entryAllows user pte then
        some (baseAddress pte ++ va.extractLsb' 0 12)
      else none
  else none

/-- The physical memory behind the user page of a process. -/
def processFrame (pid : Word) : Word := (userPde pid).extractLsb' 22 10 ++ (0 : BitVec 22)

/-- The text-video page shown on the screen (`none`) or that of a terminal. -/
def videoTarget : Option Tid → Word
  | none   => videoMemoryAddr
  | some t => videoPage t

/-! ### Reading the entries back -/

section Entries

variable (e v : Word) (user : Bool)

@[simp] lemma present_assignPresent : present (assignPresent e v) = v.getLsbD 0 := by
  simp [present, assignPresent, getElem_set]

@[simp] lemma present_assignReadWrite : present (assignReadWrite e v) = present e := by
  simp [present, assignReadWrite, getElem_set]

@[simp] lemma present_assignUseSupervisor : present (assignUseSupervisor e v) = present e := by
  simp [present, assignUseSupervisor, getElem_set]

@[simp] lemma present_assignBaseAddress : present (assignBaseAddress e v) = present e := by
  simp [present, assignBaseAddress, getElem_set]

@[simp] lemma baseAddress_assignBaseAddress :
    baseAddress (assignBaseAddress e v) = v.setWidth 20 :=
  extract_set_self (by decide)

@[simp] lemma baseAddress_assignPresent : baseAddress (assignPresent e v) = baseAddress e :=
  extract_set_of_disjoint (Or.inr (by decide)) (by decide)

@[simp] lemma baseAddress_assignReadWrite : baseAddress (assignReadWrite e v) = baseAddress e :=
  extract_set_of_disjoint (Or.inr (by decide)) (by decide)

@[simp] lemma baseAddress_assignUseSupervisor :
    baseAddress (assignUseSupervisor e v) = baseAddress e :=
  extract_set_of_disjoint (Or.inr (by decide)) (by decide)

lemma entryAllows_present {user : Bool} {e : Word} (h : entryAllows user e = true) :
    present e = true := by
  simp only [entryAllows, Bool.and_eq_true] at h
  exact h.1

lemma setWidth_sshiftRight : (v.sshiftRight 12).setWidth 20 = baseAddress v := by
  apply BitVec.eq_of_getLsbD_eq
  intro i hi
  have hlt : 12 + i < 32 := by omega
  simp [baseAddress, BitVec.getLsbD_sshiftRight, hi, hlt]
  omega

lemma getLsbD_frameAddress (n : BitVec 20) (i : ℕ) :
    (frameAddress n).getLsbD i = if i < 12 then false else n.getLsbD (i - 12) := by
  have h := BitVec.getLsbD_append (x := n) (y := (0 : BitVec 12)) (i := i)
  simpa [frameAddress] using h

lemma baseAddress_frameAddress (n : BitVec 20) : baseAddress (frameAddress n) = n := by
  apply BitVec.eq_of_getLsbD_eq
  intro i hi
  simp [baseAddress, getLsbD_frameAddress, hi]

lemma setWidth_frameAddress (n : BitVec 20) : (frameAddress n >>> 12).setWidth 20 = n := by
  apply BitVec.eq_of_getLsbD_eq
  intro i hi
  simp [getLsbD_frameAddress, hi]

end Entries

section Directory

variable (L : Layout)

lemma pde4k_bits : present (pde4k L) = true ∧ useSupervisor (pde4k L) = false ∧
    pageSize (pde4k L) = false ∧ baseAddress (pde4k L) = L.pageTable := by
  refine ⟨?_, ?_, ?_, ?_⟩
  · simp [pde4k]
  · simp [pde4k, useSupervisor, assignBaseAddress, assignPresent, getElem_set]
  · simp [pde4k, pageSize, assignBaseAddress, assignPresent, getElem_set]
  · rw [pde4k, baseAddress_assignBaseAddress, setWidth_frameAddress]

lemma userVideoPde_bits : present (userVideoPde L) = true ∧ pageSize (userVideoPde L) = false ∧
    baseAddress (userVideoPde L) = L.pageVidTable := by
  refine ⟨?_, ?_, ?_⟩
  · simp [userVideoPde, present]
  · rw [pageSize, userVideoPde, BitVec.getLsbD_or, getLsbD_frameAddress]
    rfl
  · have h7 : baseAddress 0x7 = 0 := by decide
    have h := baseAddress_frameAddress L.pageVidTable
    simp only [baseAddress, userVideoPde, BitVec.extractLsb'_or] at h7 h ⊢
    rw [h7, h]
    simp

/-- A base address is or-ed in, which keeps the bits that are set. -/
lemma getLsbD_ite_or {p : Prop} [Decidable p] {e : Word} {i : ℕ} (h : e.getLsbD i = true)
    (v : Word) : (if p then e ||| v else e).getLsbD i = true := by
  split_ifs
  · rw [BitVec.getLsbD_or, h, Bool.true_or]
  · exact h

lemma userPde_bits (pid : Word) :
    present (userPde pid) = true ∧ useSupervisor (userPde pid) = true ∧
      pageSize (userPde pid) = true := by
  have hkept : ∀ i, (setPageSize1 (setPresent 0)).getLsbD i = true →
      (userPde pid).getLsbD i = true := by
    intro i h
    simp only [userPde, setUseSupervisor, setReadWrite1, BitVec.getLsbD_or]
    rw [Bool.or_assoc, Bool.or_eq_true]
    left
    iterate 6 apply getLsbD_ite_or
    exact h
  refine ⟨hkept 0 (by decide), ?_, hkept 7 (by decide)⟩
  simp [useSupervisor, userPde, setUseSupervisor]

end Directory

end Osgods
