import Osgods.Library.Asm
import Osgods.Library.X86

/-!
# String instructions

The repeated string instructions of x86 that fill and move memory, beside the instructions of
`X86`. `filled` is the memory after a fill; a repeated `stos` is a fill, and a repeated `movsb` is a
copy whenever no byte is overwritten before it has been read.
-/

namespace X86

open ByteCopy

/-- In AT&T order; `cmpReg r r'` compares `r'` with `r`. -/
inductive Op where
  | instr (i : Instr Empty Empty)
  | cmpReg (r r' : Reg)
  | lea (disp : BitVec 32) (base index r : Reg)
  | std
  | repStosl
  | repMovsb

/-- The conditions of `X86`, and `ae`. -/
inductive Test where
  | cond (c : Cond)
  | ae

namespace Cpu

/-- The low `k` bytes of a word, stored at `a`. -/
def storeBytes (k : ℕ) (a v : BitVec 32) (m : Memory) : Memory := fun x =>
  if (x - a).toNat < k then v.extractLsb' (8 * (x - a).toNat) 8 else m x

/-- One turn of a repeated `stos` of `k` bytes. -/
def stos (k : ℕ) (c : Cpu) : Cpu :=
  let delta := if c.eflags.getLsbD df then -BitVec.ofNat 32 k else BitVec.ofNat 32 k
  { c with
    reg := Function.update (Function.update c.reg .edi (c.reg .edi + delta)) .ecx
      (c.reg .ecx - 1#32)
    mem := storeBytes k (c.reg .edi) (c.reg .eax) c.mem }

/-- One turn of a repeated `movsb`. -/
def movsb (c : Cpu) : Cpu :=
  let delta := if c.eflags.getLsbD df then -1#32 else 1#32
  { c with
    reg := Function.update (Function.update (Function.update c.reg .edi (c.reg .edi + delta)) .esi
      (c.reg .esi + delta)) .ecx (c.reg .ecx - 1#32)
    mem := Function.update c.mem (c.reg .edi) (c.mem (c.reg .esi)) }

end Cpu

namespace Op

def exec : Op → Cpu → Cpu
  | instr i, c      => i.exec c
  | cmpReg r r', c  => c.setFlags (subFlags (c.reg r') (c.reg r))
  | lea d b i r, c  => c.set r (c.reg b + c.reg i + d)
  | std, c          => c.setFlags (setFlag df true)
  | repStosl, c     => (Cpu.stos 4)^[(c.reg .ecx).toNat] c
  | repMovsb, c     => Cpu.movsb^[(c.reg .ecx).toNat] c

/-- What a block of operations does. -/
def execs (os : List Op) (c : Cpu) : Cpu := os.foldl (fun c o => o.exec c) c

end Op

def Test.holds : Test → Cpu → Bool
  | cond t, c => t.holds c.eflags
  | ae, c     => !c.eflags.getLsbD cf

/-- Code with string instructions. -/
abbrev Text (L : Type) := Asm.Text L Op Test Cpu

def text {L : Type} (code : List (Asm.Line L Op Test)) : Text L := ⟨code, Op.exec, Test.holds⟩

/-- A block of operations. -/
lemma text_block {L : Type} [DecidableEq L] {code : List (Asm.Line L Op Test)} {Q : Cpu → Prop}
    {pc : ℕ} {c : Cpu} (os : List Op) (hcode : os.map Asm.Line.op <+: code.drop pc)
    (h : (text code).WP Q ⟨pc + os.length, Op.execs os c⟩) : (text code).WP Q ⟨pc, c⟩ :=
  .ops os hcode h

/-! ### Fills -/

/-- The memory after the bytes `f 0`, …, `f (n - 1)` have been stored from `d` on. -/
def filled (d : BitVec 32) (n : ℕ) (f : ℕ → BitVec 8) (m : Memory) : Memory := fun x =>
  if (x - d).toNat < n then f (x - d).toNat else m x

/-- The byte `i` of a word that is repeated. -/
def bytes (k : ℕ) (v : BitVec 32) (i : ℕ) : BitVec 8 := v.extractLsb' (8 * (i % k)) 8

variable {d v : BitVec 32} {m n k : ℕ} {f : ℕ → BitVec 8} {mem : Memory} {c : Cpu}

@[simp] lemma filled_zero : filled d 0 f mem = mem := by
  funext x
  simp [filled]

/-- Where an address lies in a range that starts `m` bytes later. -/
lemma toNat_sub_add (x d : BitVec 32) (m : ℕ) :
    (x - (d + BitVec.ofNat 32 m)).toNat =
      ((x - d).toNat + (2 ^ 32 - m % 2 ^ 32)) % 2 ^ 32 := by
  rw [← BitVec.sub_sub, BitVec.toNat_sub, BitVec.toNat_ofNat, Nat.add_comm]

/-- Two fills, the second starting where the first ends. -/
lemma filled_filled (h : m + n ≤ 2 ^ 32) :
    filled (d + BitVec.ofNat 32 m) n (fun i => f (m + i)) (filled d m f mem) =
      filled d (m + n) f mem := by
  funext x
  have hlt := (x - d).isLt
  simp only [filled, toNat_sub_add]
  generalize (x - d).toNat = y at hlt
  by_cases hy : y < m
  · have hout : ¬ (y + (2 ^ 32 - m % 2 ^ 32)) % 2 ^ 32 < n := by omega
    rw [if_neg hout, if_pos hy, if_pos (by omega)]
  · have hin : (y + (2 ^ 32 - m % 2 ^ 32)) % 2 ^ 32 = y - m := by omega
    rw [hin, if_neg hy, Nat.add_sub_cancel' (Nat.not_lt.mp hy)]
    by_cases hyn : y < m + n
    · rw [if_pos (by omega), if_pos hyn]
    · rw [if_neg (by omega), if_neg hyn]

lemma bytes_add (i : ℕ) : bytes k v (k + i) = bytes k v i := by
  simp [bytes]

namespace Cpu

lemma storeBytes_eq : storeBytes k d v mem = filled d k (bytes k v) mem := by
  funext x
  simp only [storeBytes, filled, bytes]
  split_ifs with h
  · rw [Nat.mod_eq_of_lt h]
  · rfl

/-- A repeated `stos` with the direction flag clear is a fill. -/
theorem iterate_stos (k n : ℕ) (hdf : c.eflags.getLsbD df = false) (hn : k * n ≤ 2 ^ 32) :
    ((stos k)^[n] c).mem = filled (c.reg .edi) (k * n) (bytes k (c.reg .eax)) c.mem ∧
      ((stos k)^[n] c).reg .edi = c.reg .edi + BitVec.ofNat 32 (k * n) ∧
      ((stos k)^[n] c).eflags = c.eflags ∧
      ∀ r, r ≠ .edi → r ≠ .ecx → ((stos k)^[n] c).reg r = c.reg r := by
  induction n generalizing c with
  | zero => simp
  | succ n ih =>
    rw [Nat.mul_succ, Nat.add_comm (k * n)] at hn ⊢
    have hedi : (c.stos k).reg .edi = c.reg .edi + BitVec.ofNat 32 k := by simp [stos, hdf]
    have heax : (c.stos k).reg .eax = c.reg .eax := by simp [stos]
    have hmem : (c.stos k).mem = filled (c.reg .edi) k (bytes k (c.reg .eax)) c.mem :=
      storeBytes_eq
    obtain ⟨ihmem, ihedi, ihflags, ihreg⟩ := ih (c := c.stos k) hdf (by omega)
    rw [Function.iterate_succ_apply, ihmem, ihedi, ihflags, hedi, heax, hmem]
    refine ⟨?_, ?_, rfl, fun r hedi hecx => ?_⟩
    · rw [← filled_filled hn]
      simp only [bytes_add]
    · rw [BitVec.add_assoc, ← BitVec.ofNat_add]
    · rw [ihreg r hedi hecx]
      simp [stos, hedi, hecx]

/-- A copy whose first byte has been copied already. -/
lemma copied_succ_up {d s : BitVec 32} (h : (s - d).toNat + (n + 1) ≤ 2 ^ 32) :
    copied (d + 1#32) (s + 1#32) n (Function.update mem d (mem s)) = copied d s (n + 1) mem := by
  funext x
  simp only [copied]
  by_cases hx : x = d
  · subst hx
    have hout : ¬ (x - (x + 1#32)).toNat < n := by bv_omega
    rw [if_neg hout, if_pos (by simp), Function.update_self]
    simp
  · have haddr : s + 1#32 + (x - (d + 1#32)) = s + (x - d) := by
      clear h hx
      bv_omega
    have hiff : (x - (d + 1#32)).toNat < n ↔ (x - d).toNat < n + 1 := by
      clear h haddr
      bv_omega
    have hne (hin : (x - d).toNat < n + 1) : s + (x - d) ≠ d := by
      clear haddr hiff
      bv_omega
    simp only [haddr, hiff]
    split_ifs with hin
    · rw [Function.update_of_ne (hne hin)]
    · rw [Function.update_of_ne hx]

/-- A copy whose last byte has been copied already. -/
lemma copied_succ_down {d s : BitVec 32} (h : (d - s).toNat + (n + 1) ≤ 2 ^ 32) :
    copied d s n (Function.update mem (d + BitVec.ofNat 32 n) (mem (s + BitVec.ofNat 32 n))) =
      copied d s (n + 1) mem := by
  funext x
  simp only [copied]
  by_cases hx : x = d + BitVec.ofNat 32 n
  · have hsub : x - d = BitVec.ofNat 32 n := by bv_omega
    have hnat : (BitVec.ofNat 32 n).toNat = n := by bv_omega
    rw [hsub, hnat, if_neg (Nat.lt_irrefl n), if_pos (Nat.lt_succ_self n), hx, Function.update_self]
  · have hiff : (x - d).toNat < n + 1 ↔ (x - d).toNat < n := by bv_omega
    have hne (hin : (x - d).toNat < n) : s + (x - d) ≠ d + BitVec.ofNat 32 n := by
      clear hiff hx
      bv_omega
    simp only [hiff]
    split_ifs with hin
    · rw [Function.update_of_ne (hne hin)]
    · rw [Function.update_of_ne hx]

/-- A repeated `movsb` upwards, when the destination does not start inside the source. -/
theorem iterate_movsb_up (n : ℕ) (hdf : c.eflags.getLsbD df = false)
    (hn : (c.reg .esi - c.reg .edi).toNat + n ≤ 2 ^ 32) :
    (movsb^[n] c).mem = copied (c.reg .edi) (c.reg .esi) n c.mem ∧
      (movsb^[n] c).eflags = c.eflags := by
  induction n generalizing c with
  | zero => exact ⟨copied_zero.symm, rfl⟩
  | succ n ih =>
    have hedi : c.movsb.reg .edi = c.reg .edi + 1#32 := by simp [movsb, hdf]
    have hesi : c.movsb.reg .esi = c.reg .esi + 1#32 := by simp [movsb, hdf]
    have hmem : c.movsb.mem = Function.update c.mem (c.reg .edi) (c.mem (c.reg .esi)) := rfl
    have hdelta : c.movsb.reg .esi - c.movsb.reg .edi = c.reg .esi - c.reg .edi := by
      rw [hedi, hesi]
      bv_omega
    obtain ⟨ihmem, ihflags⟩ := ih (c := c.movsb) hdf (by rw [hdelta]; omega)
    rw [Function.iterate_succ_apply, ihmem, ihflags, hedi, hesi, hmem]
    exact ⟨copied_succ_up hn, rfl⟩

lemma add_ofNat_succ_sub_one (a : BitVec 32) :
    a + BitVec.ofNat 32 (n + 1) - 1#32 = a + BitVec.ofNat 32 n := by
  rw [BitVec.ofNat_add]
  bv_omega

/-- A repeated `movsb` downwards, when the source does not start inside the destination. -/
theorem iterate_movsb_down (n : ℕ) {d s : BitVec 32} (hdf : c.eflags.getLsbD df = true)
    (hedi : c.reg .edi = d + BitVec.ofNat 32 n - 1#32)
    (hesi : c.reg .esi = s + BitVec.ofNat 32 n - 1#32)
    (hn : (d - s).toNat + n ≤ 2 ^ 32) :
    (movsb^[n] c).mem = copied d s n c.mem ∧ (movsb^[n] c).eflags = c.eflags := by
  induction n generalizing c with
  | zero => exact ⟨copied_zero.symm, rfl⟩
  | succ n ih =>
    rw [add_ofNat_succ_sub_one] at hedi hesi
    have hedi' : c.movsb.reg .edi = d + BitVec.ofNat 32 n - 1#32 := by
      have hstep : c.movsb.reg .edi = c.reg .edi + -1#32 := by simp [movsb, hdf]
      rw [hstep, hedi, BitVec.sub_eq_add_neg]
    have hesi' : c.movsb.reg .esi = s + BitVec.ofNat 32 n - 1#32 := by
      have hstep : c.movsb.reg .esi = c.reg .esi + -1#32 := by simp [movsb, hdf]
      rw [hstep, hesi, BitVec.sub_eq_add_neg]
    have hmem : c.movsb.mem = Function.update c.mem (d + BitVec.ofNat 32 n)
        (c.mem (s + BitVec.ofNat 32 n)) := by
      simp [movsb, hedi, hesi]
    obtain ⟨ihmem, ihflags⟩ := ih (c := c.movsb) hdf hedi' hesi' (by omega)
    rw [Function.iterate_succ_apply, ihmem, ihflags, hmem]
    exact ⟨copied_succ_down hn, rfl⟩

end Cpu

end X86
