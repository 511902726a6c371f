import Osgods.Library.X86
import Osgods.Terminal.Machine

/-!
# `memcpy`

The assembly of `memcpy` (`lib.c`), and its agreement with the copy that the rest of the development
takes it for. The three phases are three lemmas about `Runs`, the first and the last by induction on
the number of bytes that are left to them.
-/

namespace Osgods

open X86 X86.Instr ByteCopy Loop

namespace Memcpy

inductive Label where
  | top | aligned | bottom | done
  deriving DecidableEq, Repr

abbrev Asm := Instr Label Empty

def code : List Asm :=
  [.label .top,
   .testReg .ecx .ecx,
   .jcc .z .done,
   .testImm 0x3#32 .edi,
   .jcc .z .aligned,
   .movbLoad .esi,
   .movbStore .edi,
   .addImm 1#32 .edi,
   .addImm 1#32 .esi,
   .subImm 1#32 .ecx,
   .jmp .top,
   .label .aligned,
   .movwDsDx,
   .movwDxEs,
   .movReg .ecx .edx,
   .shrImm 2 .ecx,
   .andImm 0x3#32 .edx,
   .cld,
   .repMovsl,
   .label .bottom,
   .testReg .edx .edx,
   .jcc .z .done,
   .movbLoad .esi,
   .movbStore .edi,
   .addImm 1#32 .edi,
   .addImm 1#32 .esi,
   .subImm 1#32 .edx,
   .jmp .bottom,
   .label .done]

/-- Nothing is called, and where the code lies does not matter. -/
def program : X86.Program Label Empty where
  code      := code
  address   := fun _ => 0#32
  functions := fun f => f.elim

/-- The constraints of the assembly: `src` in `esi`, `dest` in `edi` and `n` in `ecx`. -/
def enter (dest src n : Word) (c : Cpu) : Cpu :=
  ((c.set .esi src).set .edi dest).set .ecx n

def run (fuel : ℕ) (dest src n : Word) (c : Cpu) : Option (X86.Machine Empty) :=
  program.run fuel ⟨0, enter dest src n c, []⟩

/-! ### Blocks -/

/-- A label with the test of a counter. -/
def testCount (l : Label) (count : Reg) : List Asm := [.label l, .testReg count count]

/-- The test of the alignment of the destination. -/
def testAlign : List Asm := [.testImm 0x3#32 .edi]

/-- The five instructions that copy a byte, with their counter. -/
def copyByte (count : Reg) : List Asm :=
  [.movbLoad .esi, .movbStore .edi, .addImm 1#32 .edi, .addImm 1#32 .esi, .subImm 1#32 count]

variable {c : Cpu} {count : Reg} {l : Label}

lemma copyByte_spec (hcount : count = .ecx ∨ count = .edx) :
    (execs (copyByte count) c).mem = copied (c.reg .edi) (c.reg .esi) 1 c.mem ∧
      (execs (copyByte count) c).reg .edi = c.reg .edi + 1#32 ∧
      (execs (copyByte count) c).reg .esi = c.reg .esi + 1#32 ∧
      (execs (copyByte count) c).reg count = c.reg count - 1#32 := by
  have hbyte : ((c.reg .eax).extractLsb' 8 24 ++ c.mem (c.reg .esi)).extractLsb' 0 8 =
      c.mem (c.reg .esi) := BitVec.extractLsb'_append_eq_right
  rw [copied_one]
  rcases hcount with rfl | rfl <;> simp [execs, copyByte, Instr.exec, hbyte]

/-- A test of a counter for zero. -/
lemma holds_z_test : Cond.z.holds (execs (testCount l count) c).eflags = true ↔
    (c.reg count).toNat = 0 := by
  have hzero : (c.reg count).toNat = 0 ↔ c.reg count = 0#32 := BitVec.toNat_inj (y := 0#32)
  rw [hzero]
  simp [execs, testCount, Instr.exec, holds_z_resultFlags]

/-! ### The three phases -/

/-- What a phase has to do when `n` bytes are left. -/
def Copies (n pc : ℕ) (c : Cpu) : Prop :=
  program.WP (fun t => t.cpu.mem = copied (c.reg .edi) (c.reg .esi) n c.mem) ⟨pc, c, []⟩

/-- Only registers and memory count. -/
lemma Copies.of_eq {n pc : ℕ} {c' : Cpu} (hreg : c'.reg = c.reg) (hmem : c'.mem = c.mem)
    (h : Copies n pc c') :
    program.WP (fun t => t.cpu.mem = copied (c.reg .edi) (c.reg .esi) n c.mem) ⟨pc, c', []⟩ := by
  rw [Copies, hreg, hmem] at h
  exact h

/-- One byte, and then the others. -/
lemma Copies.after_copyByte {n pc : ℕ} (hcount : count = .ecx ∨ count = .edx)
    (hapart : Apart (c.reg .edi) (c.reg .esi) (1 + n))
    (h : Apart ((execs (copyByte count) c).reg .edi) ((execs (copyByte count) c).reg .esi) n →
      Copies n pc (execs (copyByte count) c)) :
    program.WP (fun t => t.cpu.mem = copied (c.reg .edi) (c.reg .esi) (1 + n) c.mem)
      ⟨pc, execs (copyByte count) c, []⟩ := by
  obtain ⟨hmem, hedi, hesi, -⟩ := copyByte_spec (c := c) hcount
  rw [Copies, hmem, hedi, hesi] at h
  have hcopies := h hapart.tail
  rwa [copied_copied hapart] at hcopies

/-- From `.memcpy_bottom` on, `edx` bytes are copied. -/
lemma bottom_spec (n : ℕ) (hn : (c.reg .edx).toNat = n)
    (hapart : Apart (c.reg .edi) (c.reg .esi) n) : Copies n 19 c := by
  induction n generalizing c with
  | zero =>
    refine .block (testCount .bottom .edx) ⟨_, rfl⟩ rfl ?_
    refine .jcc rfl (fun _ => ?_) fun hz => ?_
    · refine .block [.label .done] ⟨_, rfl⟩ rfl (.fallOff rfl ?_)
      exact copied_zero.symm
    · exact absurd (holds_z_test.mpr hn) (ne_true_of_eq_false hz)
  | succ n ih =>
    rw [Nat.add_comm] at hapart ⊢
    refine .block (testCount .bottom .edx) ⟨_, rfl⟩ rfl ?_
    refine .jcc rfl (fun hz => ?_) fun _ => ?_
    · have := holds_z_test.mp hz
      omega
    · refine Copies.of_eq rfl rfl (.block (copyByte .edx) ⟨_, rfl⟩ rfl (.jmp rfl ?_))
      have hn' : ((execs (testCount .bottom .edx) c).reg .edx).toNat = n + 1 := hn
      refine Copies.after_copyByte (.inr rfl) hapart fun hrest => ih ?_ hrest
      rw [(copyByte_spec (.inr rfl)).2.2.2]
      bv_omega

/-- What stands before the words are copied. -/
def wordsBlock : List Asm :=
  [.label .aligned, .movwDsDx, .movwDxEs, .movReg .ecx .edx, .shrImm 2 .ecx, .andImm 0x3#32 .edx,
    .cld]

/-- From `.memcpy_aligned` on, `ecx` bytes are copied. -/
lemma aligned_spec (n : ℕ) (hn : (c.reg .ecx).toNat = n)
    (hapart : Apart (c.reg .edi) (c.reg .esi) n) : Copies n 11 c := by
  have hsplit : 4 * (n / 4) + n % 4 = n := Nat.div_add_mod n 4
  have hecx : ((execs wordsBlock c).reg .ecx).toNat = n / 4 := by
    simp [execs, wordsBlock, Instr.exec, hn, Nat.shiftRight_eq_div_pow]
  have hedx : ((execs wordsBlock c).reg .edx).toNat = n % 4 := by
    have hand : (execs wordsBlock c).reg .edx = c.reg .ecx &&& 0x3#32 := by
      simp [execs, wordsBlock, Instr.exec]
    rw [hand, BitVec.toNat_and, hn]
    exact Nat.and_two_pow_sub_one_eq_mod n 2
  have hdf : (execs wordsBlock c).eflags.getLsbD df = false := by
    rw [show (execs wordsBlock c).eflags = setFlag df false _ from rfl,
      getLsbD_setFlag (by decide), if_pos rfl]
  have hedi : (execs wordsBlock c).reg .edi = c.reg .edi := by
    simp [execs, wordsBlock, Instr.exec]
  have hesi : (execs wordsBlock c).reg .esi = c.reg .esi := by
    simp [execs, wordsBlock, Instr.exec]
  have hmem : (execs wordsBlock c).mem = c.mem := rfl
  refine .block wordsBlock ⟨_, rfl⟩ rfl (.straight rfl rfl ?_)
  generalize execs wordsBlock c = c₁ at *
  rw [← hsplit, ← hedi, ← hesi] at hapart
  obtain ⟨hmem', hedi', hesi', hreg'⟩ := Cpu.iterate_movsl (n / 4) hdf hapart.head
  rw [Instr.exec, hecx]
  have hbottom := bottom_spec (c := Cpu.movsl^[n / 4] c₁) (n % 4)
    (by rw [hreg' .edx (by decide) (by decide) (by decide), hedx])
    (by rw [hedi', hesi']; exact hapart.tail)
  rwa [Copies, hmem', hedi', hesi', copied_copied hapart, hsplit, hedi, hesi, hmem] at hbottom

/-- From `.memcpy_top` on, `ecx` bytes are copied. -/
lemma top_spec (n : ℕ) (hn : (c.reg .ecx).toNat = n)
    (hapart : Apart (c.reg .edi) (c.reg .esi) n) : Copies n 0 c := by
  induction n generalizing c with
  | zero =>
    refine .block (testCount .top .ecx) ⟨_, rfl⟩ rfl ?_
    refine .jcc rfl (fun _ => ?_) fun hz => ?_
    · refine .block [.label .done] ⟨_, rfl⟩ rfl (.fallOff rfl ?_)
      exact copied_zero.symm
    · exact absurd (holds_z_test.mpr hn) (ne_true_of_eq_false hz)
  | succ n ih =>
    refine .block (testCount .top .ecx) ⟨_, rfl⟩ rfl ?_
    refine .jcc rfl (fun hz => ?_) fun _ => ?_
    · have := holds_z_test.mp hz
      omega
    refine Copies.of_eq rfl rfl (.block testAlign ⟨_, rfl⟩ rfl ?_)
    have hn' : ((execs testAlign
        (execs (testCount .top .ecx) c)).reg .ecx).toNat = n + 1 := hn
    refine .jcc rfl (fun _ => ?_) fun _ => ?_
    · refine Copies.of_eq rfl rfl ?_
      exact aligned_spec (n + 1) hn' hapart
    · rw [Nat.add_comm] at hapart ⊢
      refine Copies.of_eq rfl rfl (.block (copyByte .ecx) ⟨_, rfl⟩ rfl (.jmp rfl ?_))
      refine Copies.after_copyByte (.inl rfl) hapart fun hrest => ih ?_ hrest
      rw [(copyByte_spec (.inl rfl)).2.2.2]
      bv_omega

end Memcpy

/-! ### The copy -/

/-- The block copies of the file system and those of the terminals are the same ones. -/
theorem storeAll_stores_eq_memcpy (c : Copy 32) (mem : Word → Byte) :
    storeAll mem (c.stores mem) = memcpy c.dst c.src c.len.toNat mem := storeAll_stores c

theorem memcpy_ends {dest src n : Word} (c : Cpu) (hapart : Apart dest src n.toNat) :
    ∃ t, Ends (fun fuel => Memcpy.run fuel dest src n c) t ∧
      t.cpu.mem = memcpy dest src n.toNat c.mem := by
  have htop : Memcpy.Copies n.toNat 0 (Memcpy.enter dest src n c) :=
    Memcpy.top_spec n.toNat (by simp [Memcpy.enter]) (by simpa [Memcpy.enter] using hapart)
  obtain ⟨t, ht, hmem⟩ := htop.ends
  refine ⟨t, ht, hmem.trans ?_⟩
  simp only [Memcpy.enter, Cpu.reg_set, Cpu.mem_set, reduceCtorEq, ↓reduceIte]
  rfl

/-- For ranges that neither wrap around nor overlap, whatever their alignment and whatever the
registers and the flags, the direction flag among them. -/
theorem memcpy_agrees (dest src n : Word) (c : Cpu) (hapart : Apart dest src n.toNat) :
    ∃ t, Ends (fun fuel => Memcpy.run fuel dest src n c) t ∧
      (∀ i < n.toNat, t.cpu.mem (dest + BitVec.ofNat 32 i) = c.mem (src + BitVec.ofNat 32 i)) ∧
      ∀ a, (∀ i < n.toNat, a ≠ dest + BitVec.ofNat 32 i) → t.cpu.mem a = c.mem a := by
  obtain ⟨t, ht, hmem⟩ := memcpy_ends c hapart
  refine ⟨t, ht, fun i hi => ?_, fun a ha => ?_⟩
  · rw [hmem]
    exact copied_add_ofNat n.isLt hi
  · rw [hmem]
    exact copied_of_forall_ne ha

theorem memcpy_agrees_small : ∃ t,
    Ends (fun fuel => Memcpy.run fuel 0x1003#32 0x2001#32 9#32
      ⟨fun _ => 0#32, 0#16, 0#16, 0x400#32, fun a => a.setWidth 8⟩) t ∧
      (∀ i < 9, t.cpu.mem (0x1003#32 + BitVec.ofNat 32 i) =
        (0x2001#32 + BitVec.ofNat 32 i).setWidth 8) ∧
      ∀ a, (∀ i < 9, a ≠ 0x1003#32 + BitVec.ofNat 32 i) → t.cpu.mem a = a.setWidth 8 :=
  memcpy_agrees 0x1003#32 0x2001#32 9#32 _ ⟨by decide, by decide, by decide⟩

end Osgods
