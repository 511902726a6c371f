import Mathlib.Tactic.IntervalCases
import Osgods.Library.StringOps
import Osgods.Types

/-!
# `memset` and `memmove`

The assembly of `memset`, `memset_word`, `memset_dword` and `memmove` (`lib.c`) against the plain
fill and the plain copy. `memset` fills bytes up to a multiple of four, words, and the bytes that
are left; `memmove` copies downwards when the source lies below the destination.
-/

namespace Osgods

open X86 X86.Op Asm ByteCopy Loop

namespace Memset

inductive Label where
  | top | aligned | bottom | done
  deriving DecidableEq, Repr

/-- An instruction of `X86` that neither jumps nor calls. -/
def ins (i : Instr Empty Empty) : Line Label Op Test := .op (.instr i)

def code : List (Line Label Op Test) :=
  [.label .top,
   ins (.testReg .ecx .ecx),
   .jcc (.cond .z) .done,
   ins (.testImm 0x3#32 .edi),
   .jcc (.cond .z) .aligned,
   ins (.movbStore .edi),
   ins (.addImm 1#32 .edi),
   ins (.subImm 1#32 .ecx),
   .jmp .top,
   .label .aligned,
   ins .movwDsDx,
   ins .movwDxEs,
   ins (.movReg .ecx .edx),
   ins (.shrImm 2 .ecx),
   ins (.andImm 0x3#32 .edx),
   ins .cld,
   .op .repStosl,
   .label .bottom,
   ins (.testReg .edx .edx),
   .jcc (.cond .z) .done,
   ins (.movbStore .edi),
   ins (.addImm 1#32 .edi),
   ins (.subImm 1#32 .edx),
   .jmp .bottom,
   .label .done]

/-- The four copies of the byte in `eax`. -/
def pattern (c : Word) : Word :=
  let c := c &&& 0xFF#32
  c <<< 24 ||| c <<< 16 ||| c <<< 8 ||| c

/-- The constraints of the assembly. -/
def enter (eax s n : Word) (c : Cpu) : Cpu := ((c.set .eax eax).set .edi s).set .ecx n

def run (fuel : ℕ) (s c n : Word) (cpu : Cpu) : Option (Point Cpu) :=
  (text code).run fuel ⟨0, enter (pattern c) s n cpu⟩

/-! ### Blocks -/

/-- The three instructions that store a byte, with their counter. -/
def storeByte (count : Reg) : List Op :=
  [.instr (.movbStore .edi), .instr (.addImm 1#32 .edi), .instr (.subImm 1#32 count)]

variable {c : Cpu} {count : Reg} {b : Byte}

/-- Every byte of `eax` is `b`. -/
def Holds (b : Byte) (c : Cpu) : Prop := ∀ k, bytes 4 (c.reg .eax) k = b

/-- What a phase has to do when `n` bytes are left. -/
def Fills (b : Byte) (n pc : ℕ) (c : Cpu) : Prop :=
  (text code).WP (fun t => t.mem = filled (c.reg .edi) n (fun _ => b) c.mem) ⟨pc, c⟩

lemma filled_one (d : Word) (m : Memory) :
    filled d 1 (fun _ => b) m = Function.update m d b := by
  funext x
  have hiff : (x - d).toNat < 1 ↔ x = d := by bv_omega
  simp only [filled, hiff, Function.update_apply]

lemma holds_pattern (v s n : Word) : Holds (v.setWidth 8) (enter (pattern v) s n c) := by
  intro k
  have hk : k % 4 < 4 := Nat.mod_lt k (by decide)
  have heax : (enter (pattern v) s n c).reg .eax = pattern v := by simp [enter]
  rw [heax, bytes]
  apply BitVec.eq_of_getLsbD_eq
  intro i hi
  interval_cases k % 4 <;> interval_cases i <;> simp [pattern]

/-- Only the registers and the memory count. -/
lemma Holds.of_eax {c' : Cpu} (h : Holds b c) (heax : c'.reg .eax = c.reg .eax) : Holds b c' := by
  intro k
  rw [heax, h k]

lemma storeByte_spec (hb : Holds b c) (hcount : count = .ecx ∨ count = .edx) :
    (execs (storeByte count) c).mem = filled (c.reg .edi) 1 (fun _ => b) c.mem ∧
      (execs (storeByte count) c).reg .edi = c.reg .edi + 1#32 ∧
      (execs (storeByte count) c).reg count = c.reg count - 1#32 ∧
      Holds b (execs (storeByte count) c) := by
  have hbyte : (c.reg .eax).extractLsb' 0 8 = b := hb 0
  rw [filled_one]
  refine ⟨?_, ?_, ?_, hb.of_eax ?_⟩ <;> rcases hcount with rfl | rfl <;>
    simp [execs, storeByte, Op.exec, Instr.exec, hbyte]

/-- A test of a counter for zero. -/
def testCount (count : Reg) : List Op := [.instr (.testReg count count)]

lemma holds_z_test : (text code).holds (.cond .z) (execs (testCount count) c) = true ↔
    (c.reg count).toNat = 0 := by
  have hzero : (c.reg count).toNat = 0 ↔ c.reg count = 0#32 := BitVec.toNat_inj (y := 0#32)
  rw [hzero]
  simp [text, Test.holds, execs, testCount, Op.exec, Instr.exec, holds_z_resultFlags]

/-! ### The three phases -/

/-- Only registers and memory count. -/
lemma Fills.of_eq {n pc : ℕ} {c' : Cpu} (hreg : c'.reg = c.reg) (hmem : c'.mem = c.mem)
    (h : Fills b n pc c') :
    (text code).WP (fun t => t.mem = filled (c.reg .edi) n (fun _ => b) c.mem) ⟨pc, c'⟩ := by
  rw [Fills, hreg, hmem] at h
  exact h

/-- One byte, and then the others. -/
lemma Fills.after_storeByte {n pc : ℕ} (hcount : count = .ecx ∨ count = .edx) (hb : Holds b c)
    (hn : 1 + n ≤ 2 ^ 32) (h : Fills b n pc (execs (storeByte count) c)) :
    (text code).WP (fun t => t.mem = filled (c.reg .edi) (1 + n) (fun _ => b) c.mem)
      ⟨pc, execs (storeByte count) c⟩ := by
  obtain ⟨hmem, hedi, -, -⟩ := storeByte_spec hb hcount
  rw [Fills, hmem, hedi] at h
  rw [← filled_filled hn]
  exact h

/-- From `.memset_bottom` on, `edx` bytes are stored. -/
lemma bottom_spec (n : ℕ) (hn : (c.reg .edx).toNat = n) (hb : Holds b c) : Fills b n 17 c := by
  induction n generalizing c with
  | zero =>
    refine .label rfl (text_block (testCount .edx) ⟨_, rfl⟩ (.jcc rfl (fun _ => ?_) fun hz => ?_))
    · exact .label rfl (.fallOff le_rfl filled_zero.symm)
    · exact absurd (holds_z_test.mpr hn) (ne_true_of_eq_false hz)
  | succ n ih =>
    have hlt := (c.reg .edx).isLt
    refine .label rfl (text_block (testCount .edx) ⟨_, rfl⟩ (.jcc rfl (fun hz => ?_) fun _ => ?_))
    · have := holds_z_test.mp hz
      omega
    · rw [Nat.add_comm n]
      refine Fills.of_eq rfl rfl (text_block (storeByte .edx) ⟨_, rfl⟩ (.jmp rfl ?_))
      have hb' : Holds b (execs (testCount .edx) c) := hb.of_eax rfl
      have hn' : ((execs (testCount .edx) c).reg .edx).toNat = n + 1 := hn
      obtain ⟨-, -, hedx, hrest⟩ := storeByte_spec hb' (.inr rfl)
      refine Fills.after_storeByte (.inr rfl) hb' (by omega) (ih ?_ hrest)
      rw [hedx]
      bv_omega

/-- The test of the alignment. -/
def testAlign : List Op := [.instr (.testImm 0x3#32 .edi)]

/-- What stands before the words are stored. -/
def wordsBlock : List Op :=
  [.instr .movwDsDx, .instr .movwDxEs, .instr (.movReg .ecx .edx), .instr (.shrImm 2 .ecx),
    .instr (.andImm 0x3#32 .edx), .instr .cld]

/-- From `.memset_aligned` on, `ecx` bytes are stored. -/
lemma aligned_spec (n : ℕ) (hn : (c.reg .ecx).toNat = n) (hb : Holds b c) : Fills b n 9 c := by
  have hlt := (c.reg .ecx).isLt
  have hsplit : 4 * (n / 4) + n % 4 = n := Nat.div_add_mod n 4
  have hecx : ((execs wordsBlock c).reg .ecx).toNat = n / 4 := by
    simp [execs, wordsBlock, Op.exec, Instr.exec, hn, Nat.shiftRight_eq_div_pow]
  have hedx : ((execs wordsBlock c).reg .edx).toNat = n % 4 := by
    have hand : (execs wordsBlock c).reg .edx = c.reg .ecx &&& 0x3#32 := by
      simp [execs, wordsBlock, Op.exec, Instr.exec]
    rw [hand, BitVec.toNat_and, hn]
    exact Nat.and_two_pow_sub_one_eq_mod n 2
  have hdf : (execs wordsBlock c).eflags.getLsbD df = false := by
    rw [show (execs wordsBlock c).eflags = setFlag df false _ from rfl,
      getLsbD_setFlag (by decide), if_pos rfl]
  have hedi : (execs wordsBlock c).reg .edi = c.reg .edi := by
    simp [execs, wordsBlock, Op.exec, Instr.exec]
  have heax : (execs wordsBlock c).reg .eax = c.reg .eax := by
    simp [execs, wordsBlock, Op.exec, Instr.exec]
  have hmem : (execs wordsBlock c).mem = c.mem := rfl
  refine .label rfl (text_block wordsBlock ⟨_, rfl⟩ (.op rfl ?_))
  change (text code).WP _ ⟨_, Op.exec .repStosl (execs wordsBlock c)⟩
  have hb₁ := hb.of_eax heax
  generalize execs wordsBlock c = c₁ at *
  rw [Op.exec, hecx]
  obtain ⟨hmem', hedi', -, hreg'⟩ := Cpu.iterate_stos 4 (n / 4) hdf (by omega)
  have hbottom := bottom_spec (c := (Cpu.stos 4)^[n / 4] c₁) (n % 4)
    (by rw [hreg' .edx (by decide) (by decide), hedx])
    (hb₁.of_eax (hreg' .eax (by decide) (by decide)))
  have hbytes : bytes 4 (c₁.reg .eax) = fun _ => b := funext hb₁
  rw [Fills, hmem', hedi', hbytes, filled_filled (f := fun _ => b) (by omega), hsplit, hedi, hmem]
    at hbottom
  exact hbottom

/-- From `.memset_top` on, `ecx` bytes are stored. -/
lemma top_spec (n : ℕ) (hn : (c.reg .ecx).toNat = n) (hb : Holds b c) : Fills b n 0 c := by
  induction n generalizing c with
  | zero =>
    refine .label rfl (text_block (testCount .ecx) ⟨_, rfl⟩
      (.jcc rfl (fun _ => ?_) fun hz => ?_))
    · exact .label rfl (.fallOff le_rfl filled_zero.symm)
    · exact absurd (holds_z_test.mpr hn) (ne_true_of_eq_false hz)
  | succ n ih =>
    have hlt := (c.reg .ecx).isLt
    refine .label rfl (text_block (testCount .ecx) ⟨_, rfl⟩
      (.jcc rfl (fun hz => ?_) fun _ => ?_))
    · have := holds_z_test.mp hz
      omega
    refine Fills.of_eq rfl rfl (text_block testAlign ⟨_, rfl⟩ ?_)
    have hb' : Holds b (execs testAlign (execs (testCount .ecx) c)) := hb.of_eax rfl
    have hn' : ((execs testAlign (execs (testCount .ecx) c)).reg .ecx).toNat = n + 1 := hn
    refine .jcc rfl (fun _ => ?_) fun _ => ?_
    · exact Fills.of_eq rfl rfl (aligned_spec (n + 1) hn' hb')
    · rw [Nat.add_comm n]
      refine Fills.of_eq rfl rfl (text_block (storeByte .ecx) ⟨_, rfl⟩ (.jmp rfl ?_))
      obtain ⟨-, -, hecx, hrest⟩ := storeByte_spec hb' (.inl rfl)
      refine Fills.after_storeByte (.inl rfl) hb' (by omega) (ih ?_ hrest)
      rw [hecx]
      bv_omega

end Memset

/-- For every address, alignment, byte and length, and whatever the registers and the flags: the
`n` bytes from `s` on hold the low byte of `c`, around the end of the address space too, and no
other byte changes. -/
theorem memset_agrees (s c n : Word) (cpu : Cpu) :
    ∃ t, Ends (fun fuel => Memset.run fuel s c n cpu) t ∧
      ∀ a, t.state.mem a = if (a - s).toNat < n.toNat then c.setWidth 8 else cpu.mem a := by
  have htop : Memset.Fills (c.setWidth 8) n.toNat 0 (Memset.enter (Memset.pattern c) s n cpu) :=
    Memset.top_spec n.toNat (by simp [Memset.enter]) (Memset.holds_pattern c s n)
  obtain ⟨t, ht, hmem⟩ := htop.ends
  refine ⟨t, ht, fun a => ?_⟩
  rw [hmem]
  simp [filled, Memset.enter]

/-! ### `memmove` -/

namespace Memmove

inductive Label where
  | go
  deriving DecidableEq, Repr

def code : List (Line Label Op Test) :=
  [.op (.instr .movwDsDx),
   .op (.instr .movwDxEs),
   .op (.instr .cld),
   .op (.cmpReg .edi .esi),
   .jcc .ae .go,
   .op (.lea (-1#32) .esi .ecx .esi),
   .op (.lea (-1#32) .edi .ecx .edi),
   .op .std,
   .label .go,
   .op .repMovsb]

/-- The constraints of the assembly. -/
def enter (dest src n : Word) (c : Cpu) : Cpu := ((c.set .edi dest).set .esi src).set .ecx n

def run (fuel : ℕ) (dest src n : Word) (cpu : Cpu) : Option (Point Cpu) :=
  (text code).run fuel ⟨0, enter dest src n cpu⟩

def compareBlock : List Op :=
  [.instr .movwDsDx, .instr .movwDxEs, .instr .cld, .cmpReg .edi .esi]

def downBlock : List Op := [.lea (-1#32) .esi .ecx .esi, .lea (-1#32) .edi .ecx .edi, .std]

/-- What the move has to leave. -/
def Moved (dest src : Word) (n : ℕ) (mem : Memory) (t : Cpu) : Prop :=
  t.mem = copied dest src n mem ∧ (t.eflags.getLsbD df = true ↔ src < dest)

variable {dest src n : Word} {cpu c : Cpu}

/-- After the comparison. -/
structure Compared (dest src n : Word) (cpu c : Cpu) : Prop where
  edi : c.reg .edi = dest
  esi : c.reg .esi = src
  ecx : c.reg .ecx = n
  mem : c.mem = cpu.mem
  df  : c.eflags.getLsbD df = false
  cf  : c.eflags.getLsbD cf = decide (src < dest)

lemma compared : Compared dest src n cpu (execs compareBlock (enter dest src n cpu)) := by
  have hreg : ∀ r, r ≠ .edx → (execs compareBlock (enter dest src n cpu)).reg r =
      (enter dest src n cpu).reg r := by
    intro r hr
    simp [execs, compareBlock, Op.exec, Instr.exec, hr]
  have hflags : (execs compareBlock (enter dest src n cpu)).eflags =
      subFlags src dest (setFlag df false cpu.eflags) := by
    simp [execs, compareBlock, Op.exec, Instr.exec, enter, Cpu.setFlags, Cpu.set]
  refine ⟨?_, ?_, ?_, rfl, ?_, ?_⟩
  · rw [hreg .edi (by decide)]
    simp [enter]
  · rw [hreg .esi (by decide)]
    simp [enter]
  · rw [hreg .ecx (by decide)]
    simp [enter]
  · rw [hflags, subFlags, getLsbD_resultFlags (by decide), getLsbD_setFlag (by decide)]
    rfl
  · rw [hflags, subFlags, getLsbD_resultFlags (by decide), if_pos rfl]

/-- Before the move downwards. -/
lemma down_spec (hc : Compared dest src n cpu c) :
    (execs downBlock c).reg .edi = dest + BitVec.ofNat 32 n.toNat - 1#32 ∧
      (execs downBlock c).reg .esi = src + BitVec.ofNat 32 n.toNat - 1#32 ∧
      (execs downBlock c).reg .ecx = n ∧ (execs downBlock c).mem = cpu.mem ∧
      (execs downBlock c).eflags.getLsbD df = true := by
  refine ⟨?_, ?_, ?_, ?_, ?_⟩
  · simp only [execs, downBlock, List.foldl_cons, List.foldl_nil, Op.exec, Cpu.reg_set,
      Cpu.reg_setFlags, reduceCtorEq, if_false, if_true, hc.edi, hc.ecx, BitVec.ofNat_toNat,
      BitVec.setWidth_eq, BitVec.sub_eq_add_neg]
  · simp only [execs, downBlock, List.foldl_cons, List.foldl_nil, Op.exec, Cpu.reg_set,
      Cpu.reg_setFlags, reduceCtorEq, if_false, if_true, hc.esi, hc.ecx, BitVec.ofNat_toNat,
      BitVec.setWidth_eq, BitVec.sub_eq_add_neg]
  · simp [execs, downBlock, Op.exec, hc.ecx]
  · simp [execs, downBlock, Op.exec, hc.mem]
  · rw [show (execs downBlock c).eflags = setFlag df true _ from rfl,
      getLsbD_setFlag (by decide), if_pos rfl]

/-- A range that does not wrap around ends before the distance to a lower one wraps around. -/
lemma distance_add_le {a b : Word} {k : ℕ} (hba : b ≤ a) (ha : a.toNat + k ≤ 2 ^ 32) :
    (a - b).toNat + k ≤ 2 ^ 32 := by
  have hle : b.toNat ≤ a.toNat := hba
  rw [BitVec.toNat_sub_of_le hba]
  omega

theorem spec (cpu : Cpu) (hdest : dest.toNat + n.toNat ≤ 2 ^ 32)
    (hsrc : src.toNat + n.toNat ≤ 2 ^ 32) :
    (text code).WP (Moved dest src n.toNat cpu.mem) ⟨0, enter dest src n cpu⟩ := by
  refine text_block compareBlock ⟨_, rfl⟩ ?_
  have hc : Compared dest src n cpu (execs compareBlock (enter dest src n cpu)) := compared
  generalize execs compareBlock (enter dest src n cpu) = c at hc
  have ⟨hedi, hesi, hecx, hmem, hdf, hcf⟩ := hc
  have htest : (text code).holds .ae c = !decide (src < dest) := by
    change (!c.eflags.getLsbD cf) = _
    rw [hcf]
  refine .jcc rfl (fun hae => ?_) fun hbelow => ?_
  · have hle : ¬ src < dest := by simpa [htest] using hae
    refine .label rfl (.op rfl (.fallOff le_rfl ?_))
    obtain ⟨hup, hflags⟩ := Cpu.iterate_movsb_up (c := c) n.toNat hdf (by
      rw [hedi, hesi]
      exact distance_add_le (BitVec.not_lt.mp hle) hsrc)
    change Moved dest src n.toNat cpu.mem (Cpu.movsb^[(c.reg .ecx).toNat] c)
    rw [hecx]
    rw [hedi, hesi, hmem] at hup
    refine ⟨hup, ?_⟩
    rw [hflags, hdf]
    simp [hle]
  · have hlt : src < dest := by simpa [htest] using hbelow
    refine text_block downBlock ⟨_, rfl⟩ (.label rfl (.op rfl (.fallOff le_rfl ?_)))
    change Moved dest src n.toNat cpu.mem (Op.exec .repMovsb (execs downBlock c))
    obtain ⟨hedi₁, hesi₁, hecx₁, hmem₁, hdf₁⟩ := down_spec hc
    clear hc
    generalize execs downBlock c = c₁ at *
    obtain ⟨hmoved, hflags⟩ := Cpu.iterate_movsb_down n.toNat hdf₁ hedi₁ hesi₁
      (distance_add_le (BitVec.le_of_lt hlt) hdest)
    rw [Op.exec, hecx₁]
    rw [hmem₁] at hmoved
    refine ⟨hmoved, ?_⟩
    rw [hflags, hdf₁]
    simp [hlt]

end Memmove

/-- For ranges that do not wrap around, whether or not they overlap, `memmove` is the plain copy of
what the source held before. It returns with the direction flag set if the source lies below the
destination, and clear otherwise. -/
theorem memmove_agrees (dest src n : Word) (cpu : Cpu) (hdest : dest.toNat + n.toNat ≤ 2 ^ 32)
    (hsrc : src.toNat + n.toNat ≤ 2 ^ 32) :
    ∃ t, Ends (fun fuel => Memmove.run fuel dest src n cpu) t ∧
      (∀ a, t.state.mem a =
        if (a - dest).toNat < n.toNat then cpu.mem (src + (a - dest)) else cpu.mem a) ∧
      (t.state.eflags.getLsbD df = true ↔ src < dest) := by
  obtain ⟨t, ht, hmem, hflag⟩ := (Memmove.spec cpu hdest hsrc).ends
  exact ⟨t, ht, fun a => by rw [hmem, copied], hflag⟩

/-- The last three bytes are read where the first ones have been written. -/
theorem memmove_agrees_overlap : ∃ t,
    Ends (fun fuel => Memmove.run fuel 0x1002#32 0x1000#32 5#32
      ⟨fun _ => 0#32, 0#16, 0#16, 0#32, fun a => a.setWidth 8⟩) t ∧
      (∀ a, t.state.mem a = if (a - 0x1002#32).toNat < 5 then
        (0x1000#32 + (a - 0x1002#32)).setWidth 8 else a.setWidth 8) ∧
      (t.state.eflags.getLsbD df = true ↔ 0x1000#32 < 0x1002#32) :=
  memmove_agrees 0x1002#32 0x1000#32 5#32 _ (by decide) (by decide)

end Osgods
