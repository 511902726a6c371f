import Osgods.Library.Loop
import Osgods.Library.BitField
import Osgods.Library.ByteCopy
import Mathlib.Data.List.Basic
import Mathlib.Logic.Function.Basic

/-!
# A subset of 32-bit x86

Code is a list of instructions and labels, kept apart from the memory. Every segment starts at
address 0, memory is a function of addresses, and words are little-endian. Of the flags an
instruction computes, PF and AF are left out, since no instruction here tests them. A function that
is called is a function on the state of the processor, from its entry to its return.

`Program.WP` is total correctness of a run to the end of the code, with one rule for each kind of
instruction; a block of instructions that neither jump nor call is one step of it.
-/

namespace X86

open Loop BitField ByteCopy

inductive Reg where
  | eax | ebx | ecx | edx | esi | edi | ebp | esp
  deriving DecidableEq, Repr

abbrev Memory := BitVec 32 → BitVec 8

def load (m : Memory) (a : BitVec 32) : BitVec 32 :=
  m (a + 3#32) ++ m (a + 2#32) ++ m (a + 1#32) ++ m a

def store (a v : BitVec 32) (m : Memory) : Memory := fun x =>
  if (x - a).toNat < 4 then v.extractLsb' (8 * (x - a).toNat) 8 else m x

structure Cpu where
  reg    : Reg → BitVec 32
  ds     : BitVec 16
  es     : BitVec 16
  eflags : BitVec 32
  mem    : Memory

/-! ### Flags -/

abbrev cf : ℕ := 0
abbrev zf : ℕ := 6
abbrev sf : ℕ := 7
abbrev df : ℕ := 10
abbrev of : ℕ := 11

def setFlag (i : ℕ) (b : Bool) (f : BitVec 32) : BitVec 32 :=
  BitField.set f i 1 (if b then 1#32 else 0#32)

/-- The flags of an arithmetic result. -/
def resultFlags (r : BitVec 32) (carry overflow : Bool) (f : BitVec 32) : BitVec 32 :=
  setFlag cf carry (setFlag zf (r == 0#32) (setFlag sf r.msb (setFlag of overflow f)))

/-- The flags of `a - b`. -/
def subFlags (a b f : BitVec 32) : BitVec 32 :=
  resultFlags (a - b) (decide (a < b)) (BitVec.ssubOverflow a b) f

inductive Cond where
  | z | l | g
  deriving DecidableEq, Repr

def Cond.holds (f : BitVec 32) : Cond → Bool
  | .z => f.getLsbD zf
  | .l => f.getLsbD sf != f.getLsbD of
  | .g => !f.getLsbD zf && f.getLsbD sf == f.getLsbD of

/-! ### Instructions -/

/-- In AT&T order, the source first. `call` is indirect through a table of functions, at the
displacement from the table and four times the index register. -/
inductive Instr (L F : Type) where
  | label (l : L)
  | pushf
  | popf
  | push (r : Reg)
  | pop (r : Reg)
  | movImm (v : BitVec 32) (r : Reg)
  | movReg (r r' : Reg)
  | addImm (v : BitVec 32) (r : Reg)
  | subImm (v : BitVec 32) (r : Reg)
  | andImm (v : BitVec 32) (r : Reg)
  | shrImm (n : ℕ) (r : Reg)
  | cmpImm (v : BitVec 32) (r : Reg)
  | testImm (v : BitVec 32) (r : Reg)
  | testReg (r r' : Reg)
  | movbLoad (r : Reg)
  | movbStore (r : Reg)
  | movwDsDx
  | movwDxEs
  | cld
  | repMovsl
  | jmp (l : L)
  | jcc (cond : Cond) (l : L)
  | call (table : List F) (disp : BitVec 32) (index : Reg)
  | iret

namespace Cpu

def set (r : Reg) (v : BitVec 32) (c : Cpu) : Cpu := { c with reg := Function.update c.reg r v }

def push (v : BitVec 32) (c : Cpu) : Cpu :=
  { c.set .esp (c.reg .esp - 4#32) with mem := store (c.reg .esp - 4#32) v c.mem }

/-- The word on top of the stack. -/
def top (c : Cpu) : BitVec 32 := load c.mem (c.reg .esp)

def drop (c : Cpu) : Cpu := c.set .esp (c.reg .esp + 4#32)

def setFlags (f : BitVec 32 → BitVec 32) (c : Cpu) : Cpu := { c with eflags := f c.eflags }

/-- `movsl`, one turn of the repetition. -/
def movsl (c : Cpu) : Cpu :=
  let delta := if c.eflags.getLsbD df then -4#32 else 4#32
  { c with
    reg := Function.update (Function.update (Function.update c.reg .edi (c.reg .edi + delta)) .esi
      (c.reg .esi + delta)) .ecx (c.reg .ecx - 1#32)
    mem := store (c.reg .edi) (load c.mem (c.reg .esi)) c.mem }

end Cpu

namespace Instr

variable {L F : Type}

/-- Instructions after which the next one is executed, and which call nothing. -/
def straight : Instr L F → Bool
  | jmp _      => false
  | jcc _ _    => false
  | call _ _ _ => false
  | iret       => false
  | _          => true

/-- What an instruction does to the processor, its jump or call apart. -/
def exec (c : Cpu) : Instr L F → Cpu
  | pushf       => c.push c.eflags
  | popf        => { c.drop with eflags := c.top }
  | push r      => c.push (c.reg r)
  | pop r       => c.drop.set r c.top
  | movImm v r  => c.set r v
  | movReg r r' => c.set r' (c.reg r)
  | addImm v r  => (c.set r (c.reg r + v)).setFlags (resultFlags (c.reg r + v)
      (BitVec.uaddOverflow (c.reg r) v) (BitVec.saddOverflow (c.reg r) v))
  | subImm v r  => (c.set r (c.reg r - v)).setFlags (subFlags (c.reg r) v)
  | andImm v r  => (c.set r (c.reg r &&& v)).setFlags (resultFlags (c.reg r &&& v) false false)
  | shrImm n r  => (c.set r (c.reg r >>> n)).setFlags (resultFlags (c.reg r >>> n)
      ((c.reg r).getLsbD (n - 1)) false)
  | cmpImm v r  => c.setFlags (subFlags (c.reg r) v)
  | testImm v r => c.setFlags (resultFlags (c.reg r &&& v) false false)
  | testReg r r' => c.setFlags (resultFlags (c.reg r &&& c.reg r') false false)
  | movbLoad r  => c.set .eax ((c.reg .eax).extractLsb' 8 24 ++ c.mem (c.reg r))
  | movbStore r =>
    { c with mem := Function.update c.mem (c.reg r) ((c.reg .eax).extractLsb' 0 8) }
  | movwDsDx    => c.set .edx ((c.reg .edx).extractLsb' 16 16 ++ c.ds)
  | movwDxEs    => { c with es := (c.reg .edx).extractLsb' 0 16 }
  | cld         => c.setFlags (setFlag df false)
  | repMovsl    => Cpu.movsl^[(c.reg .ecx).toNat] c
  | _           => c

/-- What a block of instructions does. -/
def execs : List (Instr L F) → Cpu → Cpu
  | [], c      => c
  | i :: is, c => execs is (i.exec c)

end Instr

/-! ### Runs -/

/-- A call that has returned: its three words of arguments, and its result. -/
structure Call (F : Type) where
  function : F
  args     : BitVec 32 × BitVec 32 × BitVec 32
  result   : BitVec 32

structure Machine (F : Type) where
  pc    : ℕ
  cpu   : Cpu
  calls : List (Call F)

/-- Code, the addresses of its instructions, and the functions that it calls. -/
structure Program (L F : Type) where
  code      : List (Instr L F)
  address   : ℕ → BitVec 32
  functions : F → Cpu → Cpu

namespace Program

variable {L F : Type} [DecidableEq L] (p : Program L F)

def labelIndex (l : L) : ℕ := p.code.findIdx fun i => match i with
  | .label l' => decide (l' = l)
  | _         => false

/-- The entry of a table of words at a displacement. -/
def entry (table : List F) (offset : BitVec 32) : Option F :=
  if offset.toNat % 4 = 0 then table[offset.toNat / 4]? else none

/-- The arguments of a function at its entry. -/
def args (c : Cpu) : BitVec 32 × BitVec 32 × BitVec 32 :=
  (load c.mem (c.reg .esp + 4#32), load c.mem (c.reg .esp + 8#32), load c.mem (c.reg .esp + 12#32))

/-- One instruction. -/
def step (s : Machine F) : Option (Machine F) :=
  match p.code[s.pc]? with
  | none                        => none
  | some .iret                  => none
  | some (.jmp l)               => some { s with pc := p.labelIndex l }
  | some (.jcc cond l)          =>
    some { s with pc := if cond.holds s.cpu.eflags then p.labelIndex l else s.pc + 1 }
  | some (.call table disp index) =>
    (entry table (disp + 4#32 * s.cpu.reg index)).map fun f =>
      let c := s.cpu.push (p.address (s.pc + 1))
      let c' := p.functions f c
      { pc    := s.pc + 1
        cpu   := c'
        calls := s.calls ++ [⟨f, args c, c'.reg .eax⟩] }
  | some i                      => some { s with pc := s.pc + 1, cpu := i.exec s.cpu }

/-- There is an instruction to execute, other than the `iret` that ends the code. -/
def running (s : Machine F) : Bool :=
  match p.code[s.pc]? with
  | none       => false
  | some .iret => false
  | some _     => true

/-- The code is executed until it comes to its end or to an `iret`. -/
def run (fuel : ℕ) (s : Machine F) : Option (Machine F) :=
  loop (fun s => p.running s = true) p.step fuel s

end Program

/-! ### Words in memory -/

section Memory

variable {m : Memory} {a b v : BitVec 32}

@[simp] lemma load_store_self : load (store a v m) a = v := by
  have hbyte : ∀ k : BitVec 32, k.toNat < 4 →
      store a v m (a + k) = v.extractLsb' (8 * k.toNat) 8 := by
    intro k hk
    rw [store, BitVec.add_comm, BitVec.add_sub_cancel, if_pos hk]
  have hzero : store a v m a = v.extractLsb' 0 8 := by
    have := hbyte 0#32 (by decide)
    rwa [BitVec.add_zero] at this
  rw [load, hzero, hbyte 1#32 (by decide), hbyte 2#32 (by decide), hbyte 3#32 (by decide)]
  apply BitVec.eq_of_getLsbD_eq
  intro i hi
  simp only [BitVec.getLsbD_append, BitVec.getLsbD_extractLsb']
  grind

/-- A store leaves a word alone that it does not overlap. -/
lemma load_store_of_le (h : 4 ≤ (b - a).toNat) (h' : (b - a).toNat ≤ 2 ^ 32 - 4) :
    load (store a v m) b = load m b := by
  have hbyte : ∀ k : BitVec 32, k.toNat < 4 → store a v m (b + k) = m (b + k) := by
    intro k hk
    exact if_neg (by bv_omega)
  have hzero : store a v m b = m b := by
    have := hbyte 0#32 (by decide)
    rwa [BitVec.add_zero] at this
  simp only [load]
  rw [hzero, hbyte 1#32 (by decide), hbyte 2#32 (by decide), hbyte 3#32 (by decide)]

/-- A word that is loaded and stored is a copy of four bytes. -/
lemma store_load : store a (load m b) m = copied a b 4 m := by
  funext x
  simp only [store, copied]
  split_ifs with h
  · have hx : x - a = BitVec.ofNat 32 (x - a).toNat := by
      rw [BitVec.ofNat_toNat, BitVec.setWidth_eq]
    generalize (x - a).toNat = i at h hx
    rw [hx]
    apply BitVec.eq_of_getLsbD_eq
    intro j hj
    simp only [load, BitVec.getLsbD_extractLsb', BitVec.getLsbD_append]
    rcases i with _ | _ | _ | _ | i
    all_goals grind
  · rfl

end Memory

/-! ### Flags of a comparison -/

section Flags

variable {a b r f : BitVec 32} {carry overflow : Bool} {i j : ℕ} {bit : Bool}

lemma getLsbD_setFlag (h : j < 32) :
    (setFlag i bit f).getLsbD j = if j = i then bit else f.getLsbD j := by
  rw [setFlag, getLsbD_set h]
  by_cases hj : j = i
  · subst hj
    rw [if_pos (by omega), if_pos rfl, Nat.sub_self]
    cases bit <;> rfl
  · rw [if_neg (by omega), if_neg hj]

lemma getLsbD_resultFlags (h : j < 32) : (resultFlags r carry overflow f).getLsbD j =
    if j = cf then carry else if j = zf then r == 0#32 else if j = sf then r.msb
      else if j = of then overflow else f.getLsbD j := by
  simp only [resultFlags, getLsbD_setFlag h]

lemma getLsbD_zf_resultFlags : (resultFlags r carry overflow f).getLsbD zf = (r == 0#32) :=
  getLsbD_resultFlags (by decide)

lemma getLsbD_sf_resultFlags : (resultFlags r carry overflow f).getLsbD sf = r.msb :=
  getLsbD_resultFlags (by decide)

lemma getLsbD_of_resultFlags : (resultFlags r carry overflow f).getLsbD of = overflow :=
  getLsbD_resultFlags (by decide)

/-- The sign of a difference, put right by its overflow, is that of the comparison. -/
lemma msb_sub_ne_ssubOverflow : ((a - b).msb != BitVec.ssubOverflow a b) = a.slt b := by
  have ha := BitVec.toInt_lt (x := a)
  have ha' := BitVec.le_toInt (x := a)
  have hb := BitVec.toInt_lt (x := b)
  have hb' := BitVec.le_toInt (x := b)
  simp only [BitVec.msb_eq_toInt, BitVec.ssubOverflow, BitVec.slt_eq_decide, BitVec.toInt_sub,
    Int.bmod]
  grind

lemma holds_z_resultFlags : Cond.z.holds (resultFlags r carry overflow f) = (r == 0#32) :=
  getLsbD_zf_resultFlags

lemma holds_l_subFlags : Cond.l.holds (subFlags a b f) = a.slt b := by
  rw [Cond.holds, subFlags, getLsbD_sf_resultFlags, getLsbD_of_resultFlags, msb_sub_ne_ssubOverflow]

lemma holds_g_subFlags : Cond.g.holds (subFlags a b f) = b.slt a := by
  have hzero : (a - b == 0#32) = decide (a.toInt = b.toInt) := by
    rw [beq_eq_decide]
    refine decide_eq_decide.mpr ?_
    rw [BitVec.sub_eq_iff_eq_add, BitVec.zero_add, BitVec.toInt_inj]
  have hsign : ((a - b).msb == BitVec.ssubOverflow a b) = !a.slt b := by
    rw [← msb_sub_ne_ssubOverflow, bne, Bool.not_not]
  simp only [Cond.holds, subFlags, getLsbD_zf_resultFlags, getLsbD_sf_resultFlags,
    getLsbD_of_resultFlags]
  rw [hzero, hsign, BitVec.slt_eq_decide, BitVec.slt_eq_decide]
  grind

end Flags

/-! ### Registers and the stack -/

namespace Cpu

variable {c : Cpu} {r r' : Reg} {v e : BitVec 32} {l : List (BitVec 32)}

@[simp] lemma reg_set : (c.set r v).reg r' = if r' = r then v else c.reg r' := by
  simp [set, Function.update_apply]

@[simp] lemma mem_set : (c.set r v).mem = c.mem := rfl

@[simp] lemma eflags_set : (c.set r v).eflags = c.eflags := rfl

@[simp] lemma reg_push :
    (c.push v).reg r = if r = .esp then c.reg .esp - 4#32 else c.reg r := reg_set

@[simp] lemma mem_push : (c.push v).mem = store (c.reg .esp - 4#32) v c.mem := rfl

@[simp] lemma eflags_push : (c.push v).eflags = c.eflags := rfl

@[simp] lemma reg_drop :
    c.drop.reg r = if r = .esp then c.reg .esp + 4#32 else c.reg r := reg_set

@[simp] lemma mem_drop : c.drop.mem = c.mem := rfl

@[simp] lemma eflags_drop : c.drop.eflags = c.eflags := rfl

@[simp] lemma reg_setFlags {f : BitVec 32 → BitVec 32} : (c.setFlags f).reg = c.reg := rfl

@[simp] lemma mem_setFlags {f : BitVec 32 → BitVec 32} : (c.setFlags f).mem = c.mem := rfl

@[simp] lemma eflags_setFlags {f : BitVec 32 → BitVec 32} :
    (c.setFlags f).eflags = f c.eflags := rfl

/-- A repetition of `movsl` with the direction flag clear is a copy of words upwards. -/
theorem iterate_movsl (k : ℕ) (hdf : c.eflags.getLsbD df = false)
    (hapart : Apart (c.reg .edi) (c.reg .esi) (4 * k)) :
    (movsl^[k] c).mem = copied (c.reg .edi) (c.reg .esi) (4 * k) c.mem ∧
      (movsl^[k] c).reg .edi = c.reg .edi + BitVec.ofNat 32 (4 * k) ∧
      (movsl^[k] c).reg .esi = c.reg .esi + BitVec.ofNat 32 (4 * k) ∧
      ∀ r, r ≠ .edi → r ≠ .esi → r ≠ .ecx → (movsl^[k] c).reg r = c.reg r := by
  induction k generalizing c with
  | zero => simp
  | succ k ih =>
    rw [Nat.mul_succ, Nat.add_comm (4 * k)] at hapart ⊢
    have hedi : c.movsl.reg .edi = c.reg .edi + BitVec.ofNat 32 4 := by simp [movsl, hdf]
    have hesi : c.movsl.reg .esi = c.reg .esi + BitVec.ofNat 32 4 := by simp [movsl, hdf]
    have hmem : c.movsl.mem = copied (c.reg .edi) (c.reg .esi) 4 c.mem := store_load
    obtain ⟨ihmem, ihedi, ihesi, ihreg⟩ := ih (c := c.movsl) hdf (by
      rw [hedi, hesi]
      exact hapart.tail)
    rw [Function.iterate_succ_apply, ihmem, ihedi, ihesi, hedi, hesi, hmem]
    refine ⟨copied_copied hapart, ?_, ?_, fun r hedi hesi hecx => ?_⟩
    · rw [BitVec.add_assoc, ← BitVec.ofNat_add]
    · rw [BitVec.add_assoc, ← BitVec.ofNat_add]
    · rw [ihreg r hedi hesi hecx]
      simp [movsl, hedi, hesi, hecx]

/-- The address of the word `k` of a stack that grows down from `e`; the first one is the word 1. -/
def slot (e : BitVec 32) (k : ℕ) : BitVec 32 := e - BitVec.ofNat 32 (4 * k)

@[simp] lemma slot_zero : slot e 0 = e := by simp [slot]

lemma slot_succ (k : ℕ) : slot e (k + 1) = slot e k - 4#32 := by
  rw [slot, slot, Nat.mul_succ, BitVec.ofNat_add]
  bv_omega

lemma slot_add (j k : ℕ) : slot e (j + k) + BitVec.ofNat 32 (4 * k) = slot e j := by
  rw [slot, slot, Nat.mul_add, BitVec.ofNat_add]
  bv_omega

/-- The words `l`, the top of the stack first, lie below `e`. -/
def Stacked (m : Memory) (e : BitVec 32) : List (BitVec 32) → Prop
  | []     => True
  | v :: l => load m (slot e (l.length + 1)) = v ∧ Stacked m e l

/-- The stack is `l`, the top first, above which the stack pointer was `e`. -/
structure OnStack (e : BitVec 32) (l : List (BitVec 32)) (c : Cpu) : Prop where
  esp     : c.reg .esp = slot e l.length
  stacked : Stacked c.mem e l

/-- Memory below a stack may change. -/
lemma Stacked.of_load_eq {m m' : Memory} (h : Stacked m e l)
    (hm : ∀ k < l.length, load m' (slot e (k + 1)) = load m (slot e (k + 1))) :
    Stacked m' e l := by
  induction l with
  | nil => trivial
  | cons v l ih =>
    have htop := hm l.length (Nat.lt_succ_self _)
    exact ⟨htop.trans h.1, ih h.2 fun k hk => hm k (Nat.lt_succ_of_lt hk)⟩

namespace OnStack

lemma nil : OnStack (c.reg .esp) [] c := ⟨slot_zero.symm, trivial⟩

lemma push (h : OnStack e l c) (hl : l.length < 2 ^ 30 - 1) : OnStack e (v :: l) (c.push v) := by
  have hesp : c.reg .esp - 4#32 = slot e (l.length + 1) := by rw [h.esp, slot_succ]
  refine ⟨by simp [hesp], ?_, ?_⟩
  · rw [mem_push, hesp, load_store_self]
  · refine h.stacked.of_load_eq fun k hk => ?_
    rw [mem_push, hesp]
    apply load_store_of_le <;> simp only [slot] <;> bv_omega

lemma push_esp (h : OnStack e l c) (hl : l.length < 2 ^ 30 - 1) :
    OnStack e (slot e l.length :: l) (c.push (c.reg .esp)) := by
  rw [← h.esp]
  exact h.push hl

lemma top (h : OnStack e (v :: l) c) : c.top = v := by
  rw [Cpu.top, h.esp]
  exact h.stacked.1

lemma drop (h : OnStack e (v :: l) c) : OnStack e l c.drop := by
  refine ⟨?_, h.stacked.2⟩
  rw [reg_drop, if_pos rfl, h.esp, List.length_cons, slot_succ, BitVec.sub_add_cancel]

lemma set (h : OnStack e l c) (hr : r ≠ .esp) : OnStack e l (c.set r v) := by
  refine ⟨?_, h.stacked⟩
  rw [reg_set, if_neg hr.symm, h.esp]

lemma setFlags {f : BitVec 32 → BitVec 32} (h : OnStack e l c) : OnStack e l (c.setFlags f) :=
  ⟨h.esp, h.stacked⟩

lemma pop (h : OnStack e (v :: l) c) (hr : r ≠ .esp) : OnStack e l (c.drop.set r c.top) :=
  h.drop.set hr

/-- The stack pointer can be popped where it lies at its own address. -/
lemma pop_esp (h : OnStack e (v :: l) c) (hv : v = slot e l.length) :
    OnStack e l (c.drop.set .esp c.top) := by
  refine ⟨?_, h.drop.stacked⟩
  rw [reg_set, if_pos rfl, h.top, hv]

/-- The word `k` from the top. -/
lemma load_esp (h : OnStack e l c) {k : ℕ} (hk : k < l.length) :
    load c.mem (c.reg .esp + BitVec.ofNat 32 (4 * k)) = l[k] := by
  have hstacked := h.stacked
  rw [h.esp]
  clear h
  induction l generalizing k with
  | nil => exact absurd hk (Nat.not_lt_zero k)
  | cons w l ih =>
    cases k with
    | zero => simpa using hstacked.1
    | succ k =>
      have hslot : slot e (w :: l).length + BitVec.ofNat 32 (4 * (k + 1)) =
          slot e l.length + BitVec.ofNat 32 (4 * k) := by
        rw [List.length_cons, slot_succ, Nat.mul_succ, BitVec.ofNat_add]
        bv_omega
      rw [hslot]
      exact ih (Nat.lt_of_succ_lt_succ hk) hstacked.2

end OnStack

lemma Stacked.of_append {m : Memory} {l' : List (BitVec 32)} (h : Stacked m e (l' ++ l)) :
    Stacked m e l := by
  induction l' with
  | nil => exact h
  | cons w l' ih => exact ih h.2

end Cpu

/-! ### Calls -/

lemma Cpu.OnStack.args {c : Cpu} {e ret a b d : BitVec 32} {l : List (BitVec 32)}
    (h : OnStack e (ret :: a :: b :: d :: l) c) : Program.args c = (a, b, d) := by
  have ha := h.load_esp (k := 1) (by simp)
  have hb := h.load_esp (k := 2) (by simp)
  have hd := h.load_esp (k := 3) (by simp)
  exact Prod.ext ha (Prod.ext hb hd)

/-- A function that keeps to cdecl: it takes `n` words of arguments and returns to its caller, of
whose frame the `k` words above the arguments are kept. -/
structure Cdecl (n k : ℕ) (f : Cpu → Cpu) : Prop where
  saved : ∀ c r, r ∈ [Reg.ebx, .esi, .edi, .ebp] → (f c).reg r = c.reg r
  esp   : ∀ c, (f c).reg .esp = c.reg .esp + 4#32
  frame : ∀ c, ∀ j < k, load (f c).mem (c.reg .esp + BitVec.ofNat 32 (4 * (1 + n + j))) =
    load c.mem (c.reg .esp + BitVec.ofNat 32 (4 * (1 + n + j)))

/-- The stack of the caller, once it has dropped the arguments. -/
theorem Cdecl.onStack {f : Cpu → Cpu} {c : Cpu} {e ret : BitVec 32} {as l : List (BitVec 32)}
    (hf : Cdecl as.length l.length f) (h : Cpu.OnStack e (ret :: (as ++ l)) c) :
    Cpu.OnStack e l ((f c).set .esp ((f c).reg .esp + BitVec.ofNat 32 (4 * as.length))) := by
  have hlength : (ret :: (as ++ l)).length = l.length + (1 + as.length) := by
    simp only [List.length_cons, List.length_append]
    omega
  have hesp := h.esp
  rw [hlength] at hesp
  have hstacked : Cpu.Stacked c.mem e l := h.stacked.2.of_append
  refine ⟨?_, hstacked.of_load_eq fun k hk => ?_⟩
  · rw [Cpu.reg_set, if_pos rfl, hf.esp, hesp, BitVec.add_assoc, ← BitVec.ofNat_add,
      show 4 + 4 * as.length = 4 * (1 + as.length) by omega, Cpu.slot_add]
  · -- the word `k` from the bottom is the word `l.length - 1 - k` above the arguments
    have hword := hf.frame c (l.length - 1 - k) (by omega)
    have haddr : c.reg .esp + BitVec.ofNat 32 (4 * (1 + as.length + (l.length - 1 - k))) =
        Cpu.slot e (k + 1) := by
      rw [hesp, show l.length + (1 + as.length) = k + 1 + (1 + as.length + (l.length - 1 - k)) by
        omega, Cpu.slot_add]
    rwa [haddr] at hword

/-- Without arguments it returns to the stack of the caller. -/
lemma Cdecl.returns {f : Cpu → Cpu} {c : Cpu} {e ret : BitVec 32} {l : List (BitVec 32)} {k : ℕ}
    (hf : Cdecl 0 k f) (hl : l.length ≤ k) (h : Cpu.OnStack e (ret :: l) c) :
    Cpu.OnStack e l (f c) := by
  have hf' : Cdecl ([] : List (BitVec 32)).length l.length f :=
    ⟨hf.saved, hf.esp, fun c j hj => hf.frame c j (Nat.lt_of_lt_of_le hj hl)⟩
  have hstack := hf'.onStack h
  refine ⟨?_, hstack.stacked⟩
  have hesp := hstack.esp
  rw [Cpu.reg_set, if_pos rfl] at hesp
  simpa using hesp

/-! ### Rules for runs -/

namespace Program

variable {L F : Type} [DecidableEq L] {p : Program L F} {s s' : Machine F} {Q : Machine F → Prop}

/-- Total correctness: from `s` on, the code runs to its end, in a state with `Q`. -/
def WP (p : Program L F) (Q : Machine F → Prop) (s : Machine F) : Prop :=
  ∃ t, Turns (fun s => p.running s = true) (fun _ => p.step) s t ∧ Q t

namespace WP

theorem ends (h : p.WP Q s) : ∃ t, Ends (fun n => p.run n s) t ∧ Q t := by
  obtain ⟨t, ht, hQ⟩ := h
  exact ⟨t, Turns.ends ht, hQ⟩

lemma mono {Q' : Machine F → Prop} (h : p.WP Q s) (hQ : ∀ t, Q t → Q' t) : p.WP Q' s := by
  obtain ⟨t, ht, hQt⟩ := h
  exact ⟨t, ht, hQ t hQt⟩

lemma fallOff (h : p.code[s.pc]? = none) (hQ : Q s) : p.WP Q s :=
  ⟨s, .done (by simp [running, h]), hQ⟩

lemma iret (h : p.code[s.pc]? = some .iret) (hQ : Q s) : p.WP Q s :=
  ⟨s, .done (by simp [running, h]), hQ⟩

lemma of_step (hrun : p.running s = true) (hstep : p.step s = some s') (h : p.WP Q s') :
    p.WP Q s := by
  obtain ⟨t, ht, hQ⟩ := h
  exact ⟨t, .turn hrun (by rw [hstep]; exact .pure s') ht, hQ⟩

variable {pc : ℕ} {c : Cpu} {calls : List (Call F)} {i : Instr L F} {l : L}

lemma straight (hcode : p.code[pc]? = some i) (hi : i.straight = true)
    (h : p.WP Q ⟨pc + 1, i.exec c, calls⟩) : p.WP Q ⟨pc, c, calls⟩ := by
  refine of_step ?_ ?_ h
  · cases i <;> simp_all [running, Instr.straight]
  · cases i <;> simp_all [step, Instr.straight]

/-- A block of instructions that neither jump nor call. -/
theorem block (is : List (Instr L F)) (hcode : is <+: p.code.drop pc)
    (his : is.all Instr.straight = true)
    (h : p.WP Q ⟨pc + is.length, Instr.execs is c, calls⟩) :
    p.WP Q ⟨pc, c, calls⟩ := by
  induction is generalizing pc c with
  | nil => exact h
  | cons i is ih =>
    obtain ⟨rest, hrest⟩ := hcode
    have hi : p.code[pc]? = some i := by
      rw [← List.head?_drop, ← hrest]
      rfl
    rw [List.all_cons, Bool.and_eq_true] at his
    refine straight hi his.1 (ih ⟨rest, ?_⟩ his.2 ?_)
    · rw [← List.tail_drop, ← hrest]
      rfl
    · rw [List.length_cons, ← Nat.add_assoc, Nat.add_right_comm] at h
      exact h

lemma jmp (hcode : p.code[pc]? = some (.jmp l)) (h : p.WP Q ⟨p.labelIndex l, c, calls⟩) :
    p.WP Q ⟨pc, c, calls⟩ :=
  of_step (by simp [running, hcode]) (by simp [step, hcode]) h

lemma jcc {cond : Cond} (hcode : p.code[pc]? = some (.jcc cond l))
    (htaken : cond.holds c.eflags = true → p.WP Q ⟨p.labelIndex l, c, calls⟩)
    (hnot : cond.holds c.eflags = false → p.WP Q ⟨pc + 1, c, calls⟩) :
    p.WP Q ⟨pc, c, calls⟩ := by
  have hstep : p.step ⟨pc, c, calls⟩ =
      some ⟨if cond.holds c.eflags then p.labelIndex l else pc + 1, c, calls⟩ := by
    simp [step, hcode]
  refine of_step (by simp [running, hcode]) hstep ?_
  split_ifs with h
  · exact htaken h
  · exact hnot (eq_false_of_ne_true h)

lemma call {table : List F} {disp : BitVec 32} {index : Reg} {f : F}
    (hcode : p.code[pc]? = some (.call table disp index))
    (hf : entry table (disp + 4#32 * c.reg index) = some f)
    (h : p.WP Q ⟨pc + 1, p.functions f (c.push (p.address (pc + 1))), calls ++
      [⟨f, args (c.push (p.address (pc + 1))),
        (p.functions f (c.push (p.address (pc + 1)))).reg .eax⟩]⟩) :
    p.WP Q ⟨pc, c, calls⟩ :=
  of_step (by simp [running, hcode]) (by simp [step, hcode, hf]) h

end WP

end Program

end X86
