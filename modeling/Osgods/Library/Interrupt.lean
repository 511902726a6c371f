import Osgods.Library.X86

/-!
# Interrupts of an x86 processor

A context is a processor and where it is in its code. `deliver` leaves it on the stack of the
kernel, and `iret` takes it up again; within the kernel there are `deliverKernel` and `iretKernel`.
`Kept` is what has to hold between the two, of the stack, the registers and the memory `P` that the
kernel leaves alone.
-/

namespace X86

/-! ### A block of the stack -/

namespace Cpu

/-- Words that are pushed, the last one first. -/
def pushAll (l : List (BitVec 32)) (c : Cpu) : Cpu := l.foldr push c

variable {c : Cpu} {r : Reg} {e a v : BitVec 32} {l l' : List (BitVec 32)}

@[simp] lemma reg_pushAll (hr : r ≠ .esp) : (c.pushAll l).reg r = c.reg r := by
  induction l with
  | nil => rfl
  | cons v l ih => exact (reg_push.trans (if_neg hr)).trans ih

@[simp] lemma eflags_pushAll : (c.pushAll l).eflags = c.eflags := by
  induction l with
  | nil => rfl
  | cons v l ih => exact ih

@[simp] lemma ds_pushAll : (c.pushAll l).ds = c.ds := by
  induction l with
  | nil => rfl
  | cons v l ih => exact ih

@[simp] lemma es_pushAll : (c.pushAll l).es = c.es := by
  induction l with
  | nil => rfl
  | cons v l ih => exact ih

lemma OnStack.pushAll (h : OnStack e l' c) (hl : l.length + l'.length < 2 ^ 30) :
    OnStack e (l ++ l') (c.pushAll l) := by
  induction l with
  | nil => exact h
  | cons v l ih =>
    rw [List.length_cons] at hl
    exact (ih (by omega)).push (by rw [List.length_append]; omega)

def popFlags (c : Cpu) : Cpu := { c.drop with eflags := c.top }

@[simp] lemma reg_popFlags : c.popFlags.reg = c.drop.reg := rfl

lemma OnStack.popFlags (h : OnStack e (v :: l) c) : OnStack e l c.popFlags :=
  ⟨h.drop.esp, h.drop.stacked⟩

/-- The address `a` is in none of the `n` words below `e`. -/
def Beside (e : BitVec 32) (n : ℕ) (a : BitVec 32) : Prop := 4 * n ≤ (a - slot e n).toNat

lemma toNat_sub_slot {n : ℕ} :
    (a - slot e n).toNat = ((a - e).toNat + 4 * n) % 2 ^ 32 := by
  have hsub : a - slot e n = a - e + BitVec.ofNat 32 (4 * n) := by
    rw [slot]
    bv_omega
  rw [hsub, BitVec.toNat_add, BitVec.toNat_ofNat, Nat.add_mod_mod]

/-- Each of the words lies elsewhere. -/
lemma Beside.slot {n k : ℕ} (h : Beside e n a) (hk : k < n) :
    4 ≤ (a - Cpu.slot e (k + 1)).toNat := by
  rw [Beside, toNat_sub_slot] at h
  rw [toNat_sub_slot]
  have hlt := (a - e).isLt
  omega

/-- Words are pushed below `e` only. -/
lemma OnStack.mem_pushAll (h : OnStack e l' c) {n : ℕ} (hn : l.length + l'.length ≤ n)
    (hsmall : n < 2 ^ 30) (ha : Beside e n a) : (c.pushAll l).mem a = c.mem a := by
  induction l with
  | nil => rfl
  | cons v l ih =>
    rw [List.length_cons] at hn
    have hesp := (h.pushAll (l := l) (by omega)).esp
    have hfar := ha.slot (k := (l ++ l').length) (by rw [List.length_append]; omega)
    refine (if_neg ?_).trans (ih (by omega))
    change ¬ (a - ((c.pushAll l).reg .esp - 4#32)).toNat < 4
    rw [hesp, ← slot_succ]
    omega

/-- The processor is as it was, with the stack `l` below `e`; memory may differ outside of `P`. -/
structure Kept (P : BitVec 32 → Prop) (e : BitVec 32) (l : List (BitVec 32)) (c₀ c : Cpu) :
    Prop where
  stack  : OnStack e l c
  reg    : ∀ r, r ≠ .esp → c.reg r = c₀.reg r
  eflags : c.eflags = c₀.eflags
  ds     : c.ds = c₀.ds
  es     : c.es = c₀.es
  mem    : ∀ a, P a → c.mem a = c₀.mem a

variable {P : BitVec 32 → Prop} {c₀ c₁ : Cpu}

end Cpu

/-! ### Interrupts of the kernel -/

/-- IF. -/
abbrev interruptBit : ℕ := 9

/-- TF, IF, NT and RF, which an interrupt gate clears. -/
def gateFlags (f : BitVec 32) : BitVec 32 := f &&& ~~~0x00014300#32

namespace Cpu

/-- An interrupt of the kernel, at `eip`. -/
def deliverKernel (eip cs : BitVec 32) (c : Cpu) : Cpu :=
  (c.pushAll [eip, cs, c.eflags]).setFlags gateFlags

/-- `iret` to where the kernel was. -/
def iretKernel (c : Cpu) : Cpu := c.drop.drop.popFlags

variable {eip cs : BitVec 32}

lemma onStack_deliverKernel (h : OnStack e l c) (hl : 3 + l.length < 2 ^ 30) :
    OnStack e (eip :: cs :: c.eflags :: l) (c.deliverKernel eip cs) :=
  (h.pushAll (l := [eip, cs, c.eflags]) hl).setFlags

/-- Whatever happens in between, if it keeps the entry then the interrupt keeps the kernel. -/
theorem Kept.iretKernel {n : ℕ} (h : OnStack e l c) (hn : 3 + l.length ≤ n) (hsmall : n < 2 ^ 30)
    (hP : ∀ a, P a → Beside e n a)
    (hkept : Kept P e (eip :: cs :: c.eflags :: l) (c.deliverKernel eip cs) c₁) :
    Kept P e l c c₁.iretKernel where
  stack := hkept.stack.drop.drop.popFlags
  reg r hr := by
    rw [Cpu.iretKernel, reg_popFlags, reg_drop, if_neg hr, reg_drop, if_neg hr, reg_drop,
      if_neg hr, hkept.reg r hr, deliverKernel, reg_setFlags, reg_pushAll hr]
  eflags := hkept.stack.drop.drop.top
  ds := hkept.ds.trans ds_pushAll
  es := hkept.es.trans es_pushAll
  mem a ha := (hkept.mem a ha).trans
    (h.mem_pushAll (l := [eip, cs, c.eflags]) hn hsmall (hP a ha))

end Cpu

/-! ### Interrupts of a program -/

/-- A processor, where it is in its code, and the segments of its code and of its stack. -/
structure Context where
  cpu : Cpu
  eip : BitVec 32
  cs  : BitVec 16
  ss  : BitVec 16

namespace Context

/-- The code is that of a program, at the privilege level 3. -/
def User (x : Context) : Prop := x.cs.extractLsb' 0 2 = 3#2

instance (x : Context) : Decidable x.User := inferInstanceAs (Decidable (_ = _))

/-- What the processor pushes on the stack of the kernel when it leaves a program. -/
def frame (x : Context) : List (BitVec 32) :=
  [x.eip, x.cs.setWidth 32, x.cpu.eflags, x.cpu.reg .esp, x.ss.setWidth 32]

/-- The processor at the entry of a handler of the kernel, whose stack is at `esp0`. -/
def deliver (esp0 : BitVec 32) (x : Context) : Cpu :=
  ((x.cpu.set .esp esp0).pushAll x.frame).setFlags gateFlags

/-- `iret` to a program. -/
def iret (c : Cpu) : Context :=
  let c₂ := c.drop.drop.popFlags
  ⟨c₂.drop.set .esp c₂.top, c.top, c.drop.top.setWidth 16, c₂.drop.top.setWidth 16⟩

variable {x : Context} {esp0 : BitVec 32} {c : Cpu} {r : Reg}

lemma onStack_deliver : Cpu.OnStack esp0 x.frame (x.deliver esp0) := by
  have hempty : Cpu.OnStack esp0 [] (x.cpu.set .esp esp0) :=
    ⟨by simp, trivial⟩
  have hpushed := hempty.pushAll (l := x.frame) (by simp [frame])
  rw [List.append_nil] at hpushed
  exact hpushed.setFlags

lemma reg_deliver (hr : r ≠ .esp) : (x.deliver esp0).reg r = x.cpu.reg r := by
  rw [deliver, Cpu.reg_setFlags, Cpu.reg_pushAll hr, Cpu.reg_set, if_neg hr]

/-- The program goes on where it was, with its stack and its flags, and otherwise with what the
kernel leaves. -/
lemma iret_frame (h : Cpu.OnStack esp0 x.frame c) :
    (iret c).eip = x.eip ∧ (iret c).cs = x.cs ∧ (iret c).ss = x.ss ∧
      (iret c).cpu.eflags = x.cpu.eflags ∧ (iret c).cpu.reg .esp = x.cpu.reg .esp ∧
      (∀ r, r ≠ .esp → (iret c).cpu.reg r = c.reg r) ∧ (iret c).cpu.mem = c.mem ∧
      (iret c).cpu.ds = c.ds ∧ (iret c).cpu.es = c.es := by
  have hcs := h.drop
  have hflags := hcs.drop
  have hesp := hflags.popFlags
  have hss := hesp.drop
  have hcsTop : c.drop.top = x.cs.setWidth 32 := hcs.top
  have hssTop : c.drop.drop.popFlags.drop.top = x.ss.setWidth 32 := hss.top
  refine ⟨h.top, ?_, ?_, hflags.top, ?_, fun r hr => ?_, rfl, rfl, rfl⟩
  · rw [iret, hcsTop, BitVec.setWidth_setWidth_of_le _ (by decide), BitVec.setWidth_eq]
  · rw [iret, hssTop, BitVec.setWidth_setWidth_of_le _ (by decide), BitVec.setWidth_eq]
  · rw [iret, Cpu.reg_set, if_pos rfl]
    exact hesp.top
  · simp only [iret, Cpu.reg_set, Cpu.reg_drop, Cpu.reg_popFlags, if_neg hr]

/-- Two contexts that a program with the memory `P` cannot tell apart. -/
structure Same (P : BitVec 32 → Prop) (x y : Context) : Prop where
  eip    : x.eip = y.eip
  cs     : x.cs = y.cs
  ss     : x.ss = y.ss
  reg    : ∀ r, x.cpu.reg r = y.cpu.reg r
  ds     : x.cpu.ds = y.cpu.ds
  es     : x.cpu.es = y.cpu.es
  eflags : x.cpu.eflags = y.cpu.eflags
  mem    : ∀ a, P a → x.cpu.mem a = y.cpu.mem a

namespace Same

variable {P : BitVec 32 → Prop} {y z : Context}

lemma refl (x : Context) : Same P x x :=
  ⟨rfl, rfl, rfl, fun _ => rfl, rfl, rfl, rfl, fun _ _ => rfl⟩

lemma trans (h : Same P x y) (h' : Same P y z) : Same P x z where
  eip    := h.eip.trans h'.eip
  cs     := h.cs.trans h'.cs
  ss     := h.ss.trans h'.ss
  reg r  := (h.reg r).trans (h'.reg r)
  ds     := h.ds.trans h'.ds
  es     := h.es.trans h'.es
  eflags := h.eflags.trans h'.eflags
  mem a ha := (h.mem a ha).trans (h'.mem a ha)

end Same

/-- Whatever happens in between, if it keeps the entry then the program cannot tell. -/
theorem same_iret {P : BitVec 32 → Prop} {n : ℕ} (hn : 5 ≤ n) (hsmall : n < 2 ^ 30)
    (hP : ∀ a, P a → Cpu.Beside esp0 n a)
    (h : Cpu.Kept P esp0 x.frame (x.deliver esp0) c) : Same P (iret c) x := by
  obtain ⟨heip, hcs, hss, hflags, hesp, hreg, hmem, hds, hes⟩ := iret_frame h.stack
  refine ⟨heip, hcs, hss, fun r => ?_, hds.trans (h.ds.trans Cpu.ds_pushAll),
    hes.trans (h.es.trans Cpu.es_pushAll), hflags, fun a ha => ?_⟩
  · by_cases hr : r = .esp
    · rw [hr, hesp]
    · rw [hreg r hr, h.reg r hr, reg_deliver hr]
  · have hempty : Cpu.OnStack esp0 [] (x.cpu.set .esp esp0) := ⟨by simp, trivial⟩
    rw [hmem, h.mem a ha]
    exact hempty.mem_pushAll (l := x.frame) hn hsmall (hP a ha)

end Context

end X86
