import Osgods.Library.Interrupt
import Osgods.Library.Transition
import Osgods.Device.Idt

/-!
# The interrupt wrappers (`intr_wrapper.S`)

The keyboard or the RTC interrupts a program between two of its instructions: the processor goes
through the gate of `init_idt` to a wrapper, which saves everything, calls its handler and returns.
A handler may turn interrupts on, and then a wrapper is interrupted itself. Of the handlers no more
is taken than that the compiler makes them functions that keep to cdecl, and where a program's
memory is concerned, that they store nothing there. The handler of the PIT is left out: it goes on
with the stack of another process.
-/

namespace Osgods

open X86 Pic Transition

inductive WrapperInstr where
  | pushal | pushfl | call | popfl | popal

/-- The handler that a wrapper calls, and the address behind the call. What a call of the handler
does depends on more than the processor: each number is one way. -/
structure Wrapper where
  handler : ℕ → Cpu → Cpu
  ret     : Word

namespace Wrapper

def pushal (c : Cpu) : Cpu :=
  c.pushAll [c.reg .edi, c.reg .esi, c.reg .ebp, c.reg .esp, c.reg .ebx, c.reg .edx, c.reg .ecx,
    c.reg .eax]

def popReg (r : Reg) (c : Cpu) : Cpu := c.drop.set r c.top

/-- The stack pointer that was pushed is skipped. -/
def popal (c : Cpu) : Cpu :=
  let c := popReg .ebp (popReg .esi (popReg .edi c))
  popReg .eax (popReg .ecx (popReg .edx (popReg .ebx c.drop)))

variable (W : Wrapper)

def exec (j : ℕ) (c : Cpu) : WrapperInstr → Cpu
  | .pushal => pushal c
  | .pushfl => c.push c.eflags
  | .call   => W.handler j (c.push W.ret)
  | .popfl  => { c.drop with eflags := c.top }
  | .popal  => popal c

/-- The code of every wrapper, up to the `iret`. -/
def code : List WrapperInstr := [.pushal, .pushfl, .call, .popfl, .popal]

end Wrapper

/-- The two wrappers, with the table that leads to them and the stack of the kernel. -/
structure Devices where
  handlers    : Handlers
  idt         : Idt
  esp0        : Word
  keybWrapper : Wrapper
  rtcWrapper  : Wrapper

namespace Devices

variable (D : Devices)

/-- The code at an address. -/
def wrapperAt (eip : Word) : Option Wrapper :=
  if eip = D.handlers.keybWrapper then some D.keybWrapper
  else if eip = D.handlers.rtcWrapper then some D.rtcWrapper
  else none

def wrappers : List Wrapper := [D.keybWrapper, D.rtcWrapper]

/-- A wrapper from its `k`-th instruction to its `iret`. Wherever interrupts are on it may be
interrupted itself, at most `d` deep. -/
inductive Through : ℕ → Wrapper → ℕ → Cpu → Cpu → Prop
  | iret {d : ℕ} {W : Wrapper} {k : ℕ} {c : Cpu} (h : Wrapper.code[k]? = none) :
      Through d W k c c
  | instr {d : ℕ} {W : Wrapper} {k : ℕ} {c c' : Cpu} {i : WrapperInstr} (j : ℕ)
      (h : Wrapper.code[k]? = some i) (hrest : Through d W (k + 1) (W.exec j c i) c') :
      Through d W k c c'
  | nested {d : ℕ} {W W' : Wrapper} {k : ℕ} {c c₁ c' : Cpu} (eip cs : Word)
      (hif : c.eflags.getLsbD interruptBit = true) (hW' : W' ∈ D.wrappers)
      (hnested : Through d W' 0 (c.deliverKernel eip cs) c₁)
      (hrest : Through (d + 1) W k c₁.iretKernel c') : Through (d + 1) W k c c'

/-- An interrupt of a program, from the gate to the `iret`. -/
structure Interrupts (d : ℕ) (l : Line) (x x' : Context) : Prop where
  user   : x.User
  flag   : x.cpu.eflags.getLsbD interruptBit = true
  served : ∃ e W c, (initIdt D.handlers D.idt).interrupt (x.cs.extractLsb' 0 2) true
    (.external (Board.vector l)) = some e ∧ D.wrapperAt e.eip = some W ∧
      D.Through d W 0 (x.deliver D.esp0) c ∧ x' = Context.iret c

/-- The handlers are functions without arguments that keep to cdecl, with the `n` words above
theirs, and leave the data segments alone. -/
structure Compiled (n : ℕ) : Prop where
  cdecl    : ∀ W ∈ D.wrappers, ∀ j, Cdecl 0 n (W.handler j)
  segments : ∀ W ∈ D.wrappers, ∀ j c, (W.handler j c).ds = c.ds ∧ (W.handler j c).es = c.es

/-- They store nothing to the memory `P`, which is not in the `n` words of the stack either. -/
structure Spares (P : Word → Prop) (n : ℕ) : Prop where
  memory : ∀ W ∈ D.wrappers, ∀ j c ret l, l.length < n → Cpu.OnStack D.esp0 (ret :: l) c →
    ∀ a, P a → (W.handler j c).mem a = c.mem a
  beside : ∀ a, P a → Cpu.Beside D.esp0 n a

end Devices

section

variable {D : Devices} {P : Word → Prop} {W : Wrapper} {x : Context} {c c' c₀ : Cpu} {e : Word}
  {l : List Word} {d k n : ℕ}

lemma wrapperAt_mem {eip : Word} (h : D.wrapperAt eip = some W) : W ∈ D.wrappers := by
  unfold Devices.wrapperAt at h
  unfold Devices.wrappers
  split_ifs at h
  all_goals
    obtain rfl := Option.some.inj h
    simp

/-- What `popal` finds on the stack, it puts into the registers. -/
lemma popal_spec {edi esi ebp esp ebx edx ecx eax : Word}
    (h : Cpu.OnStack e (edi :: esi :: ebp :: esp :: ebx :: edx :: ecx :: eax :: l) c) :
    Cpu.OnStack e l (Wrapper.popal c) ∧
      (Wrapper.popal c).reg .edi = edi ∧ (Wrapper.popal c).reg .esi = esi ∧
      (Wrapper.popal c).reg .ebp = ebp ∧ (Wrapper.popal c).reg .ebx = ebx ∧
      (Wrapper.popal c).reg .edx = edx ∧ (Wrapper.popal c).reg .ecx = ecx ∧
      (Wrapper.popal c).reg .eax = eax := by
  have hesi := h.pop (r := .edi) (by decide)
  have hebp := hesi.pop (r := .esi) (by decide)
  have hesp := hebp.pop (r := .ebp) (by decide)
  have hebx := hesp.drop
  have hedx := hebx.pop (r := .ebx) (by decide)
  have hecx := hedx.pop (r := .edx) (by decide)
  have heax := hecx.pop (r := .ecx) (by decide)
  exact ⟨heax.pop (r := .eax) (by decide), h.top, hesi.top, hebp.top, hebx.top, hedx.top,
    hecx.top, heax.top⟩

/-! ### A wrapper, instruction by instruction -/

/-- What `pushal` saves. -/
def registers (c : Cpu) : List Word :=
  [c.reg .edi, c.reg .esi, c.reg .ebp, c.reg .esp, c.reg .ebx, c.reg .edx, c.reg .ecx, c.reg .eax]

/-- What a wrapper that was entered in `c₀` has on the stack before its `k`-th instruction. -/
def onTop (c₀ : Cpu) : ℕ → List Word
  | 1 | 4 => registers c₀
  | 2 | 3 => c₀.eflags :: registers c₀
  | _     => []

/-- Before its `k`-th instruction. -/
structure At (P : Word → Prop) (e : Word) (l : List Word) (c₀ : Cpu) (k : ℕ) (c : Cpu) :
    Prop where
  stack  : Cpu.OnStack e (onTop c₀ k ++ l) c
  reg    : k = 0 ∨ 5 ≤ k → ∀ r, r ≠ .esp → c.reg r = c₀.reg r
  eflags : k ≠ 2 → k ≠ 3 → c.eflags = c₀.eflags
  ds     : c.ds = c₀.ds
  es     : c.es = c₀.es
  mem    : ∀ a, P a → c.mem a = c₀.mem a

/-- An interrupt in between changes nothing of that. -/
lemma At.congr (h : At P e l c₀ k c) (hkept : Cpu.Kept P e (onTop c₀ k ++ l) c c') :
    At P e l c₀ k c' where
  stack := hkept.stack
  reg hk r hr := (hkept.reg r hr).trans (h.reg hk r hr)
  eflags h₂ h₃ := hkept.eflags.trans (h.eflags h₂ h₃)
  ds := hkept.ds.trans h.ds
  es := hkept.es.trans h.es
  mem a ha := (hkept.mem a ha).trans (h.mem a ha)

lemma length_onTop_le (c₀ : Cpu) (k : ℕ) : (onTop c₀ k).length ≤ 9 := by
  unfold onTop
  split <;> simp [registers]

/-! Each instruction of a wrapper. -/

section

variable (hP : D.Spares P n) (hn : n < 2 ^ 30) (hl : l.length + 10 ≤ n)

include hP hn hl

lemma At.pushal (h₀ : Cpu.OnStack D.esp0 l c₀) (h : At P D.esp0 l c₀ 0 c) :
    At P D.esp0 l c₀ 1 (Wrapper.pushal c) := by
  have hstack : Cpu.OnStack D.esp0 l c := h.stack
  have hregisters : registers c = registers c₀ := by
    have hesp : c.reg .esp = c₀.reg .esp := hstack.esp.trans h₀.esp.symm
    have hreg := h.reg (.inl rfl)
    simp only [registers, hesp, hreg .edi (by decide), hreg .esi (by decide),
      hreg .ebp (by decide), hreg .ebx (by decide), hreg .edx (by decide), hreg .ecx (by decide),
      hreg .eax (by decide)]
  have hlength : (registers c).length + l.length ≤ n := by
    simp only [registers, List.length_cons, List.length_nil]
    omega
  refine ⟨?_, by simp, fun _ _ => ?_, ?_, ?_, fun a ha => ?_⟩
  · rw [onTop, ← hregisters]
    exact hstack.pushAll (l := registers c) (by omega)
  · exact Cpu.eflags_pushAll.trans (h.eflags (by decide) (by decide))
  · exact Cpu.ds_pushAll.trans h.ds
  · exact Cpu.es_pushAll.trans h.es
  · exact (hstack.mem_pushAll (l := registers c) hlength hn (hP.beside a ha)).trans (h.mem a ha)

lemma At.pushfl (h : At P D.esp0 l c₀ 1 c) : At P D.esp0 l c₀ 2 (c.push c.eflags) := by
  have hflags := h.eflags (by decide) (by decide)
  have hlength : (onTop c₀ 1 ++ l).length + 1 ≤ n := by
    have hle := length_onTop_le c₀ 1
    rw [List.length_append]
    omega
  refine ⟨?_, by simp, fun hne => absurd rfl hne, h.ds, h.es, fun a ha => ?_⟩
  · rw [hflags]
    exact h.stack.push (by omega)
  · exact (h.stack.mem_pushAll (l := [c.eflags]) (by rw [List.length_singleton]; omega) hn
      (hP.beside a ha)).trans (h.mem a ha)

lemma At.call (hD : D.Compiled n) (hW : W ∈ D.wrappers) (j : ℕ) (h : At P D.esp0 l c₀ 2 c) :
    At P D.esp0 l c₀ 3 (W.handler j (c.push W.ret)) := by
  have hlength : (onTop c₀ 2 ++ l).length < n := by
    have hle := length_onTop_le c₀ 2
    rw [List.length_append]
    omega
  have hentry := h.stack.push (v := W.ret) (by omega)
  obtain ⟨hds, hes⟩ := hD.segments W hW j (c.push W.ret)
  refine ⟨(hD.cdecl W hW j).returns hlength.le hentry, by simp, fun _ hne => absurd rfl hne,
    hds.trans h.ds, hes.trans h.es, fun a ha => ?_⟩
  rw [hP.memory W hW _ _ _ _ hlength hentry a ha, ← h.mem a ha]
  exact h.stack.mem_pushAll (l := [W.ret]) (by rw [List.length_singleton]; omega) hn
    (hP.beside a ha)

omit hP hn hl

lemma At.popfl (h : At P e l c₀ 3 c) : At P e l c₀ 4 c.popFlags where
  stack := h.stack.popFlags
  reg hk := by simp at hk
  eflags _ _ := h.stack.top
  ds := h.ds
  es := h.es
  mem := h.mem

lemma At.popal (h : At P e l c₀ 4 c) : At P e l c₀ 5 (Wrapper.popal c) := by
  obtain ⟨hstack, hedi, hesi, hebp, hebx, hedx, hecx, heax⟩ := popal_spec h.stack
  refine ⟨hstack, fun _ r hr => ?_, fun _ _ => h.eflags (by decide) (by decide), h.ds, h.es, h.mem⟩
  cases r with
  | eax => exact heax
  | ebx => exact hebx
  | ecx => exact hecx
  | edx => exact hedx
  | esi => exact hesi
  | edi => exact hedi
  | ebp => exact hebp
  | esp => exact absurd rfl hr

end

/-- A wrapper keeps what it interrupts, and so do the interrupts of the wrapper. -/
theorem through_kept (hD : D.Compiled n) (hP : D.Spares P n) (hn : n < 2 ^ 30) (hW : W ∈ D.wrappers)
    (hrun : D.Through d W k c c') (hl : l.length + 10 + 12 * d ≤ n)
    (h₀ : Cpu.OnStack D.esp0 l c₀) (h : At P D.esp0 l c₀ k c) :
    Cpu.Kept P D.esp0 l c₀ c' := by
  induction hrun generalizing l c₀ with
  | @iret d W k c hend =>
    have hk : 5 ≤ k := List.getElem?_eq_none_iff.mp hend
    have htop : onTop c₀ k = [] := by
      unfold onTop
      split <;> first | rfl | omega
    have hstack := h.stack
    rw [htop] at hstack
    exact ⟨hstack, h.reg (.inr hk), h.eflags (by omega) (by omega), h.ds, h.es, h.mem⟩
  | @instr d W k c c' i j hi hrest ih =>
    refine ih hW hl h₀ ?_
    have hl' : l.length + 10 ≤ n := by omega
    match k, hi, h with
    | 0, hi, h =>
      cases hi
      exact h.pushal hP hn hl' h₀
    | 1, hi, h =>
      cases hi
      exact h.pushfl hP hn hl'
    | 2, hi, h =>
      cases hi
      exact h.call hP hn hl' hD hW j
    | 3, hi, h =>
      cases hi
      exact h.popfl
    | 4, hi, h =>
      cases hi
      exact h.popal
  | @nested d W W' k c c₁ c' eip cs hif hW' hnested hrest ihnested ihrest =>
    have hle := length_onTop_le c₀ k
    have hdeliver : Cpu.OnStack D.esp0 (eip :: cs :: c.eflags :: (onTop c₀ k ++ l))
        (c.deliverKernel eip cs) :=
      Cpu.onStack_deliverKernel h.stack (by rw [List.length_append]; omega)
    have hkept := ihnested hW' (by simp only [List.length_cons, List.length_append]; omega)
      hdeliver ⟨hdeliver, fun _ _ _ => rfl, fun _ _ => rfl, rfl, rfl, fun _ _ => rfl⟩
    refine ihrest hW hl h₀ (h.congr ?_)
    exact .iretKernel h.stack (by rw [List.length_append]; omega) hn hP.beside hkept

/-- A program cannot tell an interrupt from none. -/
lemma same_of_interrupts {line : Line} {x' : Context} (hD : D.Compiled n) (hP : D.Spares P n)
    (hn : n < 2 ^ 30) (hd : 15 + 12 * d ≤ n) (h : D.Interrupts d line x x') :
    Context.Same P x' x := by
  obtain ⟨-, -, e, W, c, -, hW, hthrough, rfl⟩ := h
  have hentry : Cpu.OnStack D.esp0 x.frame (x.deliver D.esp0) := Context.onStack_deliver
  refine Context.same_iret (n := n) (by omega) hn hP.beside ?_
  exact through_kept hD hP hn (wrapperAt_mem hW) hthrough (by simp [Context.frame]; omega) hentry
    ⟨hentry, fun _ _ _ => rfl, fun _ _ => rfl, rfl, rfl, fun _ _ => rfl⟩

/-- A wrapper that is not interrupted. -/
lemma exists_through (W : Wrapper) (c : Cpu) : ∃ c', D.Through d W 0 c c' :=
  ⟨_, .instr 0 rfl (.instr 0 rfl (.instr 0 rfl (.instr 0 rfl (.instr 0 rfl (.iret rfl)))))⟩

/-- The lines of the two devices lead to their wrappers. -/
lemma exists_interrupts {line : Line} {w : Word} (hx : x.User)
    (hif : x.cpu.eflags.getLsbD interruptBit = true) (hline : line ≠ .master 0)
    (hw : D.handlers.device line = some w) : ∃ x', D.Interrupts d line x x' := by
  have hwrapper : ∃ W, D.wrapperAt w = some W := by
    unfold Handlers.device at hw
    unfold Devices.wrapperAt
    split at hw
    · exact absurd rfl hline
    · cases hw
      exact ⟨_, if_pos rfl⟩
    · cases hw
      by_cases hsame : D.handlers.rtcWrapper = D.handlers.keybWrapper
      · exact ⟨_, if_pos hsame⟩
      · exact ⟨_, (if_neg hsame).trans (if_pos rfl)⟩
    · cases hw
  obtain ⟨W, hW⟩ := hwrapper
  obtain ⟨c, hc⟩ := exists_through (D := D) (d := d) W (x.deliver D.esp0)
  exact ⟨_, hx, hif, _, W, c, device_gate hw _ _, hW, hc, rfl⟩

end

/-! ### A program and its interrupts -/

/-- The program executes an instruction, or a line interrupts it. -/
inductive ProgramEvent where
  | instr
  | irq (l : Line)

def ProgramEvent.instr? : ProgramEvent → Option Unit
  | .instr => some ()
  | .irq _ => none

/-- A step of the program, whose instructions are those of `next`, or an interrupt of it. -/
def Devices.Step (D : Devices) (d : ℕ) (next : Context → Option Context) :
    Context → ProgramEvent → Context → Prop
  | x, .instr, x' => next x = some x'
  | x, .irq l, x' => D.Interrupts d l x x'

/-- The program alone. -/
def alone (next : Context → Option Context) (x : Context) (_ : Unit) : Option Context := next x

/-- A handler that clears what it may, writes below its stack and turns interrupts on. -/
def busy (_ : ℕ) (c : Cpu) : Cpu where
  reg    := fun r => if r = .esp then c.reg .esp + 4#32
    else if r = .eax ∨ r = .ecx ∨ r = .edx then 0#32 else c.reg r
  ds     := c.ds
  es     := c.es
  eflags := 0x202#32
  mem    := X86.store (c.reg .esp - 4#32) 0#32 c.mem

def smallDevices : Devices where
  handlers    := ⟨fun _ => 0, 1, 2, 3, 4⟩
  idt _       := 0
  esp0        := 0x7ffffc#32
  keybWrapper := ⟨busy, 0x400020#32⟩
  rtcWrapper  := ⟨busy, 0x400030#32⟩

lemma smallDevices_handler (hW : W ∈ smallDevices.wrappers) : W.handler = busy := by
  simp only [Devices.wrappers, List.mem_cons, List.not_mem_nil, or_false] at hW
  rcases hW with rfl | rfl <;> rfl

lemma smallDevices_compiled : smallDevices.Compiled 27 where
  cdecl W hW j := by
    rw [smallDevices_handler hW]
    refine ⟨fun c r hr => ?_, fun c => rfl, fun c k hk => ?_⟩
    · simp only [List.mem_cons, List.not_mem_nil, or_false] at hr
      rcases hr with rfl | rfl | rfl | rfl <;> rfl
    · exact load_store_of_le (by bv_omega) (by bv_omega)
  segments W hW j c := by
    rw [smallDevices_handler hW]
    exact ⟨rfl, rfl⟩

lemma smallDevices_spares : smallDevices.Spares (fun a => 0x8000000 ≤ a.toNat) 27 where
  memory W hW j c ret l hl h a ha := by
    rw [smallDevices_handler hW]
    refine if_neg ?_
    have hesp := h.esp
    rw [hesp]
    simp only [Cpu.slot, List.length_cons, smallDevices]
    bv_omega
  beside a ha := by
    simp only [Cpu.Beside, Cpu.slot, smallDevices]
    bv_omega

/-- `movb %al, 0x8048000` and `leal 1(%eax), %eax`, as one instruction. -/
def smallNext (x : Context) : Option Context :=
  some { x with
    cpu := { x.cpu.set .eax (x.cpu.reg .eax + 1#32) with
      mem := Function.update x.cpu.mem 0x8048000#32 ((x.cpu.reg .eax).setWidth 8) }
    eip := x.eip + 8#32 }

lemma smallNext_same {Q : Word → Prop} (x y x' : Context) (h : Context.Same Q x y)
    (hx' : smallNext x = some x') : ∃ y', smallNext y = some y' ∧ Context.Same Q x' y' := by
  obtain rfl := Option.some.inj hx'
  refine ⟨_, rfl, ?_⟩
  exact {
    eip := by rw [h.eip]
    cs := h.cs
    ss := h.ss
    reg := fun r => by simp only [Cpu.set, Function.update_apply, h.reg]
    ds := h.ds
    es := h.es
    eflags := h.eflags
    mem := fun a ha => by simp only [Function.update_apply, h.reg, h.mem a ha] }

def smallContext : Context :=
  ⟨⟨fun _ => 0#32, 0x2B, 0x2B, 0x202#32, fun _ => 0#8⟩, 0x8048010#32, 0x23, 0x2B⟩

end Osgods
