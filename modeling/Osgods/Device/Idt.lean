import Osgods.Library.BitField
import Osgods.Device.I8259

/-!
# The interrupt descriptor table (`idt.c`, `x86_desc.h`)

`init_idt` through the bit-fields of `idt_desc_t`, and the processor's way through a gate: what a
device, an exception or an `int` of user code leads to. Together with the interrupt controllers
this is every entry into the kernel.
-/

namespace Osgods

open BitField Pic

abbrev Descriptor := BitVec 64

/-- The addresses that the linker gives the handlers. -/
structure Handlers where
  exceptionHandlerTable : Fin 20 → Word
  pitWrapper            : Word
  keybWrapper           : Word
  rtcWrapper            : Word
  syscallLinkage        : Word

/-- The table, `NUM_VEC` entries of it. -/
abbrev Idt := ℕ → Descriptor

/-! ### Bit-fields of `idt_desc_t` -/

def assignSegSelector (d v : Descriptor) : Descriptor := set d 16 16 v
def assignReserved4 (d v : Descriptor) : Descriptor := set d 32 8 v
def assignReserved3 (d v : Descriptor) : Descriptor := set d 40 1 v
def assignReserved2 (d v : Descriptor) : Descriptor := set d 41 1 v
def assignReserved1 (d v : Descriptor) : Descriptor := set d 42 1 v
def assignSize (d v : Descriptor) : Descriptor := set d 43 1 v
def assignReserved0 (d v : Descriptor) : Descriptor := set d 44 1 v
def assignDpl (d v : Descriptor) : Descriptor := set d 45 2 v
def assignGatePresent (d v : Descriptor) : Descriptor := set d 47 1 v

/-- `SET_IDT_ENTRY`. -/
def setIdtEntry (handler : Word) (d : Descriptor) : Descriptor :=
  let d := set d 48 16 (((handler &&& 0xFFFF0000#32) >>> 16).setWidth 64)
  set d 0 16 ((handler &&& 0xFFFF#32).setWidth 64)

namespace Idt

def modify (f : Descriptor → Descriptor) (i : ℕ) (idt : Idt) : Idt :=
  Function.update idt i (f (idt i))

/-- `for (i = s; i < s + n; i++)` over the entries. -/
def forEach (s n : ℕ) (f : ℕ → Descriptor → Descriptor) (idt : Idt) : Idt :=
  (List.range' s n).foldl (fun t i => t.modify (f i) i) idt

end Idt

/-- A turn of the first loop of `init_idt`. -/
def initIdtEntry (d : Descriptor) : Descriptor :=
  let d := assignSegSelector d 0x10
  let d := assignReserved4 d 0
  let d := assignSize d 1
  let d := assignReserved3 d 1
  let d := assignReserved2 d 1
  let d := assignReserved1 d 1
  let d := assignReserved0 d 0
  let d := assignDpl d 0
  assignGatePresent d 1

def initIdt (h : Handlers) (idt : Idt) : Idt :=
  let idt := idt.forEach 0 256 fun _ => initIdtEntry
  let idt := idt.forEach 0 20 fun i => setIdtEntry (h.exceptionHandlerTable (Fin.ofNat 20 i))
  let idt := idt.forEach 20 12 fun _ => setIdtEntry (h.exceptionHandlerTable 15)
  let idt := idt.modify (assignReserved3 · 0#64) 0x20
  let idt := idt.modify (setIdtEntry h.pitWrapper) 0x20
  let idt := idt.modify (assignReserved3 · 0#64) 0x21
  let idt := idt.modify (setIdtEntry h.keybWrapper) 0x21
  let idt := idt.modify (assignReserved3 · 0#64) 0x28
  let idt := idt.modify (setIdtEntry h.rtcWrapper) 0x28
  let idt := idt.modify (assignDpl · 3#64) 0x80
  idt.modify (setIdtEntry h.syscallLinkage) 0x80

/-! ### The processor -/

/-- What the processor reads from a descriptor. -/
@[ext]
structure Gate where
  offset   : Word
  selector : BitVec 16
  type     : BitVec 4
  system   : BitVec 1
  dpl      : BitVec 2
  present  : BitVec 1
deriving DecidableEq, Repr

/-- The type is four bit-fields of the source. -/
def gate (d : Descriptor) : Gate where
  offset   := d.extractLsb' 48 16 ++ d.extractLsb' 0 16
  selector := d.extractLsb' 16 16
  type     := d.extractLsb' 43 1 ++ d.extractLsb' 42 1 ++ d.extractLsb' 41 1 ++ d.extractLsb' 40 1
  system   := d.extractLsb' 44 1
  dpl      := d.extractLsb' 45 2
  present  := d.extractLsb' 47 1

/-- Where the kernel is entered, and whether interrupts are then on. -/
structure Entry where
  cs            : BitVec 16
  eip           : Word
  interruptFlag : Bool
deriving DecidableEq, Repr

/-- Through the gate of a vector: an interrupt gate turns interrupts off, a trap gate leaves them.
A gate of another type, or one that is not present, leads to a further exception, which is not
described. -/
def Idt.enter (idt : Idt) (flag : Bool) (n : Byte) : Option Entry :=
  let g := gate (idt n.toNat)
  if g.present = 1 ∧ g.system = 0 then
    if g.type = 0xE then some ⟨g.selector, g.offset, false⟩
    else if g.type = 0xF then some ⟨g.selector, g.offset, flag⟩
    else none
  else none

inductive Interrupt where
  | external (n : Byte)
  | exception (n : Byte)
  | software (n : Byte)

/-- Only the `int` instruction is checked against the privilege level of the gate; one that may
not use it ends as a general protection exception. -/
def Idt.interrupt (idt : Idt) (cpl : BitVec 2) (flag : Bool) : Interrupt → Option Entry
  | .external n  => idt.enter flag n
  | .exception n => idt.enter flag n
  | .software n  =>
    if (gate (idt n.toNat)).dpl < cpl then idt.enter flag 13 else idt.enter flag n

/-! ### The entries -/

variable {h : Handlers} {idt : Idt} {d : Descriptor} {handler : Word}

@[simp] lemma Idt.modify_apply (f : Descriptor → Descriptor) (i j : ℕ) :
    idt.modify f i j = if j = i then f (idt j) else idt j := by
  by_cases hj : j = i
  · subst hj
    simp [modify]
  · simp [modify, hj]

/-- The turns of a loop over the entries do not interfere. -/
lemma Idt.forEach_apply (s n : ℕ) (f : ℕ → Descriptor → Descriptor) (j : ℕ) :
    idt.forEach s n f j = if s ≤ j ∧ j < s + n then f j (idt j) else idt j := by
  induction n generalizing s idt with
  | zero =>
    rw [if_neg (by omega)]
    rfl
  | succ n ih =>
    have hturn : idt.forEach s (n + 1) f = (idt.modify (f s) s).forEach (s + 1) n f := rfl
    rw [hturn, ih, modify_apply]
    by_cases hj : j = s
    · subst hj
      rw [if_neg (by omega), if_pos rfl, if_pos (by omega)]
    · have hiff : (s + 1 ≤ j ∧ j < s + 1 + n) ↔ (s ≤ j ∧ j < s + (n + 1)) := by omega
      simp only [if_neg hj, hiff]

lemma low_mask : ∀ i : Fin 16, (0xFFFF#32).getLsbD i = true := by decide

lemma high_mask : ∀ i : Fin 16, (0xFFFF0000#32).getLsbD (16 + i) = true := by decide

lemma low_half : ((handler &&& 0xFFFF#32).setWidth 64).setWidth 16 = handler.extractLsb' 0 16 := by
  apply BitVec.eq_of_getLsbD_eq
  intro i hi
  have hmask := low_mask ⟨i, hi⟩
  have h64 : i < 64 := by omega
  simp only [BitVec.getLsbD_setWidth, BitVec.getLsbD_and, BitVec.getLsbD_extractLsb', hi, h64,
    hmask, decide_true, Bool.true_and, Bool.and_true, Nat.zero_add]

lemma high_half : (((handler &&& 0xFFFF0000#32) >>> 16).setWidth 64).setWidth 16 =
    handler.extractLsb' 16 16 := by
  apply BitVec.eq_of_getLsbD_eq
  intro i hi
  have hmask := high_mask ⟨i, hi⟩
  have h64 : i < 64 := by omega
  simp only [BitVec.getLsbD_setWidth, BitVec.getLsbD_ushiftRight, BitVec.getLsbD_and,
    BitVec.getLsbD_extractLsb', hi, h64, hmask, decide_true, Bool.true_and, Bool.and_true]

lemma halves : handler.extractLsb' 16 16 ++ handler.extractLsb' 0 16 = handler := by
  apply BitVec.eq_of_getLsbD_eq
  intro i hi
  simp only [BitVec.getLsbD_append, BitVec.getLsbD_extractLsb']
  by_cases h : i < 16
  · simp [h]
  · have h16 : i - 16 < 16 := by omega
    have hsum : 16 + (i - 16) = i := by omega
    simp [h, h16, hsum]

/-- A handler's address in two halves is read back whole. -/
lemma gate_setIdtEntry : gate (setIdtEntry handler d) = { gate d with offset := handler } := by
  apply Gate.ext <;>
    simp (disch := omega) only [gate, setIdtEntry, extract_set_self, extract_set_of_disjoint]
  rw [low_half, high_half, halves]

lemma gate_initIdtEntry : gate (initIdtEntry d) = ⟨(gate d).offset, 0x10, 0xF, 0, 0, 1⟩ := by
  apply Gate.ext <;>
    simp (disch := omega) only [gate, initIdtEntry, assignSegSelector, assignReserved4,
      assignSize, assignReserved3, assignReserved2, assignReserved1, assignReserved0, assignDpl,
      assignGatePresent, extract_set_self, extract_set_of_disjoint] <;> rfl

lemma gate_assignReserved3 : gate (assignReserved3 d 0#64) =
    { gate d with type := (gate d).type &&& 0xE } := by
  have hbit : ∀ t s r q : BitVec 1,
      (t ++ s ++ r ++ 0#1 : BitVec 4) = (t ++ s ++ r ++ q : BitVec 4) &&& 0xE#4 := by
    decide
  apply Gate.ext <;>
    simp (disch := omega) only [gate, assignReserved3, extract_set_self, extract_set_of_disjoint]
  exact hbit _ _ _ _

lemma gate_assignDpl : gate (assignDpl d 3#64) = { gate d with dpl := 3 } := by
  apply Gate.ext <;>
    simp (disch := omega) only [gate, assignDpl, extract_set_self, extract_set_of_disjoint]
  rfl

/-- The gates that the last lines of `init_idt` leave alone. -/
lemma gate_initIdt_of_ne {n : ℕ} (hn : n < 256) (h20 : n ≠ 0x20) (h21 : n ≠ 0x21)
    (h28 : n ≠ 0x28) (h80 : n ≠ 0x80) :
    gate (initIdt h idt n) =
      ⟨if n < 20 then h.exceptionHandlerTable (Fin.ofNat 20 n)
        else if n < 32 then h.exceptionHandlerTable 15
        else (gate (idt n)).offset, 0x10, 0xF, 0, 0, 1⟩ := by
  simp only [initIdt, Idt.modify_apply, Idt.forEach_apply, h20, h21, h28, h80, if_false]
  have hall : 0 ≤ n ∧ n < 0 + 256 := by omega
  rw [if_pos hall]
  by_cases hx : n < 20
  · have hfirst : 0 ≤ n ∧ n < 0 + 20 := by omega
    rw [if_neg (by omega), if_pos hfirst, gate_setIdtEntry, gate_initIdtEntry, if_pos hx]
  · have hfirst : ¬ (0 ≤ n ∧ n < 0 + 20) := by omega
    by_cases hr : n < 32
    · have hsecond : 20 ≤ n ∧ n < 20 + 12 := by omega
      rw [if_pos hsecond, if_neg hfirst, gate_setIdtEntry, gate_initIdtEntry, if_neg hx,
        if_pos hr]
    · have hsecond : ¬ (20 ≤ n ∧ n < 20 + 12) := by omega
      rw [if_neg hsecond, if_neg hfirst, gate_initIdtEntry, if_neg hx, if_neg hr]

lemma gate_initIdt_pit : gate (initIdt h idt 0x20) = ⟨h.pitWrapper, 0x10, 0xE, 0, 0, 1⟩ := by
  simp [initIdt, Idt.forEach_apply, gate_setIdtEntry, gate_assignReserved3, gate_initIdtEntry]

lemma gate_initIdt_keyb : gate (initIdt h idt 0x21) = ⟨h.keybWrapper, 0x10, 0xE, 0, 0, 1⟩ := by
  simp [initIdt, Idt.forEach_apply, gate_setIdtEntry, gate_assignReserved3, gate_initIdtEntry]

lemma gate_initIdt_rtc : gate (initIdt h idt 0x28) = ⟨h.rtcWrapper, 0x10, 0xE, 0, 0, 1⟩ := by
  simp [initIdt, Idt.forEach_apply, gate_setIdtEntry, gate_assignReserved3, gate_initIdtEntry]

lemma gate_initIdt_syscall :
    gate (initIdt h idt 0x80) = ⟨h.syscallLinkage, 0x10, 0xF, 0, 3, 1⟩ := by
  simp [initIdt, Idt.forEach_apply, gate_setIdtEntry, gate_assignDpl, gate_initIdtEntry]

/-- Only the gate of the system calls is open to user code. -/
lemma dpl_initIdt {n : Byte} (hn : n ≠ 0x80#8) : (gate (initIdt h idt n.toNat)).dpl = 0 := by
  have hlt : n.toNat < 256 := n.isLt
  have h80 : n.toNat ≠ 0x80 := fun heq => hn (BitVec.eq_of_toNat_eq heq)
  by_cases h20 : n.toNat = 0x20
  · rw [h20, gate_initIdt_pit]
  by_cases h21 : n.toNat = 0x21
  · rw [h21, gate_initIdt_keyb]
  by_cases h28 : n.toNat = 0x28
  · rw [h28, gate_initIdt_rtc]
  rw [gate_initIdt_of_ne hlt h20 h21 h28 h80]

/-- Through the gates of the exceptions. A vector that Intel reserves has the handler of the
reserved one. -/
lemma exception_entry {n : Byte} (hn : n < 32#8) (cpl : BitVec 2) (flag : Bool) :
    (initIdt h idt).interrupt cpl flag (.exception n) =
      some ⟨0x10, h.exceptionHandlerTable (if n < 20#8 then Fin.ofNat 20 n.toNat else 15),
        flag⟩ := by
  have hlt : n.toNat < 32 := hn
  have hiff : n < 20#8 ↔ n.toNat < 20 := Iff.rfl
  have hgate : gate (initIdt h idt n.toNat) = _ :=
    gate_initIdt_of_ne (by omega) (by omega) (by omega) (by omega) (by omega)
  simp only [Idt.interrupt, Idt.enter, hgate, hiff, if_pos hlt]
  split_ifs <;> simp_all

/-- Of the `int` instructions only `int 0x80` gets user code into the kernel by its own gate; each
other one is a general protection exception. -/
lemma user_int_entry (n : Byte) (flag : Bool) :
    (initIdt h idt).interrupt 3 flag (.software n) =
      some ⟨0x10, if n = 0x80#8 then h.syscallLinkage else h.exceptionHandlerTable 13, flag⟩ := by
  by_cases hn : n = 0x80#8
  · subst hn
    simp [Idt.interrupt, Idt.enter, gate_initIdt_syscall]
  · have hgate : gate (initIdt h idt 13) =
        ⟨h.exceptionHandlerTable 13, 0x10, 0xF, 0, 0, 1⟩ :=
      gate_initIdt_of_ne (by omega) (by omega) (by omega) (by omega) (by omega)
    simp [Idt.interrupt, Idt.enter, dpl_initIdt hn, hgate, hn]

/-- Whatever was in the table and wherever the handlers lie, user code gets into the kernel by
`int 0x80` or by an exception, its own or the general protection one for another `int`; neither
turns interrupts off. -/
theorem user_entry (h : Handlers) (idt : Idt) (flag : Bool) :
    (∀ n, (initIdt h idt).interrupt 3 flag (.software n) =
      some ⟨0x10, if n = 0x80#8 then h.syscallLinkage else h.exceptionHandlerTable 13, flag⟩) ∧
    ∀ n < 32#8, (initIdt h idt).interrupt 3 flag (.exception n) =
      some ⟨0x10, h.exceptionHandlerTable (if n < 20#8 then Fin.ofNat 20 n.toNat else 15),
        flag⟩ :=
  ⟨fun n => user_int_entry n flag, fun _ hn => exception_entry hn 3 flag⟩

/-- The handler of a line. -/
def Handlers.device (h : Handlers) : Line → Option Word
  | .master 0 => some h.pitWrapper
  | .master 1 => some h.keybWrapper
  | .slave 0  => some h.rtcWrapper
  | _         => none

/-- Its gate. -/
lemma device_gate {l : Line} {w : Word} (hw : h.device l = some w) (cpl : BitVec 2)
    (flag : Bool) : (initIdt h idt).interrupt cpl flag (.external (Board.vector l)) =
      some ⟨0x10, w, false⟩ := by
  unfold Handlers.device at hw
  split at hw
  · obtain rfl := Option.some.inj hw
    change (initIdt h idt).enter flag 0x20 = _
    simp [Idt.enter, gate_initIdt_pit]
  · obtain rfl := Option.some.inj hw
    change (initIdt h idt).enter flag 0x21 = _
    simp [Idt.enter, gate_initIdt_keyb]
  · obtain rfl := Option.some.inj hw
    change (initIdt h idt).enter flag 0x28 = _
    simp [Idt.enter, gate_initIdt_rtc]
  · cases hw

/-- What `i8259_init`, `init_pit`, `init_keyb` and `init_rtc` do to the interrupt controllers. -/
def Board.bootIrqs (b : Board) : Option Board := do
  let b ← b.i8259Init
  let b ← b.enableIrq 0#32
  let b ← b.enableIrq 1#32
  b.enableIrq 8#32

/-- What they open. -/
def openLines : Set Line := {.slave 0, .master 1, .master 0, .master 2}

lemma bootIrqs_ready {b : Board} (hm : b.pair.master.stage = .ready)
    (hs : b.pair.slave.stage = .ready) (hmm : b.masterMask = 0) (hsm : b.slaveMask = 0) :
    ∃ b₀, b.bootIrqs = some b₀ ∧ b₀.Ready ∧ b₀.controller = ⟨openLines, ∅, ∅⟩ := by
  obtain ⟨b₁, h₁, hready₁, hc₁⟩ := Board.initialised_ready.enableIrq (.master 0)
  obtain ⟨b₂, h₂, hready₂, hc₂⟩ := hready₁.enableIrq (.master 1)
  obtain ⟨b₃, h₃, hready₃, hc₃⟩ := hready₂.enableIrq (.slave 0)
  refine ⟨b₃, ?_, hready₃, ?_⟩
  · have hpit : Board.initialised.enableIrq 0#32 = some b₁ := h₁
    have hkeyb : b₁.enableIrq 1#32 = some b₂ := h₂
    have hrtc : b₂.enableIrq 8#32 = some b₃ := h₃
    simp only [Board.bootIrqs, Board.i8259Init_eq hm hs hmm hsm, Option.bind_eq_bind,
      Option.bind_some, hpit, hkeyb, hrtc]
  · rw [hc₃, hc₂, hc₁, Board.initialised_controller]
    rfl

/-- From the moment the three devices are open, whatever they raise and whenever their handlers
finish, the processor is only ever sent to the PIT's, the keyboard's or the RTC's wrapper, to the
one of the line it acknowledged, with interrupts off. -/
theorem device_entry (h : Handlers) (idt : Idt) {b : Board}
    (hm : b.pair.master.stage = .ready)
    (hs : b.pair.slave.stage = .ready) (hmm : b.masterMask = 0) (hsm : b.slaveMask = 0)
    {es : List (Controller.Event × Option Line)} {c : Controller}
    (hes : ∀ e ∈ es, ¬ e.1.Masks) (hrun : Controller.Run 2 ⟨openLines, ∅, ∅⟩ es c) :
    ∃ b₀ b', b.bootIrqs = some b₀ ∧
      b₀.Run (es.map (Prod.map id (Option.map Board.vector))) b' ∧ b'.controller = c ∧
      ∀ e ∈ es, ∀ l, e.2 = some l → ∃ w, h.device l = some w ∧ ∀ cpl flag,
        (initIdt h idt).interrupt cpl flag (.external (Board.vector l)) =
          some ⟨0x10, w, false⟩ := by
  obtain ⟨b₀, hb₀, hready, hc₀⟩ := bootIrqs_ready hm hs hmm hsm
  rw [← hc₀] at hrun
  obtain ⟨b', hrun', -, hc⟩ := hready.run hrun
  refine ⟨b₀, b', hb₀, hrun', hc, fun e he l hl => ?_⟩
  obtain ⟨hopen, hne⟩ := Controller.accepted_mem_enabled hrun (by simp [hc₀]) hes e he l hl
  rw [hc₀] at hopen
  rcases hopen with rfl | rfl | rfl | rfl
  · exact ⟨h.rtcWrapper, rfl, fun cpl flag => device_gate rfl cpl flag⟩
  · exact ⟨h.keybWrapper, rfl, fun cpl flag => device_gate rfl cpl flag⟩
  · exact ⟨h.pitWrapper, rfl, fun cpl flag => device_gate rfl cpl flag⟩
  · exact absurd rfl hne

/-- The RTC's line alone is pending. -/
lemma accepts_slave_zero : Controller.Accepts 2 ⟨openLines, {.slave 0}, ∅⟩ (.slave 0) where
  asks := ⟨rfl, .inl rfl, .inr (.inr (.inr rfl))⟩
  first := by
    rintro l' ⟨hl', -, -⟩ (hlt | ⟨-, hlt⟩) <;>
    · cases hl'
      exact lt_irrefl _ hlt
  above := by simp

/-- The RTC raises its line and its handler finishes. -/
theorem device_entry_rtc :
    ∃ b₀ b', Board.leftBoard.bootIrqs = some b₀ ∧
      b₀.Run [(.request (.slave 0), none), (.acknowledge, some 0x28), (.finish (.slave 0), none)]
        b' ∧
      (initIdt ⟨fun _ => 0, 1, 2, 3, 4⟩ fun _ => 0).interrupt 3 true (.external 0x28) =
        some ⟨0x10, 3, false⟩ := by
  have hrun : ∃ c, Controller.Run 2 ⟨openLines, ∅, ∅⟩
      [(.request (.slave 0), none), (.acknowledge, some (.slave 0)),
        (.finish (.slave 0), none)] c :=
    ⟨_, .cons (.request _ _ (by decide)) (.cons (.accept _ _ (by simpa using accepts_slave_zero))
      (.cons (.finish _ _ (by simp [Controller.accept])) (.refl _)))⟩
  obtain ⟨c, hrun⟩ := hrun
  obtain ⟨b₀, b', h₀, hb', -, hentry⟩ :=
    device_entry ⟨fun _ => 0, 1, 2, 3, 4⟩ (fun _ => 0) (b := Board.leftBoard) rfl rfl rfl rfl
      (by simp [Controller.Event.Masks]) hrun
  obtain ⟨w, hw, hentry⟩ := hentry _ (.tail _ (.head _)) (.slave 0) rfl
  cases hw
  exact ⟨b₀, b', h₀, hb', hentry 3 true⟩

end Osgods
