import Osgods.Types
import Osgods.Library.Pic

/-!
# The interrupt controllers (`i8259.c`)

The driver and the two chips it programs through their ports. The initialisation sends the fourth
word to the second chip only: the first one takes the first mask of the loop that follows, `0x01`
for the masked line 0, as its own, and this happens to ask for the 8086 mode. From there on the
board is a controller of sixteen lines, with the vectors `0x20`, …, `0x2F`.
-/

namespace Osgods

open Pic

/-- The two chips and the masks that the driver keeps of them. -/
structure Board where
  pair       : Pair
  masterMask : Byte
  slaveMask  : Byte
deriving DecidableEq, Repr

/-- The registers of the two chips by their ports. -/
inductive I8259Port where
  | master0
  | master1
  | slave0
  | slave1

namespace Board

def outb (data : Byte) (port : I8259Port) (b : Board) : Option Board :=
  match port with
  | .master0 =>
    (b.pair.master.command data).map fun c => { b with pair := { b.pair with master := c } }
  | .master1 =>
    (b.pair.master.data data).map fun c => { b with pair := { b.pair with master := c } }
  | .slave0  =>
    (b.pair.slave.command data).map fun c => { b with pair := { b.pair with slave := c } }
  | .slave1  =>
    (b.pair.slave.data data).map fun c => { b with pair := { b.pair with slave := c } }

/-- The masks are bytes, the shifted bit is an `int`. -/
def enableIrq (irqNum : Word) (b : Board) : Option Board :=
  if 8#32 ≤ irqNum then
    let slaveMask := (b.slaveMask.setWidth 32 &&& ~~~ (1#32 <<< (irqNum - 8#32).toNat)).setWidth 8
    { b with slaveMask := slaveMask }.outb slaveMask .slave1
  else
    let masterMask := (b.masterMask.setWidth 32 &&& ~~~ (1#32 <<< irqNum.toNat)).setWidth 8
    { b with masterMask := masterMask }.outb masterMask .master1

def disableIrq (irqNum : Word) (b : Board) : Option Board :=
  if 8#32 ≤ irqNum then
    let slaveMask := (b.slaveMask.setWidth 32 ||| 1#32 <<< (irqNum - 8#32).toNat).setWidth 8
    { b with slaveMask := slaveMask }.outb slaveMask .slave1
  else
    let masterMask := (b.masterMask.setWidth 32 ||| 1#32 <<< irqNum.toNat).setWidth 8
    { b with masterMask := masterMask }.outb masterMask .master1

def sendEoi (irqNum : Word) (b : Board) : Option Board :=
  if 8#32 ≤ irqNum then
    (b.outb ((0x60#32 ||| (irqNum - 8#32)).setWidth 8) .slave0).bind
      (outb ((0x60#32 ||| 2#32).setWidth 8) .master0)
  else
    b.outb ((0x60#32 ||| irqNum).setWidth 8) .master0

/-- A turn of the loop of `i8259_init`. -/
def i8259InitLine (b : Board) (i : ℕ) : Option Board :=
  if i = 2 then b.enableIrq 2#32 else b.disableIrq (BitVec.ofNat 32 i)

/-- The words that `i8259_init` sends before its loop: masks, then the initialisation of each
chip, the first one's without a fourth word. -/
def i8259Words (b : Board) : Option Board := do
  let b ← b.outb 0xFF .master1
  let b ← b.outb 0xFF .slave1
  let b ← b.outb 0x11 .master0
  let b ← b.outb 0x20 .master1
  let b ← b.outb 0x04 .master1
  let b ← b.outb 0x11 .slave0
  let b ← b.outb 0x28 .slave1
  let b ← b.outb 0x02 .slave1
  b.outb 0x01 .slave1

/-- Interrupts are off meanwhile. -/
def i8259Init (b : Board) : Option Board := do
  let b ← b.i8259Words
  (List.range 16).foldlM i8259InitLine b

end Board

/-- The number of a line. -/
def Line.irq : Line → Word
  | .master n => BitVec.ofNat 32 n
  | .slave n  => BitVec.ofNat 32 (8 + n)

namespace Board

/-- An event at the board: a call of the driver, a request of a device, or an acknowledge cycle of
the processor, with the vector that it reads. -/
def react (b : Board) : Controller.Event → Option (Option Byte × Board)
  | .enable l    => (b.enableIrq (Line.irq l)).map (none, ·)
  | .disable l   => (b.disableIrq (Line.irq l)).map (none, ·)
  | .request l   => some (none, { b with pair := b.pair.request l })
  | .acknowledge => (b.pair.acknowledge 2).map fun r => (r.1, { b with pair := r.2 })
  | .finish l    => (b.sendEoi (Line.irq l)).map (none, ·)

/-- A run of the board, with what each event gave the processor. -/
abbrev Run : Board → List (Controller.Event × Option Byte) → Board → Prop :=
  Transition.Run fun b e b' => b.react e.1 = some (e.2, b')

/-- The vector of a line. -/
def vector : Line → Byte := Pair.vector 0x20 0x28

/-- What `i8259_init` establishes: the masks that the driver keeps are those of the chips. -/
structure Ready (b : Board) : Prop where
  sound  : b.pair.Sound 2 0x20 0x28
  master : b.masterMask = b.pair.master.imr
  slave  : b.slaveMask = b.pair.slave.imr

/-- The controller that the board implements. -/
def controller (b : Board) : Controller := b.pair.controller 2

variable {b : Board} {l : Line}

lemma setWidth_bit (n : Fin 8) : (1#32 <<< n.val).setWidth 8 = 1#8 <<< n.val := by
  revert n
  decide

lemma setWidth_not_bit (n : Fin 8) : (~~~ (1#32 <<< n.val)).setWidth 8 = ~~~ (1#8 <<< n.val) := by
  revert n
  decide

lemma down_of_word (m : Byte) (n : Fin 8) :
    (m.setWidth 32 &&& ~~~ (1#32 <<< n.val)).setWidth 8 = down m n := by
  rw [BitVec.setWidth_and, setWidth_not_bit, BitVec.setWidth_setWidth_of_le m (by decide),
    BitVec.setWidth_eq, down]

lemma up_of_word (m : Byte) (n : Fin 8) :
    (m.setWidth 32 ||| 1#32 <<< n.val).setWidth 8 = up m n := by
  rw [BitVec.setWidth_or, setWidth_bit, BitVec.setWidth_setWidth_of_le m (by decide),
    BitVec.setWidth_eq, up]

lemma master_irq (n : Fin 8) :
    ¬ 8#32 ≤ Line.irq (.master n) ∧ (Line.irq (.master n)).toNat = n ∧
      (0x60#32 ||| Line.irq (.master n)).setWidth 8 = 0x60#8 ||| BitVec.ofNat 8 n := by
  revert n
  decide

lemma slave_irq (n : Fin 8) :
    8#32 ≤ Line.irq (.slave n) ∧ (Line.irq (.slave n) - 8#32).toNat = n ∧
      (0x60#32 ||| (Line.irq (.slave n) - 8#32)).setWidth 8 = 0x60#8 ||| BitVec.ofNat 8 n := by
  revert n
  decide

namespace Ready

/-- The driver's masks are the chips', so a call changes one bit of one of them. -/
lemma enableIrq (h : b.Ready) (l : Line) :
    ∃ b', b.enableIrq (Line.irq l) = some b' ∧ b'.Ready ∧
      b'.controller = { b.controller with enabled := insert l b.controller.enabled } := by
  obtain ⟨hsound, hcontroller⟩ := h.sound.enable l
  cases l with
  | master n =>
    obtain ⟨hirq, htoNat, -⟩ := master_irq n
    refine ⟨⟨_, _, _⟩, ?_, ⟨hsound, rfl, h.slave⟩, hcontroller⟩
    simp only [Board.enableIrq, if_neg hirq, htoNat, down_of_word, outb, Chip.data,
      h.sound.master.stage, h.master, Option.map_some]
    rfl
  | slave n =>
    obtain ⟨hirq, htoNat, -⟩ := slave_irq n
    refine ⟨⟨_, _, _⟩, ?_, ⟨hsound, h.master, rfl⟩, hcontroller⟩
    simp only [Board.enableIrq, if_pos hirq, htoNat, down_of_word, outb, Chip.data,
      h.sound.slave.stage, h.slave, Option.map_some]
    rfl

lemma disableIrq (h : b.Ready) (l : Line) :
    ∃ b', b.disableIrq (Line.irq l) = some b' ∧ b'.Ready ∧
      b'.controller = { b.controller with enabled := b.controller.enabled \ {l} } := by
  obtain ⟨hsound, hcontroller⟩ := h.sound.disable l
  cases l with
  | master n =>
    obtain ⟨hirq, htoNat, -⟩ := master_irq n
    refine ⟨⟨_, _, _⟩, ?_, ⟨hsound, rfl, h.slave⟩, hcontroller⟩
    simp only [Board.disableIrq, if_neg hirq, htoNat, up_of_word, outb, Chip.data,
      h.sound.master.stage, h.master, Option.map_some]
    rfl
  | slave n =>
    obtain ⟨hirq, htoNat, -⟩ := slave_irq n
    refine ⟨⟨_, _, _⟩, ?_, ⟨hsound, h.master, rfl⟩, hcontroller⟩
    simp only [Board.disableIrq, if_pos hirq, htoNat, up_of_word, outb, Chip.data,
      h.sound.slave.stage, h.slave, Option.map_some]
    rfl

/-- One word ends a line of the first chip, two a line of the second. -/
lemma sendEoi (h : b.Ready) (hl : l ∈ b.controller.inService) :
    ∃ b', b.sendEoi (Line.irq l) = some b' ∧ b'.Ready ∧
      b'.controller = { b.controller with inService := b.controller.inService \ {l} } := by
  cases l with
  | master n =>
    obtain ⟨hsound, hcontroller⟩ := h.sound.finish_master hl
    obtain ⟨hirq, -, hword⟩ := master_irq n
    refine ⟨⟨_, _, _⟩, ?_, ⟨hsound, h.master, h.slave⟩, hcontroller⟩
    simp only [Board.sendEoi, if_neg hirq, hword, outb,
      Chip.command_finish h.sound.master.stage, Option.map_some]
  | slave n =>
    obtain ⟨hsound, hcontroller⟩ := h.sound.finish_slave hl
    obtain ⟨hirq, -, hword⟩ := slave_irq n
    have hcascade : (0x60#32 ||| 2#32).setWidth 8 = 0x60#8 ||| BitVec.ofNat 8 (2 : Fin 8) := by
      decide
    refine ⟨⟨_, _, _⟩, ?_, ⟨hsound, h.master, h.slave⟩, hcontroller⟩
    simp only [Board.sendEoi, if_pos hirq, hword, hcascade, outb,
      Chip.command_finish h.sound.slave.stage, Chip.command_finish h.sound.master.stage,
      Option.map_some, Option.bind_some]

/-- Each event at the board is the controller's. -/
theorem react (h : b.Ready) {e : Controller.Event} {o : Option Line} {c : Controller}
    (hstep : Controller.Step 2 b.controller e o c) :
    ∃ b', b.react e = some (o.map vector, b') ∧ b'.Ready ∧ b'.controller = c := by
  cases hstep with
  | enable l =>
    obtain ⟨b', hb, hready, hcontroller⟩ := h.enableIrq l
    exact ⟨b', by rw [Board.react, hb]; rfl, hready, hcontroller⟩
  | disable l =>
    obtain ⟨b', hb, hready, hcontroller⟩ := h.disableIrq l
    exact ⟨b', by rw [Board.react, hb]; rfl, hready, hcontroller⟩
  | request l hl =>
    obtain ⟨hsound, hcontroller⟩ := h.sound.request hl
    refine ⟨_, rfl, ⟨hsound, ?_, ?_⟩, hcontroller⟩
    · cases l <;> exact h.master
    · cases l <;> exact h.slave
  | accept l hl =>
    rcases h.sound.acknowledge_spec with ⟨l', p', hp, hl', hcontroller, hsound⟩ | ⟨-, hnone⟩
    · obtain rfl := Controller.Accepts.unique (c := b.controller) (fun hk => hk.1 rfl) hl hl'
      obtain ⟨hmaster, hslave⟩ := Pair.acknowledge_masks hp
      refine ⟨{ b with pair := p' }, by rw [Board.react, hp]; rfl, ⟨hsound, ?_, ?_⟩,
        hcontroller⟩
      · rw [hmaster]
        exact h.master
      · rw [hslave]
        exact h.slave
    · exact absurd hl (hnone l)
  | idle hnone =>
    rcases h.sound.acknowledge_spec with ⟨l', p', -, hl', -⟩ | ⟨hp, -⟩
    · exact absurd hl' (hnone l')
    · exact ⟨b, by rw [Board.react, hp]; rfl, h, rfl⟩
  | finish l hl =>
    obtain ⟨b', hb, hready, hcontroller⟩ := h.sendEoi hl
    exact ⟨b', by rw [Board.react, hb]; rfl, hready, hcontroller⟩

/-- Each run of the board is the controller's. -/
theorem run (h : b.Ready) {es : List (Controller.Event × Option Line)} {c : Controller}
    (hrun : Controller.Run 2 b.controller es c) :
    ∃ b', b.Run (es.map (Prod.map id (Option.map vector))) b' ∧ b'.Ready ∧
      b'.controller = c := by
  induction es generalizing b with
  | nil =>
    rw [Controller.Run, Transition.run_nil] at hrun
    exact ⟨b, .refl b, h, hrun⟩
  | cons e es ih =>
    obtain ⟨c', hstep, hrest⟩ := Transition.run_cons.mp hrun
    obtain ⟨b', hb, hready, hc'⟩ := h.react hstep
    rw [← hc'] at hrest
    obtain ⟨b'', hrun', hready', hc⟩ := ih hready hrest
    exact ⟨b'', .cons hb hrun', hready', hc⟩

end Ready

/-- What the initialisation words leave: the first chip still waits for its fourth one. -/
def programmed : Board where
  pair.master :=
    ⟨.icw4, true, false, 0x20, 0x04, false, false, 0, 0, 0⟩
  pair.slave :=
    ⟨.ready, true, false, 0x28, 0x02, true, false, 0, 0, 0⟩
  masterMask := 0
  slaveMask := 0

/-- What the loop leaves: the mask of line 0 has been taken for the fourth word. -/
def initialised : Board where
  pair.master :=
    ⟨.ready, true, false, 0x20, 0x04, true, false, 0, 0xFB, 0⟩
  pair.slave :=
    ⟨.ready, true, false, 0x28, 0x02, true, false, 0, 0xFF, 0⟩
  masterMask := 0xFB
  slaveMask := 0xFF

lemma initialised_ready : initialised.Ready :=
  ⟨⟨⟨rfl, rfl, rfl, rfl, rfl⟩, ⟨rfl, rfl, rfl, rfl, rfl⟩, by decide, by decide⟩, rfl, rfl⟩

lemma initialised_controller : initialised.controller = ⟨{.master 2}, ∅, ∅⟩ := by
  apply Controller.ext <;> ext l
  · cases l with
    | master n =>
      change (0xFB#8).getLsbD n = false ↔ Line.master n = .master 2
      revert n
      decide
    | slave n =>
      change (0xFF#8).getLsbD n = false ↔ Line.slave n = .master 2
      revert n
      decide
  · cases l <;> simp [controller, initialised]
  · cases l <;> simp [controller, initialised]

lemma i8259Words_eq (hm : b.pair.master.stage = .ready) (hs : b.pair.slave.stage = .ready)
    (hmm : b.masterMask = 0) (hsm : b.slaveMask = 0) : b.i8259Words = some programmed := by
  obtain ⟨⟨⟨_, mneed, msingle, mbase, mcascade, mmode, mauto, mirr, mimr, misr⟩,
    ⟨_, sneed, ssingle, sbase, scascade, smode, sauto, sirr, simr, sisr⟩⟩, _, _⟩ := b
  subst hm hs hmm hsm
  rfl

lemma i8259Init_eq (hm : b.pair.master.stage = .ready) (hs : b.pair.slave.stage = .ready)
    (hmm : b.masterMask = 0) (hsm : b.slaveMask = 0) : b.i8259Init = some initialised := by
  have hloop : (List.range 16).foldlM i8259InitLine programmed = some initialised := by
    decide +kernel
  rw [i8259Init, i8259Words_eq hm hs hmm hsm, Option.bind_eq_bind, Option.bind_some, hloop]

/-- After `i8259_init` only the cascade is open, and whatever the driver, the devices and the
processor then do, the board answers as the controller of sixteen lines does: it never delivers a
masked line, always the first in the order of priorities, never one below what is in service, and
the vector is the line's own. -/
theorem i8259_refines (hm : b.pair.master.stage = .ready) (hs : b.pair.slave.stage = .ready)
    (hmm : b.masterMask = 0) (hsm : b.slaveMask = 0)
    {es : List (Controller.Event × Option Line)} {c : Controller}
    (hrun : Controller.Run 2 ⟨{.master 2}, ∅, ∅⟩ es c) :
    ∃ b₀ b', b.i8259Init = some b₀ ∧ b₀.Run (es.map (Prod.map id (Option.map vector))) b' ∧
      b'.Ready ∧ b'.controller = c := by
  rw [← initialised_controller] at hrun
  obtain ⟨b', hb', hready, hc⟩ := initialised_ready.run hrun
  exact ⟨initialised, b', i8259Init_eq hm hs hmm hsm, hb', hready, hc⟩

/-- The RTC's line is opened, raised, delivered as vector `0x28` and finished, on a board that was
left with other masks and a request of its own. -/
def leftBoard : Board where
  pair.master :=
    ⟨.ready, true, false, 0x08, 0x04, true, false, 0x01, 0xB8, 0x02⟩
  pair.slave :=
    ⟨.ready, true, false, 0x70, 0x02, true, false, 0x00, 0x8F, 0x00⟩
  masterMask := 0
  slaveMask := 0

/-- The RTC's line is the only one that asks. -/
lemma accepts_rtc :
    Controller.Accepts 2 ⟨{.slave 0, .master 2}, {.slave 0}, ∅⟩ (.slave 0) where
  asks := ⟨rfl, .inl rfl, .inr rfl⟩
  first := by
    rintro l' ⟨hl', -, -⟩ (hlt | ⟨-, hlt⟩)
    · cases hl'
      exact lt_irrefl _ hlt
    · cases hl'
      exact lt_irrefl _ hlt
  above := by simp

theorem i8259_refines_rtc :
    ∃ b₀ b', leftBoard.i8259Init = some b₀ ∧
      b₀.Run [(.enable (.slave 0), none), (.request (.slave 0), none),
        (.acknowledge, some 0x28), (.finish (.slave 0), none)] b' ∧ b'.Ready := by
  have hrun : ∃ c, Controller.Run 2 ⟨{.master 2}, ∅, ∅⟩
      [(.enable (.slave 0), none), (.request (.slave 0), none),
        (.acknowledge, some (.slave 0)), (.finish (.slave 0), none)] c :=
    ⟨_, .cons (.enable _ _) (.cons (.request _ _ (by decide)) (.cons
      (.accept _ _ (by simpa using accepts_rtc))
      (.cons (.finish _ _ (by simp [Controller.accept])) (.refl _))))⟩
  obtain ⟨c, hrun⟩ := hrun
  obtain ⟨b₀, b', h₀, hb', hready, -⟩ :=
    i8259_refines (b := leftBoard) rfl rfl rfl rfl hrun
  exact ⟨b₀, b', h₀, hb', hready⟩

end Board

end Osgods
