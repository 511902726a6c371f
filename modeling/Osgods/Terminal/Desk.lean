import Osgods.Terminal.SavedLines
import Osgods.Terminal.Lines

/-!
# The keyboard handler, cut where it lets ticks in

`terminal_switch` and `update_keyb_buf` turn interrupts on again before `curr_terminal_num` is that
of the new terminal, and so does the end of every keyboard interrupt before its EOI. A PIT tick may
come at each of these points; the handler then waits with the process that it has interrupted, and
no other key comes before it has gone on. Lines are saved in the rows of
`Osgods.Terminal.SavedLines`, beside the kernel stacks. The desk has all that decides what a read
returns; the screen and the processes are added in `Osgods.Terminal.Station`.
-/

namespace Osgods

open Transition

/-! ### States -/

/-- The statements of a keyboard interrupt that a tick may come before: the call of
`update_keyb_buf`, the assignment to `curr_terminal_num` and the call of `memory_switch` in
`terminal_switch`, and what follows the `sti` at the label `end`. -/
inductive HandlerStage where
  | updateKeybBuf (next : Tid)
  | setNum (next : Tid)
  | memorySwitch
  | finish
  deriving DecidableEq

/-- The terminal that a switch goes to while `curr_terminal_num` is still the other. -/
def HandlerStage.target : HandlerStage → Option Tid
  | .updateKeybBuf next => some next
  | .setNum next        => some next
  | .memorySwitch       => none
  | .finish             => none

/-- `display` is `curr_terminal_num`. `handler` is the terminal whose process a keyboard interrupt
has come to, with the next statement of the handler. -/
structure Desk extends LineState where
  status     : Status
  readEnable : Bool
  scheduled  : Tid
  handler    : Option (Tid × HandlerStage)

/-- The stack operations are those of `LineAction`; an interrupt and its return are some of them,
beside the `key` and the `tick`. A `read` is the rest of `terminal_read` after its wait. -/
inductive DeskMove where
  | key (code : Byte)
  | statement
  | tick (regs : Regs)
  | write (bytes : List Byte)
  | read
  | push (p : Slot) (bytes : List Byte)
  | store (p : Slot) (x : ℕ) (b : Byte)
  | pop (p : Slot) (n : ℕ)

/-- What a move is when a switch is one step and the stacks are left out. -/
def DeskMove.action : DeskMove → Option Machine.Action
  | .key code    => some (.key code)
  | .tick regs   => some (.tick regs)
  | .write bytes => some (.write bytes)
  | .read        => some .read
  | .statement   => none
  | .push _ _    => none
  | .store _ _ _ => none
  | .pop _ _     => none

namespace Desk

variable (B : BootFrame)

def keyboard (d : Desk) : Keyboard := ⟨d.status, d.keys, d.rowBuffer B, d.readEnable, false⟩

/-! ### Steps -/

/-- `terminal_switch` up to the `sti` behind its loop. -/
def terminalSwitch (next : Tid) (d : Desk) : Desk :=
  if d.display = next then { d with handler := some (d.scheduled, .finish) }
  else
    { d with
      toLineState := d.saveLine B
      handler     := some (d.scheduled, .updateKeybBuf next) }

/-- The handler until it turns interrupts on. -/
def key (code : Byte) (d : Desk) : Desk :=
  match keyOf d.status code with
  | .modifier status => { d with status := status, handler := some (d.scheduled, .finish) }
  | .switch next     => d.terminalSwitch B next
  | .char ch         =>
    { d with
      keys       := d.keys.charKey ch
      readEnable := d.readEnable || ch = chNewline
      handler    := some (d.scheduled, .finish) }
  | .clear           => { d with handler := some (d.scheduled, .finish) }
  | .other           => { d with handler := some (d.scheduled, .finish) }

/-- The next statement of the handler; the last one ends with the EOI. -/
def statement (t : Tid) (d : Desk) : HandlerStage → Desk
  | .updateKeybBuf next =>
    { d with
      keys    := (d.rowBuffer B next).replace d.keys
      handler := some (t, .setNum next) }
  | .setNum next        => { d with display := next, handler := some (t, .memorySwitch) }
  | .memorySwitch       => { d with handler := some (t, .finish) }
  | .finish             => { d with handler := none }

/-- The process that runs is not in the keyboard handler. -/
def Idle (d : Desk) : Prop := ∀ r ∈ d.handler, r.1 ≠ d.scheduled

instance (d : Desk) : Decidable d.Idle := inferInstanceAs (Decidable (∀ _ ∈ _, _))

/-- The wait of `terminal_read` is over. -/
def ReadReady (d : Desk) : Prop := d.readEnable = true ∧ d.scheduled = d.display

instance (d : Desk) : Decidable d.ReadReady := inferInstanceAs (Decidable (_ ∧ _))

def lines (d : Desk) (a : LineAction) : Option Desk :=
  (lineStep B d.toLineState a).map fun s => { d with toLineState := s }

def step (d : Desk) : DeskMove → Option Desk
  | .key code     => if d.handler = none then some (d.key B code) else none
  | .statement    =>
    match d.handler with
    | none            => none
    | some (t, stage) => if t = d.scheduled then some (d.statement B t stage) else none
  | .tick _       => some { d with scheduled := d.scheduled + 1 }
  | .write _      => if d.Idle then some d else none
  | .read         =>
    if d.Idle ∧ d.ReadReady then some { d with keys := d.keys.clean, readEnable := false } else none
  | .push p bytes => d.lines B (.push p bytes)
  | .store p x b  => d.lines B (.store p x b)
  | .pop p n      => d.lines B (.pop p n)

/-- Nothing has been typed, and no process is in the kernel. -/
def boot (mem : ℕ → Byte) : Desk where
  mem        := mem
  esp        := stackTop
  keys       := ⟨fun _ => 0, 0⟩
  index      := fun _ => 0
  display    := 0
  status     := ⟨false, false, false, false⟩
  readEnable := false
  scheduled  := 0
  handler    := none

/-! ### What is typed and not read -/

/-- Until `update_keyb_buf` has been called, the line of the new terminal is still a saved one, and
then `curr_terminal_num` still has to follow. -/
def bank (d : Desk) : Bank Tid (List Byte) :=
  match d.handler with
  | some (_, .updateKeybBuf next) =>
    ⟨next, (d.rowBuffer B next).line, fun t => (d.rowBuffer B t).line⟩
  | some (_, .setNum next)        => (d.keyboard B).bank next
  | some (_, .memorySwitch)       => (d.keyboard B).bank d.display
  | some (_, .finish)             => (d.keyboard B).bank d.display
  | none                          => (d.keyboard B).bank d.display

def pending (d : Desk) (t : Tid) : List Byte := (d.bank B).view t

/-- The desk as three lines. -/
def typing (d : Desk) : Typing := ⟨d.status, (d.bank B).active, d.scheduled, d.pending B⟩

/-- A switch has saved the line of one terminal, and `curr_terminal_num` is not yet the other. -/
def target (d : Desk) : Option Tid := d.handler.bind fun r => r.2.target

/-- Process 0 keeps its kernel stack above the rows, and no read comes to the end of its wait within
a switch. -/
def Undisturbed (d : Desk) : DeskMove → Prop
  | .push p bytes => p = 0 → B.rows + 3 * keybBuffLen ≤ d.esp 0 - bytes.length
  | .read         => d.target = none
  | _             => True

instance (d : Desk) (a : DeskMove) : Decidable (d.Undisturbed B a) :=
  match a with
  | .push _ _    => inferInstanceAs (Decidable (_ → _))
  | .read        => inferInstanceAs (Decidable (_ = _))
  | .key _       => .isTrue trivial
  | .statement   => .isTrue trivial
  | .tick _      => .isTrue trivial
  | .write _     => .isTrue trivial
  | .store _ _ _ => .isTrue trivial
  | .pop _ _     => .isTrue trivial

/-- A key that is stored finds room. -/
def HasRoom (d : Desk) : DeskMove → Prop
  | .key code => (d.keyboard B).HasRoom (keyOf d.status code)
  | _         => True

end Desk

section

variable {B : BootFrame} {s s' : LineState} {d d' : Desk} {a : DeskMove} {t next : Tid}
  {code : Byte} {leave : List Byte → List Byte}

/-! ### The rows as lines -/

namespace LineState

lemma line_rowBuffer (hrows : ∀ j < keybBuffLen, s'.mem (B.row t + j) = s.mem (B.row t + j))
    (hindex : s'.index t = s.index t) (hle : s.index t ≤ keybBuffLen) :
    (s'.rowBuffer B t).line = (s.rowBuffer B t).line :=
  KeyBuffer.line_congr hindex fun j hj => hrows j (hj.trans_le hle)

/-- A save puts the live line in the row of the displayed terminal and leaves the others alone. -/
lemma line_saveLine (hkeys : s.keys.keybIndex ≤ keybBuffLen)
    (hindex : ∀ t, s.index t ≤ keybBuffLen) : (fun t => ((s.saveLine B).rowBuffer B t).line) =
      Function.update (fun t => (s.rowBuffer B t).line) s.display s.keys.line := by
  funext t
  by_cases ht : t = s.display
  · subst ht
    rw [Function.update_self]
    refine KeyBuffer.line_congr (Function.update_self ..) fun j hj => ?_
    exact overlay_of_mem hj
  · rw [Function.update_of_ne ht]
    refine line_rowBuffer (fun j hj => ?_) (Function.update_of_ne ht ..) (hindex t)
    exact overlay_of_not_mem (B.row_disjoint ht hj hkeys)

/-- A stack operation touches no buffer but through the memory. -/
lemma lineStep_buffers {a : LineAction} (hkey : ∀ key, a ≠ .key key) (hread : a ≠ .read)
    (hstep : lineStep B s a = some s') :
    s'.keys = s.keys ∧ s'.index = s.index ∧ s'.display = s.display := by
  cases a with
  | push p bytes =>
    simp only [lineStep] at hstep
    split_ifs at hstep
    cases hstep
    exact ⟨rfl, rfl, rfl⟩
  | store p x b =>
    simp only [lineStep] at hstep
    split_ifs at hstep
    cases hstep
    exact ⟨rfl, rfl, rfl⟩
  | pop p n =>
    simp only [lineStep] at hstep
    split_ifs at hstep
    cases hstep
    exact ⟨rfl, rfl, rfl⟩
  | data x b =>
    simp only [lineStep] at hstep
    split_ifs at hstep
    cases hstep
    exact ⟨rfl, rfl, rfl⟩
  | key key => exact absurd rfl (hkey key)
  | read => exact absurd rfl hread

end LineState

namespace Desk

/-! ### The invariant -/

/-- No buffer is longer than a row, and process 0 is above the rows. -/
structure Ok (B : BootFrame) (d : Desk) : Prop where
  lines : d.toLineState.Ok B
  keys  : d.keys.keybIndex ≤ keybBuffLen
  index : ∀ t, d.index t ≤ keybBuffLen

lemma boot_ok (mem : ℕ → Byte) : (boot mem).Ok B where
  lines := LineState.Booted.ok ⟨fun _ => rfl, rfl, fun _ => rfl, rfl⟩
  keys  := Nat.zero_le _
  index := fun _ => Nat.zero_le _

/-- Outside of a switch the bank is that of the keyboard. -/
lemma bank_of_target (h : d.target = none) : d.bank B = (d.keyboard B).bank d.display := by
  obtain ⟨s, status, enable, scheduled, handler⟩ := d
  cases handler with
  | none => rfl
  | some r =>
    obtain ⟨t, stage⟩ := r
    cases stage with
    | updateKeybBuf next => cases h
    | setNum next => cases h
    | memorySwitch => rfl
    | finish => rfl

lemma bank_of_handler (h : d.handler = none) : d.bank B = (d.keyboard B).bank d.display := by
  apply bank_of_target
  rw [target, h]
  rfl

lemma boot_typing (mem : ℕ → Byte) : (boot mem).typing B = Typing.boot := by
  ext1
  · rfl
  · rfl
  · rfl
  · funext t
    show (((boot mem).keyboard B).bank 0).view t = []
    rw [Bank.view]
    split_ifs <;> rfl

/-- A stack operation that keeps the rows. -/
lemma Ok.lines_step (h : d.Ok B) (act : LineAction) (hkey : ∀ key, act ≠ .key key)
    (hread : act ≠ .read) (hkeep : KeepsRows B d.toLineState act)
    (hstep : d.lines B act = some d') :
    d'.Ok B ∧ d'.typing B = d.typing B := by
  obtain ⟨s, hs, rfl⟩ := Option.map_eq_some_iff.mp hstep
  obtain ⟨hkeys, hindex, hdisplay⟩ := LineState.lineStep_buffers hkey hread hs
  have hrow : ∀ t, (s.rowBuffer B t).line = (d.rowBuffer B t).line := by
    intro t
    refine LineState.line_rowBuffer (fun j hj => ?_) (congrFun hindex t) (h.index t)
    by_contra hne
    obtain ⟨next, rfl, -⟩ := h.lines.rowsKept hs hkeep t j hj hne
    exact hkey _ rfl
  refine ⟨⟨h.lines.step hs hkeep, ?_, ?_⟩, ?_⟩
  · rw [hkeys]
    exact h.keys
  · rw [hindex]
    exact h.index
  · have hbank : Desk.bank B { d with toLineState := s } = d.bank B := by
      simp only [bank, keyboard, Keyboard.bank, hkeys, hdisplay, hrow]
    unfold typing pending
    rw [hbank]

/-- The first part of the handler does to the bank what the whole handler does to that of the
keyboard. -/
lemma Ok.bank_key (h : d.Ok B) (code : Byte) : (d.key B code).bank B =
    ((d.keyboard B).handleKey d.display (keyOf d.status code)).bank
      ((keyOf d.status code).display d.display) := by
  rw [key]
  cases keyOf d.status code with
  | modifier status => rfl
  | switch next =>
    dsimp only [terminalSwitch, Keyboard.handleKey, Key.display]
    split_ifs with hsame
    · subst hsame
      rfl
    · have hsaved := LineState.line_saveLine h.keys h.index (B := B) (s := d.toLineState)
      rw [Keyboard.bank_switchBuffers]
      exact congrArg (fun saved => Bank.mk next (saved next) saved) hsaved
  | char ch =>
    obtain ⟨hkeys, hsaved⟩ := charKey_keys (d.keyboard B) ch
    simp only [Keyboard.handleKey, Key.display, Keyboard.bank, hkeys, hsaved]
    rfl
  | clear => rfl
  | other => rfl

/-- The rest of the handler leaves it alone. -/
lemma bank_statement {stage : HandlerStage} (hhandler : d.handler = some (t, stage)) (u : Tid) :
    (d.statement B u stage).bank B = d.bank B := by
  cases stage with
  | updateKeybBuf next =>
    obtain ⟨hkeys, -⟩ := updateKeybBuf_keys (d.keyboard B) (d.rowBuffer B next)
    have hline := Keyboard.updateKeybBuf_line (d.rowBuffer B next) (d.keyboard B)
    rw [hkeys] at hline
    rw [bank, bank, hhandler]
    exact congrArg (fun live => Bank.mk next live fun t => (d.rowBuffer B t).line) hline
  | setNum next =>
    rw [bank, bank, hhandler]
    rfl
  | memorySwitch =>
    rw [bank, bank, hhandler]
    rfl
  | finish =>
    rw [bank, bank, hhandler]
    rfl

/-! ### One step -/

/-- The modifiers, and the terminal that runs. -/
lemma key_press (d : Desk) (code : Byte) :
    (d.key B code).status = ((d.typing B).press (keyOf d.status code)).status ∧
      (d.key B code).scheduled = ((d.typing B).press (keyOf d.status code)).scheduled := by
  rw [key]
  cases keyOf d.status code with
  | modifier status => exact ⟨rfl, rfl⟩
  | switch next =>
    dsimp only [terminalSwitch]
    split_ifs <;> exact ⟨rfl, rfl⟩
  | char ch => exact ⟨rfl, rfl⟩
  | clear => exact ⟨rfl, rfl⟩
  | other => exact ⟨rfl, rfl⟩

lemma Ok.typing_key (h : d.Ok B) (hnone : d.handler = none) (code : Byte) :
    (d.key B code).typing B = (d.typing B).press (keyOf d.status code) := by
  have hbank : d.bank B = (d.keyboard B).bank d.display := bank_of_handler hnone
  have hdisplay : (d.typing B).display = d.display := congrArg Bank.active hbank
  have hline : (d.typing B).line = ((d.keyboard B).bank d.display).view := congrArg Bank.view hbank
  have hkey := h.bank_key code
  obtain ⟨hstatus, hscheduled⟩ := key_press (B := B) d code
  ext1
  · exact hstatus
  · exact (congrArg Bank.active hkey).trans (Typing.press_display _ hdisplay).symm
  · exact hscheduled
  · exact (congrArg Bank.view hkey).trans (Typing.press_line _ hdisplay hline).symm

/-- A read outside of a switch empties the line of its terminal. -/
lemma typing_read (leave : List Byte → List Byte) (h : d.target = none)
    (hsame : d.scheduled = d.display) (hleave : leave (d.pending B d.scheduled) = []) :
    typing B { d with keys := d.keys.clean, readEnable := false } =
      (d.typing B).step leave .read := by
  have hbank : d.bank B = (d.keyboard B).bank d.display := bank_of_target h
  have hread : bank B { d with keys := d.keys.clean, readEnable := false } =
      (d.bank B).modify fun _ => [] := by
    rw [hbank]
    exact bank_of_target h
  have hactive : (d.bank B).active = d.scheduled := by
    rw [hbank, hsame]
    rfl
  have hline := congrArg Bank.view hread
  rw [Bank.view_modify, hactive] at hline
  ext1
  · rfl
  · exact congrArg (fun b => b.active) hread
  · rfl
  · show (bank B { d with keys := d.keys.clean, readEnable := false }).view =
      Function.update (d.pending B) d.scheduled (leave (d.pending B d.scheduled))
    rw [hline, hleave]
    rfl

/-- A key that finds room keeps the buffers in their bounds. -/
lemma Ok.key (h : d.Ok B) (hroom : d.HasRoom B (.key code)) : (d.key B code).Ok B := by
  rw [Desk.HasRoom] at hroom
  rw [Desk.key]
  cases hkey : keyOf d.status code with
  | modifier status => exact ⟨h.lines, h.keys, h.index⟩
  | switch next =>
    dsimp only [Desk.terminalSwitch]
    split_ifs with hsame
    · exact ⟨h.lines, h.keys, h.index⟩
    · refine ⟨⟨h.lines.esp, h.lines.rows⟩, h.keys, fun t => ?_⟩
      rw [LineState.saveLine_index, Function.update_apply]
      split_ifs
      · exact h.keys
      · exact h.index t
  | char ch =>
    rw [hkey] at hroom
    refine ⟨⟨h.lines.esp, h.lines.rows⟩, ?_, h.index⟩
    have hkeys := h.keys
    dsimp only [KeyBuffer.charKey]
    split_ifs with hback hzero
    · exact hkeys
    · exact (Nat.sub_le _ _).trans hkeys
    · exact hroom.resolve_left hback
  | clear => exact ⟨h.lines, h.keys, h.index⟩
  | other => exact ⟨h.lines, h.keys, h.index⟩

lemma Ok.statement (h : d.Ok B) (t : Tid) (stage : HandlerStage) :
    (d.statement B t stage).Ok B := by
  cases stage with
  | updateKeybBuf next =>
    refine ⟨⟨h.lines.esp, h.lines.rows⟩, ?_, h.index⟩
    dsimp only [Desk.statement, KeyBuffer.replace]
    split_ifs
    · exact Nat.zero_le _
    · exact h.index next
  | setNum next => exact ⟨⟨h.lines.esp, h.lines.rows⟩, h.keys, h.index⟩
  | memorySwitch => exact ⟨h.lines, h.keys, h.index⟩
  | finish => exact ⟨h.lines, h.keys, h.index⟩

/-- Every step that meets the condition is one of the three lines, or none. -/
lemma Ok.step (h : d.Ok B) (hroom : d.HasRoom B a) (hundisturbed : d.Undisturbed B a)
    (hleave : a = .read → leave (d.pending B d.scheduled) = []) (hstep : d.step B a = some d') :
    d'.Ok B ∧ d'.typing B = a.action.elim (d.typing B) ((d.typing B).step leave) := by
  cases a with
  | key code =>
    simp only [Desk.step] at hstep
    split_ifs at hstep with hnone
    cases hstep
    exact ⟨h.key hroom, h.typing_key hnone code⟩
  | statement =>
    cases hhandler : d.handler with
    | none =>
      simp only [Desk.step, hhandler] at hstep
      cases hstep
    | some r =>
      obtain ⟨t, stage⟩ := r
      simp only [Desk.step, hhandler] at hstep
      split_ifs at hstep
      cases hstep
      refine ⟨h.statement t stage, ?_⟩
      have hbank := bank_statement (B := B) hhandler t
      ext1
      · cases stage <;> rfl
      · exact congrArg Bank.active hbank
      · cases stage <;> rfl
      · exact congrArg Bank.view hbank
  | tick regs =>
    cases hstep
    exact ⟨⟨h.lines, h.keys, h.index⟩, rfl⟩
  | write bytes =>
    simp only [Desk.step] at hstep
    split_ifs at hstep
    cases hstep
    exact ⟨h, rfl⟩
  | read =>
    simp only [Desk.step] at hstep
    split_ifs at hstep with hready
    cases hstep
    refine ⟨⟨⟨h.lines.esp, h.lines.rows⟩, Nat.zero_le _, h.index⟩, ?_⟩
    exact typing_read leave hundisturbed hready.2.2 (hleave rfl)
  | push p bytes => exact h.lines_step (.push p bytes) (by simp) (by simp) hundisturbed hstep
  | store p x b => exact h.lines_step (.store p x b) (by simp) (by simp) trivial hstep
  | pop p n => exact h.lines_step (.pop p n) (by simp) (by simp) trivial hstep

/-- The three lines follow every run whose steps meet the condition. -/
lemma Ok.run {P : Desk → DeskMove → Prop} {as : List DeskMove} (h : d.Ok B)
    (leave : List Byte → List Byte)
    (hP : ∀ d a d', d.step B a = some d' → P d a → d.HasRoom B a ∧ d.Undisturbed B a ∧
      (a = .read → leave (d.pending B d.scheduled) = []))
    (hrun : Run (Guarded (Graph (Desk.step B)) P) d as d') :
    d'.Ok B ∧
      d'.typing B = (as.filterMap DeskMove.action).foldl (Typing.step leave) (d.typing B) := by
  induction hrun with
  | refl => exact ⟨h, rfl⟩
  | @cons d d₁ d' a as hstep hrun ih =>
    obtain ⟨hroom, hundisturbed, hleave⟩ := hP _ _ _ hstep.1 hstep.2
    obtain ⟨h₁, htyping⟩ := h.step hroom hundisturbed hleave hstep.1
    obtain ⟨h', htyping'⟩ := ih h₁
    refine ⟨h', ?_⟩
    rw [htyping', htyping]
    cases haction : a.action with
    | none =>
      rw [List.filterMap_cons_none haction]
      rfl
    | some b =>
      rw [List.filterMap_cons_some haction]
      rfl

end Desk

end

end Osgods
