import Osgods.Terminal.KeyBuffer
import Osgods.Library.Bank

/-!
# What is typed and what is read

`Typing` is what the keyboard is for: three lines that have nothing to do with each other, one for
each terminal. The live buffer and the saved ones are a bank that stands for these lines, and every
step of the machine does to the bank what it does to them.
-/

namespace Osgods

open Transition

/-! ### Three lines -/

/-- A character is appended, a backspace drops the last one. -/
def edit (ch : Byte) (l : List Byte) : List Byte :=
  if ch = chBackspace then l.dropLast else l ++ [ch]

@[ext]
structure Typing where
  status    : Status
  display   : Tid
  scheduled : Tid
  line      : Tid → List Byte

namespace Typing

def boot : Typing := ⟨⟨false, false, false, false⟩, 0, 0, fun _ => []⟩

/-- A key edits the line of the displayed terminal. -/
def press (key : Key) (g : Typing) : Typing :=
  match key with
  | .modifier status => { g with status := status }
  | .switch next     => { g with display := next }
  | .char ch         =>
    { g with line := Function.update g.line g.display (edit ch (g.line g.display)) }
  | .clear           => g
  | .other           => g

/-- A read is one on the scheduled terminal, and `leave` is what it leaves of a line. -/
def step (leave : List Byte → List Byte) (g : Typing) : Machine.Action → Typing
  | .key code => g.press (keyOf g.status code)
  | .tick _   => { g with scheduled := g.scheduled + 1 }
  | .write _  => g
  | .read     => { g with line := Function.update g.line g.scheduled (leave (g.line g.scheduled)) }

def run (leave : List Byte → List Byte) (as : List Machine.Action) : Typing :=
  as.foldl (step leave) boot

end Typing

/-- A line ends with its only newline. -/
def IsLine (l : List Byte) : Prop := l.getLast? = some chNewline ∧ chNewline ∉ l.dropLast

instance (l : List Byte) : Decidable (IsLine l) := inferInstanceAs (Decidable (_ ∧ _))

/-- What is behind the first newline. -/
def afterLine (l : List Byte) : List Byte := (l.dropWhile fun ch => ch ≠ chNewline).tail

/-! ### The bank of buffers -/

def Keyboard.bank (display : Tid) (k : Keyboard) : Bank Tid (List Byte) where
  active := display
  live   := k.keys.line
  saved  := fun t => (k.saved t).line

/-- What has been typed on terminal `t` and not been read. -/
def Machine.pending (m : Machine) (t : Tid) : List Byte :=
  (m.keyboard.bank m.console.kernel.currTerminalNum).view t

section

variable {env : Env} {k : Keyboard} {display next t : Tid} {ch : Byte} {m m' : Machine}
  {g : Typing} {leave : List Byte → List Byte}

namespace Keyboard

lemma updateKeybBuf_line (new : KeyBuffer) (k : Keyboard) :
    (k.updateKeybBuf new).keys.line = new.line := by
  unfold updateKeybBuf
  split_ifs with hempty
  · have hnil : new.line = [] := by
      rw [KeyBuffer.line, hempty]
      rfl
    rw [hnil]
    rfl
  · exact KeyBuffer.line_load _ new

lemma updateKeybBuf_saved (new : KeyBuffer) (k : Keyboard) :
    (k.updateKeybBuf new).saved = k.saved := by
  unfold updateKeybBuf
  split_ifs <;> rfl

lemma switchBuffers_signals (display next : Tid) (k : Keyboard) :
    (k.switchBuffers display next).status = k.status ∧
      (k.switchBuffers display next).readEnable = k.readEnable := by
  unfold switchBuffers updateKeybBuf
  dsimp only
  split_ifs <;> exact ⟨rfl, rfl⟩

/-- The live buffer is saved and another is loaded. -/
lemma bank_switchBuffers (display next : Tid) (k : Keyboard) :
    (k.switchBuffers display next).bank next = (k.bank display).switch next := by
  have hsaved : (fun t => (Function.update k.saved display
      ((k.saved display).load k.keys.keyBuffer k.keys.keybIndex) t).line) =
        Function.update (k.bank display).saved display k.keys.line := by
    funext t
    rw [Function.update_apply, Function.update_apply]
    split_ifs
    · exact KeyBuffer.line_load _ k.keys
    · rfl
  rw [bank, switchBuffers, updateKeybBuf_line, updateKeybBuf_saved]
  exact congrArg (fun saved => Bank.mk next (saved next) saved) hsaved

lemma charKey_line (ch : Byte) (k : Keyboard) : (k.charKey ch).keys.line = edit ch k.keys.line := by
  unfold charKey edit
  split_ifs with hback hempty
  · have hnil : k.keys.line = [] := by
      rw [KeyBuffer.line, hempty]
      rfl
    rw [hnil]
    rfl
  · exact KeyBuffer.line_pop k.keys
  · exact KeyBuffer.line_push k.keys ch
  · exact KeyBuffer.line_push k.keys ch

lemma bank_charKey (display : Tid) (ch : Byte) (k : Keyboard) :
    (k.charKey ch).bank display = (k.bank display).modify (edit ch) := by
  have hsaved : (k.charKey ch).saved = k.saved := by
    unfold charKey
    split_ifs <;> rfl
  rw [bank, charKey_line, hsaved]
  rfl

lemma bank_terminalRead (display : Tid) (k : Keyboard) :
    k.terminalRead.2.bank display = (k.bank display).modify fun _ => [] := by
  unfold terminalRead
  dsimp only
  split_ifs
  · rfl
  · rfl

lemma terminalRead_status (k : Keyboard) : k.terminalRead.2.status = k.status := by
  unfold terminalRead
  dsimp only
  split_ifs
  · rfl
  · rfl

end Keyboard

/-! ### The simulation -/

namespace Typing

structure Follows (g : Typing) (m : Machine) : Prop where
  status    : g.status = m.keyboard.status
  display   : g.display = m.console.kernel.currTerminalNum
  scheduled : g.scheduled = m.console.kernel.scheduledTerminal
  line      : g.line = m.pending

/-- A key does to the bank what it does to the lines. -/
lemma press_line (key : Key) (hdisplay : g.display = display)
    (hline : g.line = (k.bank display).view) :
    (g.press key).line = ((k.handleKey display key).bank (key.display display)).view := by
  cases key with
  | modifier status => exact hline
  | clear => exact hline
  | switch next =>
    show g.line = _
    rw [hline, Keyboard.handleKey]
    split_ifs with hsame
    · subst hsame
      rfl
    · show _ = ((k.switchBuffers display next).bank next).view
      rw [Keyboard.bank_switchBuffers, Bank.view_switch]
  | char ch =>
    show Function.update g.line g.display _ = ((k.charKey ch).bank display).view
    rw [Keyboard.bank_charKey, Bank.view_modify, hdisplay, hline]
    exact congrArg (fun l => Function.update (k.bank display).view display (edit ch l))
      (Bank.view_active (k.bank display))
  | other => exact hline

lemma press_status (key : Key) (hstatus : g.status = k.status) :
    (g.press key).status = (k.handleKey display key).status := by
  cases key with
  | modifier status => rfl
  | clear => exact hstatus
  | switch next =>
    show g.status = _
    rw [hstatus, Keyboard.handleKey]
    split_ifs
    · rfl
    · exact (k.switchBuffers_signals display next).1.symm
  | char ch =>
    have hchar : (k.charKey ch).status = k.status := by
      unfold Keyboard.charKey
      split_ifs <;> rfl
    exact hstatus.trans hchar.symm
  | other => exact hstatus

lemma press_display (key : Key) (hdisplay : g.display = display) :
    (g.press key).display = key.display display := by
  cases key with
  | modifier status => exact hdisplay
  | clear => exact hdisplay
  | switch next => rfl
  | char ch => exact hdisplay
  | other => exact hdisplay

end Typing

namespace Machine

lemma terminalWrite_currTerminalNum (m : Machine) (bytes : List Byte) :
    (m.terminalWrite bytes).console.kernel.currTerminalNum = m.console.kernel.currTerminalNum :=
  Console.putAll_currTerminalNum (m.onKernel Kernel.cli).console bytes

lemma terminalRead_currTerminalNum (m : Machine) :
    m.terminalRead.2.console.kernel.currTerminalNum = m.console.kernel.currTerminalNum :=
  Console.putAll_currTerminalNum m.console _

/-- A tick turns to the next terminal, and the displayed one stays. -/
lemma Sound.tick_terminals (hshell : HasShell env.img) (h : m.Sound) {regs : Regs}
    (heq : m.tick env regs = some m') :
    m'.console.kernel.scheduledTerminal = m.console.kernel.scheduledTerminal + 1 ∧
      m'.console.kernel.currTerminalNum = m.console.kernel.currTerminalNum := by
  obtain ⟨k', q, hvideo, -, heq'⟩ := h.exists_tick hshell regs
  obtain rfl := Option.some.inj (heq'.symm.trans heq)
  have hticked := h.shells.wired.ticked_eq (m.console.kernel.scheduledTerminal + 1)
  constructor
  · have hput := (Console.putAll_sameProcesses { m.console with kernel := k' }
      m.console.kernel.tickOutput).scheduled
    refine hput.trans (hvideo.scheduled.trans ?_)
    rw [hticked]
  · have hput := Console.putAll_currTerminalNum { m.console with kernel := k' }
      m.console.kernel.tickOutput
    refine hput.trans (hvideo.display.trans ?_)
    rw [hticked]

/-- A read that is ready is one on the displayed terminal. -/
lemma Sound.scheduled_eq_display (h : m.Sound) (hready : m.ReadReady) :
    m.console.kernel.scheduledTerminal = m.console.kernel.currTerminalNum :=
  h.shells.wired.num.symm.trans hready.2

lemma pending_display (m : Machine) :
    m.pending m.console.kernel.currTerminalNum = m.keyboard.keys.line :=
  Bank.view_active (m.keyboard.bank m.console.kernel.currTerminalNum)

/-- Nothing is left of the line that is read, and the other lines stay. -/
lemma terminalRead_pending (m : Machine) : m.terminalRead.2.pending =
    Function.update m.pending m.console.kernel.currTerminalNum [] := by
  have hkeyboard : m.terminalRead.2.keyboard = m.keyboard.terminalRead.2 := rfl
  funext t
  rw [pending, terminalRead_currTerminalNum, hkeyboard, Keyboard.bank_terminalRead,
    Bank.view_modify]
  rfl

/-- A read step is a ready one. -/
lemma step_read (h : m.step env .read = some m') : m.ReadReady ∧ m' = m.terminalRead.2 := by
  unfold step at h
  split_ifs at h with hready
  exact ⟨hready, (Option.some.inj h).symm⟩

end Machine

namespace Typing

namespace Follows

lemma boot (h : Machine.Boot env m) : boot.Follows m := by
  have hkeyboard := h.keyboard
  obtain ⟨d, argument, hkernel, -, hm⟩ := h.exists_console
  refine ⟨?_, h.currTerminalNum.symm, ?_, ?_⟩
  · rw [hkeyboard]
    rfl
  · have hput := (Console.putAll_sameProcesses d
      ((bootKernel env.layout).executeOutput (text "shell") 0)).scheduled
    rw [hm]
    refine Eq.symm (hput.trans ?_)
    rw [hkernel]
    rfl
  · funext t
    rw [Machine.pending, hkeyboard, Bank.view]
    split_ifs <;> rfl

/-- Every step does to the lines what it does to the bank. -/
lemma step {a : Machine.Action} (hshell : HasShell env.img) (hsound : m.Sound) (h : g.Follows m)
    (hleave : a = .read → leave (m.pending m.console.kernel.scheduledTerminal) = [])
    (hstep : m.step env a = some m') : (g.step leave a).Follows m' := by
  cases a with
  | key code =>
    cases hstep
    have hkey : keyOf g.status code = keyOf m.keyboard.status code := by
      rw [h.status]
    refine ⟨?_, ?_, ?_, ?_⟩
    · show (g.press _).status = _
      rw [Machine.keybIntrHandler_keyboard, hkey]
      exact press_status _ h.status
    · show (g.press _).display = _
      rw [Machine.keybIntrHandler_currTerminalNum, hkey]
      exact press_display _ h.display
    · rw [(m.keybIntrHandler_sameProcesses code).scheduled, ← h.scheduled]
      show (g.press _).scheduled = g.scheduled
      cases keyOf g.status code <;> rfl
    · show (g.press _).line = _
      funext t
      rw [Machine.pending, Machine.keybIntrHandler_keyboard,
        Machine.keybIntrHandler_currTerminalNum, hkey]
      exact congrFun (press_line _ h.display h.line) t
  | tick regs =>
    obtain ⟨hscheduled, hdisplay⟩ := hsound.tick_terminals hshell hstep
    have hkeyboard := Machine.tick_keyboard hstep
    refine ⟨?_, ?_, ?_, ?_⟩
    · rw [hkeyboard]
      exact h.status
    · rw [hdisplay]
      exact h.display
    · rw [hscheduled, ← h.scheduled]
      rfl
    · funext t
      rw [Machine.pending, hkeyboard, hdisplay]
      exact congrFun h.line t
  | write bytes =>
    cases hstep
    have hdisplay := m.terminalWrite_currTerminalNum bytes
    refine ⟨h.status, h.display.trans hdisplay.symm, ?_, ?_⟩
    · exact h.scheduled.trans (m.terminalWrite_sameProcesses bytes).scheduled.symm
    · funext t
      rw [Machine.pending, hdisplay]
      exact congrFun h.line t
  | read =>
    obtain ⟨hready, rfl⟩ := Machine.step_read hstep
    have hsame := hsound.scheduled_eq_display hready
    have hstatus : m.terminalRead.2.keyboard.status = m.keyboard.status :=
      m.keyboard.terminalRead_status
    refine ⟨h.status.trans hstatus.symm, h.display.trans m.terminalRead_currTerminalNum.symm,
      ?_, ?_⟩
    · exact h.scheduled.trans m.terminalRead_sameProcesses.scheduled.symm
    · show Function.update g.line g.scheduled (leave (g.line g.scheduled)) = _
      rw [Machine.terminalRead_pending, h.scheduled, h.line, hleave rfl, hsame]

/-- The lines follow the machine along a run in which a read leaves nothing. -/
lemma run (leave : List Byte → List Byte) {P : Machine → Machine.Action → Prop}
    {as : List Machine.Action} (hshell : HasShell env.img) (hsound : m.Sound) (h : g.Follows m)
    (hP : ∀ m, P m .read → leave (m.pending m.console.kernel.scheduledTerminal) = [])
    (hrun : Run (Guarded (Graph (Machine.step env)) P) m as m') :
    (as.foldl (Typing.step leave) g).Follows m' ∧ m'.Sound := by
  induction hrun generalizing g with
  | refl => exact ⟨h, hsound⟩
  | @cons m m₁ m₂ a as hstep hrun ih =>
    apply ih (hsound.step hshell hstep.1)
    apply h.step hshell hsound _ hstep.1
    rintro rfl
    exact hP m hstep.2

end Follows

end Typing

/-- Without reads the lines follow every run. -/
lemma Typing.Follows.of_boot {m₀ : Machine} {as : List Machine.Action}
    (leave : List Byte → List Byte) (hboot : Machine.Boot env m₀)
    (hrun : Run (Graph (Machine.step env)) m₀ as m) (has : ∀ a ∈ as, a ≠ .read) :
    (Typing.run leave as).Follows m ∧ m.Sound :=
  (Typing.Follows.boot hboot).run leave hboot.hasShell hboot.sound
    (fun _ hread => absurd rfl hread) (hrun.guarded_of_mem has)

end

end Osgods
