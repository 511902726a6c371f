import Osgods.Terminal.Bounds
import Osgods.Terminal.Keyboard
import Osgods.Terminal.Video

/-!
# The machine with its screen and its keyboard

A step is one keyboard interrupt, one PIT tick, one `terminal_write` of the process that runs, or
one `terminal_read` of it from the moment that its wait ends. The keyboard interrupt is cut in
`Osgods.Terminal.Station`, where ticks may come in between. The processes are those of
`Osgods.Process.System`; what `execute` prints when a tick starts a shell is printed here.
-/

namespace Osgods

open Transition

/-- `memcpy` between ranges that do not overlap. -/
def memcpy (dst src : Word) (n : ℕ) (memory : Word → Byte) : Word → Byte :=
  fun a => if (a - dst).toNat < n then memory (src + (a - dst)) else memory a

structure Machine where
  console  : Console
  keyboard : Keyboard
  running  : Slot

namespace Machine

def onKernel (f : Kernel → Kernel) (m : Machine) : Machine :=
  { m with console := { m.console with kernel := f m.console.kernel } }

/-! ### `keyb_intr_handler` -/

/-- The two pages that `terminal_switch` copies. -/
def switchPages (curr next : Tid) (k : Kernel) (memory : Word → Byte) : Word → Byte :=
  memcpy videoMemoryAddr (k.terminalList next).videoPage kb4
    (memcpy (k.terminalList curr).videoPage videoMemoryAddr kb4 memory)

def terminalSwitch (next : Tid) (m : Machine) : Machine :=
  let k := m.console.kernel
  let curr := k.currTerminalNum
  if curr = next then m
  else
    { m with
      console  := { m.console with
        kernel := k.terminalSwitch next
        memory := switchPages curr next k m.console.memory }
      keyboard := m.keyboard.switchBuffers curr next }

/-- A backspace with nothing typed is not echoed. -/
def charKey (ch : Byte) (m : Machine) : Machine :=
  if ch = chBackspace ∧ m.keyboard.keys.keybIndex = 0 then m
  else { m with
    console  := m.console.setKeybPressed.putc ch
    keyboard := m.keyboard.charKey ch }

/-- The handler between its tests and the label `end`. -/
def handleKey (key : Key) (m : Machine) : Machine :=
  match key with
  | .modifier status => { m with keyboard := { m.keyboard with status := status } }
  | .clear           =>
    let m := m.onKernel Kernel.loadDisplay
    { m with console := m.console.clear }
  | .switch next     => (m.onKernel Kernel.loadDisplay).terminalSwitch next
  | .char ch         => (m.onKernel Kernel.loadDisplay).charKey ch
  | .other           => m.onKernel Kernel.loadDisplay

def keybIntrHandler (code : Byte) (m : Machine) : Machine :=
  (((m.onKernel Kernel.cli).handleKey (keyOf m.keyboard.status code))).onKernel Kernel.keybEnd

/-! ### `terminal_write` and `terminal_read` -/

def terminalWrite (bytes : List Byte) (m : Machine) : Machine :=
  let m := m.onKernel Kernel.cli
  { m with console := m.console.putAll bytes }.onKernel Kernel.sti

/-- The wait of `terminal_read` is over. -/
def ReadReady (m : Machine) : Prop :=
  m.keyboard.readEnable = true ∧
    m.console.kernel.scheduledTerminalNum = m.console.kernel.currTerminalNum

instance (m : Machine) : Decidable m.ReadReady := inferInstanceAs (Decidable (_ ∧ _))

/-- The bytes that `terminal_read` returns, and the machine after it. -/
def terminalRead (m : Machine) : List Byte × Machine :=
  let r := m.keyboard.terminalRead
  let message := if keybBuffLen ≤ m.keyboard.keys.keybIndex then text "too much to read!!\n" else []
  (r.1, { m with console := m.console.putAll message, keyboard := r.2 })

/-! ### Ticks -/

end Machine

/-- What `execute` prints before it sets up the page of a new process. -/
def Kernel.executeOutput (command : List Byte) (tid : Tid) (k : Kernel) : List Byte :=
  if k.determineWhichPcbEmpty = none then text "no pcb block available, 6 are opened!\n"
  else
    text "command is " ++ command ++ text " \n" ++
      if command.take 5 = text "shell" then
        text "in terminal " ++ [0x31#8 + BitVec.ofNat 8 tid] ++ text " now\n"
      else []

/-- What is printed in a tick, all of it by the shell's `execute`. -/
def Kernel.tickOutput (k : Kernel) : List Byte :=
  match k.scheduled.nextTerminal with
  | none      => []
  | some next =>
    if (k.terminalList next).countPcb = 0#32 then k.executeOutput (text "shell") next else []

namespace Machine

def tick (env : Env) (regs : Regs) (m : Machine) : Option Machine :=
  (System.step env ⟨m.console.kernel, m.running⟩ (.tick regs)).map fun s =>
    { m with
      console := { m.console with kernel := s.kernel }.putAll m.console.kernel.tickOutput
      running := s.running }

/-! ### Steps -/

inductive Action where
  | key (code : Byte)
  | tick (regs : Regs)
  | write (bytes : List Byte)
  | read

def step (env : Env) (m : Machine) : Action → Option Machine
  | .key code    => some (m.keybIntrHandler code)
  | .tick regs   => m.tick env regs
  | .write bytes => some (m.terminalWrite bytes)
  | .read        => if m.ReadReady then some m.terminalRead.2 else none

/-- The machine when `entry` has started the first shell, on a console that other messages have
been printed to before it was cleared. -/
def start (env : Env) (regs : Regs) (c : Console) : Option Machine :=
  (firstShell env regs).map fun s =>
    { console  := { c with kernel := s.kernel, keybPressed := false }.putAll
        ((bootKernel env.layout).executeOutput (text "shell") 0)
      keyboard := Keyboard.boot
      running  := s.running }

def Boot (env : Env) (m : Machine) : Prop := ∃ regs c, start env regs c = some m

lemma exists_boot_small : ∃ m, Boot smallKernel m := by
  obtain ⟨s, hs⟩ := exists_firstShell_small
  have hstart : ∃ m, start smallKernel ⟨0#32, 0#32⟩
      (Console.boot smallKernel.layout fun _ => 0) = some m := by
    rw [start, hs]
    exact ⟨_, rfl⟩
  obtain ⟨m, hm⟩ := hstart
  exact ⟨m, _, _, hm⟩

/-! ### The cases of a key -/

/-- A backspace with nothing typed is not echoed, any other character is. -/
lemma handleKey_char (m : Machine) (ch : Byte) :
    (ch = chBackspace ∧ m.keyboard.keys.keybIndex = 0) ∧
        m.handleKey (.char ch) = m.onKernel Kernel.loadDisplay ∨
      ¬ (ch = chBackspace ∧ m.keyboard.keys.keybIndex = 0) ∧ m.handleKey (.char ch) =
        { m with
          console  := (m.onKernel Kernel.loadDisplay).console.setKeybPressed.putc ch
          keyboard := m.keyboard.charKey ch } := by
  by_cases hnone : ch = chBackspace ∧ m.keyboard.keys.keybIndex = 0
  · exact Or.inl ⟨hnone, if_pos hnone⟩
  · exact Or.inr ⟨hnone, if_neg hnone⟩

/-- A switch to the terminal that is displayed does nothing. -/
lemma handleKey_switch (m : Machine) (next : Tid) :
    m.console.kernel.currTerminalNum = next ∧
        m.handleKey (.switch next) = m.onKernel Kernel.loadDisplay ∨
      m.console.kernel.currTerminalNum ≠ next ∧ m.handleKey (.switch next) =
        { m with
          console  := { m.console with
            kernel := m.console.kernel.loadDisplay.terminalSwitch next
            memory := switchPages m.console.kernel.currTerminalNum next m.console.kernel.loadDisplay
              m.console.memory }
          keyboard := m.keyboard.switchBuffers m.console.kernel.currTerminalNum next } := by
  by_cases hself : m.console.kernel.currTerminalNum = next
  · exact Or.inl ⟨hself, if_pos hself⟩
  · exact Or.inr ⟨hself, if_neg hself⟩

/-- What holds after each thing that a key can do. -/
lemma handleKey_cases {motive : Machine → Prop} (m : Machine) (key : Key)
    (modifier : ∀ status, motive { m with keyboard := { m.keyboard with status := status } })
    (load : motive (m.onKernel Kernel.loadDisplay))
    (clear : motive { m with console := (m.onKernel Kernel.loadDisplay).console.clear })
    (switch : ∀ next, motive { m with
      console  := { m.console with
        kernel := m.console.kernel.loadDisplay.terminalSwitch next
        memory := switchPages m.console.kernel.currTerminalNum next m.console.kernel.loadDisplay
          m.console.memory }
      keyboard := m.keyboard.switchBuffers m.console.kernel.currTerminalNum next })
    (char : ∀ ch, motive { m with
      console  := (m.onKernel Kernel.loadDisplay).console.setKeybPressed.putc ch
      keyboard := m.keyboard.charKey ch }) : motive (m.handleKey key) := by
  cases key with
  | modifier status => exact modifier status
  | clear => exact clear
  | switch next =>
    obtain ⟨-, heq⟩ | ⟨-, heq⟩ := m.handleKey_switch next
    · rw [heq]
      exact load
    · rw [heq]
      exact switch next
  | char ch =>
    obtain ⟨-, heq⟩ | ⟨-, heq⟩ := m.handleKey_char ch
    · rw [heq]
      exact load
    · rw [heq]
      exact char ch
  | other => exact load

end Machine

end Osgods
