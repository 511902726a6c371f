import Osgods.Terminal.Desk

/-!
# The machine around the desk

The steps of `Osgods.Terminal.Machine`, with the keyboard handler cut as at the desk and with the
lines saved in the memory of the kernel stacks. The desk is a projection that every step commutes
with; and a handler that no tick interrupts does what it does as one step.
-/

namespace Osgods

open Transition

/-! ### Steps -/

/-- `index t` is `terminal_list[t].keyb_buffer_index`, `mem` is the memory of the kernel stacks and
`esp` their stack pointers. `handler` is the terminal whose process a keyboard interrupt has come
to, with the next statement of the handler. -/
structure Station where
  console    : Console
  running    : Slot
  status     : Status
  keys       : KeyBuffer
  readEnable : Bool
  index      : Tid → ℕ
  mem        : ℕ → Byte
  esp        : Slot → ℕ
  handler    : Option (Tid × HandlerStage)

/-- `terminal_switch` up to the `sti` behind its loop, without the pages and the line that it
copies. -/
def Kernel.leaveTerminal (next : Tid) (k : Kernel) : Kernel :=
  let k := (k.storeCursor k.currTerminalNum).updateVideoMem videoMemoryAddr
  (k.updateScreenXY (k.terminalList next).xCursor (k.terminalList next).yCursor).cli.sti

namespace Station

variable (B : BootFrame)

def desk (d : Station) : Desk where
  mem        := d.mem
  esp        := d.esp
  keys       := d.keys
  index      := d.index
  display    := d.console.kernel.currTerminalNum
  status     := d.status
  readEnable := d.readEnable
  scheduled  := d.console.kernel.scheduledTerminal
  handler    := d.handler

def machine (d : Station) : Machine where
  console  := d.console
  running  := d.running
  keyboard := d.desk.keyboard B

/-- After a step of the machine that neither saves nor loads a line. -/
def withMachine (m : Machine) (d : Station) : Station :=
  { d with
    console    := m.console
    running    := m.running
    status     := m.keyboard.status
    keys       := m.keyboard.keys
    readEnable := m.keyboard.readEnable }

def scheduled (d : Station) : Tid := d.console.kernel.scheduledTerminal

def onKernel (f : Kernel → Kernel) (d : Station) : Station :=
  { d with console := { d.console with kernel := f d.console.kernel } }

/-- `terminal_switch` up to the `sti` behind its loop; where there is nothing to switch, the handler
goes to the label `end`. -/
def terminalSwitch (next : Tid) (d : Station) : Station :=
  let k := d.console.kernel
  let curr := k.currTerminalNum
  if curr = next then { d.onKernel Kernel.sti with handler := some (d.scheduled, .finish) }
  else
    { d with
      console := { d.console with
        kernel := k.leaveTerminal next
        memory := Machine.switchPages curr next k d.console.memory }
      index   := Function.update d.index curr d.keys.keybIndex
      mem     := overlay d.mem (B.row curr) d.keys.keybIndex d.keys.keyBuffer
      handler := some (d.scheduled, .updateKeybBuf next) }

/-- The handler until it turns interrupts on. -/
def key (code : Byte) (d : Station) : Station :=
  match keyOf d.status code with
  | .switch next => ((d.onKernel Kernel.cli).onKernel Kernel.loadDisplay).terminalSwitch B next
  | key =>
    let m := ((d.machine B).onKernel Kernel.cli).handleKey key
    { (d.withMachine m).onKernel Kernel.sti with handler := some (d.scheduled, .finish) }

/-- The next statement of the handler; the last one ends with the EOI. -/
def statement (t : Tid) (d : Station) : HandlerStage → Station
  | .updateKeybBuf next =>
    { d.onKernel fun k => k.cli.sti with
      keys    := (d.desk.rowBuffer B next).replace d.keys
      handler := some (t, .setNum next) }
  | .setNum next        =>
    { d.onKernel fun k => { k with currTerminalNum := next } with
      handler := some (t, .memorySwitch) }
  | .memorySwitch       => { d.onKernel Kernel.memorySwitch with handler := some (t, .finish) }
  | .finish             => { d.onKernel Kernel.keybEnd with handler := none }

def push (p : Slot) (bytes : List Byte) (d : Station) : Station :=
  { d with
    esp := Function.update d.esp p (d.esp p - bytes.length)
    mem := overlay d.mem (d.esp p - bytes.length) bytes.length fun i => bytes.getD i 0 }

def step (env : Env) (d : Station) : DeskMove → Option Station
  | .key code     => if d.handler = none then some (d.key B code) else none
  | .statement    =>
    match d.handler with
    | none            => none
    | some (t, stage) => if t = d.scheduled then some (d.statement B t stage) else none
  | .tick regs    => ((d.machine B).tick env regs).map fun m => d.withMachine m
  | .write bytes  =>
    if d.desk.Idle then some (d.withMachine ((d.machine B).terminalWrite bytes)) else none
  | .read         =>
    if d.desk.Idle ∧ (d.machine B).ReadReady then
      some (d.withMachine (d.machine B).terminalRead.2)
    else none
  | .push p bytes => if bytes.length ≤ d.esp p then some (d.push p bytes) else none
  | .store p x b  =>
    if d.esp p ≤ x ∧ x < stackTop p then some { d with mem := Function.update d.mem x b } else none
  | .pop p n      =>
    if d.esp p + n ≤ stackTop p then
      some { d with esp := Function.update d.esp p (d.esp p + n) }
    else none

/-- The first shell is about to run, and no process is in the kernel. -/
def start (m : Machine) (mem : ℕ → Byte) : Station where
  console    := m.console
  running    := m.running
  status     := m.keyboard.status
  keys       := m.keyboard.keys
  readEnable := m.keyboard.readEnable
  index      := fun t => (m.keyboard.saved t).keybIndex
  mem        := mem
  esp        := stackTop
  handler    := none

def Boot (env : Env) (d : Station) : Prop := ∃ m mem, Machine.Boot env m ∧ d = start m mem

end Station

section

variable {B : BootFrame} {env : Env} {d d' : Station} {m : Machine} {a : DeskMove}

/-! ### The desk of a station -/

namespace Kernel

variable {k : Kernel} {next : Tid}

lemma sameProcesses_leaveTerminal (k : Kernel) (next : Tid) :
    k.SameProcesses (k.leaveTerminal next) :=
  (sameProcesses_storeCursor k k.currTerminalNum).trans
    ⟨rfl, fun _ => .refl _, rfl, rfl, rfl, rfl, rfl⟩

end Kernel

lemma Wired.leaveTerminal {k : Kernel} (h : Wired k) (next : Tid) :
    Wired (k.leaveTerminal next) := by
  have hstore := h.storeCursor k.currTerminalNum
  exact ⟨hstore.tid, hstore.next, hstore.page, hstore.num⟩

lemma Keyboard.charKey_signal (k : Keyboard) (ch : Byte) :
    (k.charKey ch).status = k.status ∧
      (k.charKey ch).readEnable = (k.readEnable || ch = chNewline) := by
  have hne : ¬ chBackspace = chNewline := by decide
  unfold Keyboard.charKey
  split_ifs with hback hzero hnewline
  · subst hback
    rw [decide_eq_false hne, Bool.or_false]
    exact ⟨rfl, rfl⟩
  · subst hback
    rw [decide_eq_false hne, Bool.or_false]
    exact ⟨rfl, rfl⟩
  · rw [decide_eq_true hnewline, Bool.or_true]
    exact ⟨rfl, rfl⟩
  · rw [decide_eq_false hnewline, Bool.or_false]
    exact ⟨rfl, rfl⟩

namespace Station

/-- What the processes and the console are asked for. -/
def Sound (d : Station) : Prop := Machine.Sound ⟨d.console, Keyboard.boot, d.running⟩

lemma Sound.machine (h : d.Sound) (B : BootFrame) : (d.machine B).Sound := ⟨h.shells, h.echo⟩

lemma sound_withMachine (h : m.Sound) (d : Station) : (d.withMachine m).Sound := ⟨h.shells, h.echo⟩

lemma Sound.onKernel (h : d.Sound) {f : Kernel → Kernel} (hsame : ∀ k, Kernel.SameProcesses k (f k))
    (hwired : ∀ k, Wired k → Wired (f k)) : (d.onKernel f).Sound :=
  ⟨h.shells.congr (hsame _) (hwired _ h.shells.wired), h.echo⟩

lemma desk_withMachine (hscheduled : m.console.kernel.scheduledTerminal = d.scheduled) :
    (d.withMachine m).desk =
      { d.desk with
        keys       := m.keyboard.keys
        display    := m.console.kernel.currTerminalNum
        status     := m.keyboard.status
        readEnable := m.keyboard.readEnable } := by
  rw [desk, withMachine, hscheduled]
  rfl

/-- The handler for a key that switches to no other terminal. -/
lemma desk_handleKey (d : Station) {key : Key} (hswitch : ∀ next, key ≠ .switch next) :
    desk { (d.withMachine (((d.machine B).onKernel Kernel.cli).handleKey key)).onKernel
        Kernel.sti with handler := some (d.scheduled, .finish) } =
      { d.desk with
        keys       := ((d.desk.keyboard B).handleKey d.desk.display key).keys
        status     := ((d.desk.keyboard B).handleKey d.desk.display key).status
        readEnable := ((d.desk.keyboard B).handleKey d.desk.display key).readEnable
        handler    := some (d.scheduled, .finish) } := by
  have hkeyboard := ((d.machine B).onKernel Kernel.cli).handleKey_keyboard key
  have hdisplay := ((d.machine B).onKernel Kernel.cli).handleKey_currTerminalNum key
  have hscheduled := (((d.machine B).onKernel Kernel.cli).handleKey_sameProcesses key).scheduled
  have hsame : key.display d.console.kernel.currTerminalNum = d.console.kernel.currTerminalNum := by
    cases key with
    | switch next => exact absurd rfl (hswitch next)
    | modifier status => rfl
    | clear => rfl
    | char ch => rfl
    | other => rfl
  have hdesk := desk_withMachine (d := d) hscheduled
  rw [hkeyboard, hdisplay.trans hsame] at hdesk
  exact congrArg (fun e : Desk => { e with handler := some (d.scheduled, .finish) }) hdesk

lemma desk_onKernel {f : Kernel → Kernel}
    (hdisplay : ∀ k, (f k).currTerminalNum = k.currTerminalNum)
    (hscheduled : ∀ k, (f k).scheduledTerminal = k.scheduledTerminal) (d : Station) :
    (d.onKernel f).desk = d.desk := by
  rw [desk, desk, onKernel, hdisplay, hscheduled]

lemma desk_terminalSwitch (next : Tid) (d : Station) :
    (d.terminalSwitch B next).desk = d.desk.terminalSwitch B next := by
  have hdisplay : d.desk.display = d.console.kernel.currTerminalNum := rfl
  dsimp only [terminalSwitch, Desk.terminalSwitch]
  rw [hdisplay]
  split_ifs <;> rfl

lemma desk_key (d : Station) (code : Byte) : (d.key B code).desk = d.desk.key B code := by
  rw [key, Desk.key]
  have hstatus : d.desk.status = d.status := rfl
  rw [hstatus]
  cases keyOf d.status code with
  | modifier status => exact d.desk_handleKey (by simp)
  | switch next =>
    refine (desk_terminalSwitch next _).trans ?_
    rw [desk_onKernel (f := Kernel.loadDisplay) (fun _ => rfl) fun _ => rfl,
      desk_onKernel (f := Kernel.cli) (fun _ => rfl) fun _ => rfl]
  | char ch =>
    obtain ⟨hkeys, -⟩ := charKey_keys (d.desk.keyboard B) ch
    obtain ⟨hstatus, henable⟩ := (d.desk.keyboard B).charKey_signal ch
    have hswitch : ∀ next, Key.char ch ≠ .switch next := by simp
    have hdesk := d.desk_handleKey (B := B) hswitch
    rw [Keyboard.handleKey, hkeys, hstatus, henable] at hdesk
    exact hdesk
  | clear => exact d.desk_handleKey (by simp)
  | other => exact d.desk_handleKey (by simp)

lemma desk_statement (d : Station) (t : Tid) (stage : HandlerStage) :
    (d.statement B t stage).desk = d.desk.statement B t stage := by
  cases stage with
  | updateKeybBuf next => rfl
  | setNum next => rfl
  | memorySwitch =>
    have hdesk := desk_onKernel (f := Kernel.memorySwitch) Kernel.memorySwitch_currTerminalNum
      (fun k => (Kernel.sameProcesses_memorySwitch k).scheduled) d
    exact congrArg (fun e : Desk => { e with handler := some (t, .finish) }) hdesk
  | finish =>
    have hdesk := desk_onKernel (f := Kernel.keybEnd) Kernel.keybEnd_currTerminalNum
      (fun k => (Kernel.sameProcesses_keybEnd k).scheduled) d
    exact congrArg (fun e : Desk => { e with handler := none }) hdesk

/-! ### The invariant of the machine -/

lemma Sound.terminalSwitch (h : d.Sound) (next : Tid) : (d.terminalSwitch B next).Sound := by
  unfold Station.terminalSwitch
  dsimp only
  split_ifs
  · exact h.onKernel Kernel.sameProcesses_sti fun _ => Wired.sti
  · exact ⟨h.shells.congr (Kernel.sameProcesses_leaveTerminal _ next)
      (h.shells.wired.leaveTerminal next), h.echo⟩

/-- The handler for a key that switches to no other terminal. -/
lemma Sound.handleKey (h : d.Sound) (key : Key) :
    ((d.withMachine (((d.machine B).onKernel Kernel.cli).handleKey key)).onKernel
      Kernel.sti).Sound := by
  apply Sound.onKernel _ Kernel.sameProcesses_sti fun _ => Wired.sti
  apply sound_withMachine
  have hcli : Wired ((d.machine B).onKernel Kernel.cli).console.kernel := h.shells.wired.cli
  have hsame := (Kernel.sameProcesses_cli d.console.kernel).trans
    (((d.machine B).onKernel Kernel.cli).handleKey_sameProcesses key)
  constructor
  · rw [Machine.handleKey_running]
    exact h.shells.congr hsame (Machine.handleKey_wired hcli key)
  · exact Machine.handleKey_keybPressed (m := (d.machine B).onKernel Kernel.cli) h.echo key

lemma Sound.key (h : d.Sound) (code : Byte) : (d.key B code).Sound := by
  rw [Station.key]
  cases keyOf d.status code with
  | modifier status => exact h.handleKey _
  | switch next =>
    exact ((h.onKernel Kernel.sameProcesses_cli fun _ => Wired.cli).onKernel
      Kernel.sameProcesses_loadDisplay fun _ => Wired.loadDisplay).terminalSwitch next
  | char ch => exact h.handleKey _
  | clear => exact h.handleKey _
  | other => exact h.handleKey _

lemma Sound.statement (h : d.Sound) (t : Tid) (stage : HandlerStage) :
    (d.statement B t stage).Sound := by
  cases stage with
  | updateKeybBuf next =>
    exact h.onKernel (f := fun k => k.cli.sti)
      (fun k => (Kernel.sameProcesses_cli k).trans (Kernel.sameProcesses_sti _))
      fun _ hwired => hwired.cli.sti
  | setNum next =>
    exact h.onKernel (f := fun k => { k with currTerminalNum := next })
      (fun _ => ⟨rfl, fun _ => .refl _, rfl, rfl, rfl, rfl, rfl⟩)
      fun _ hwired => ⟨hwired.tid, hwired.next, hwired.page, hwired.num⟩
  | memorySwitch =>
    exact h.onKernel Kernel.sameProcesses_memorySwitch fun _ => Wired.memorySwitch
  | finish => exact h.onKernel Kernel.sameProcesses_keybEnd fun _ => Wired.keybEnd

/-! ### Each step is one of the desk -/

lemma readReady_iff (h : d.Sound) : (d.machine B).ReadReady ↔ d.desk.ReadReady := by
  have hnum : d.console.kernel.scheduledTerminalNum = d.console.kernel.scheduledTerminal :=
    h.shells.wired.num
  show d.readEnable = true ∧ d.console.kernel.scheduledTerminalNum = _ ↔ _
  rw [hnum]
  rfl

lemma desk_tick (hshell : HasShell env.img) (h : d.Sound) {regs : Regs} {m : Machine}
    (htick : (d.machine B).tick env regs = some m) :
    (d.withMachine m).desk = { d.desk with scheduled := d.desk.scheduled + 1 } ∧
      (d.withMachine m).Sound := by
  obtain ⟨hscheduled, hdisplay⟩ := (h.machine B).tick_terminals hshell htick
  have hkeyboard := Machine.tick_keyboard htick
  refine ⟨?_, sound_withMachine ((h.machine B).tick hshell htick) d⟩
  rw [desk, withMachine, hscheduled, hdisplay, hkeyboard]
  rfl

lemma desk_read (d : Station) : (d.withMachine (d.machine B).terminalRead.2).desk =
    { d.desk with keys := d.desk.keys.clean, readEnable := false } := by
  have hscheduled := (d.machine B).terminalRead_sameProcesses.scheduled
  have hdisplay := (d.machine B).terminalRead_currTerminalNum
  have hkeyboard : (d.machine B).terminalRead.2.keyboard = (d.desk.keyboard B).terminalRead.2 := rfl
  rw [desk_withMachine hscheduled, hdisplay, hkeyboard, Keyboard.terminalRead]
  dsimp only
  split_ifs <;> rfl

lemma desk_write (bytes : List Byte) (d : Station) :
    (d.withMachine ((d.machine B).terminalWrite bytes)).desk = d.desk := by
  have hscheduled := ((d.machine B).terminalWrite_sameProcesses bytes).scheduled
  have hdisplay := (d.machine B).terminalWrite_currTerminalNum bytes
  rw [desk_withMachine hscheduled, hdisplay]
  rfl

lemma Sound.step (hshell : HasShell env.img) (h : d.Sound) (hstep : d.step B env a = some d') :
    d'.Sound := by
  cases a with
  | key code =>
    simp only [Station.step] at hstep
    split_ifs at hstep
    cases hstep
    exact h.key code
  | statement =>
    simp only [Station.step] at hstep
    split at hstep
    · cases hstep
    · split_ifs at hstep
      cases hstep
      exact h.statement _ _
  | tick regs =>
    obtain ⟨m, htick, rfl⟩ := Option.map_eq_some_iff.mp hstep
    exact (desk_tick hshell h htick).2
  | write bytes =>
    simp only [Station.step] at hstep
    split_ifs at hstep
    cases hstep
    exact sound_withMachine ((h.machine B).terminalWrite bytes) d
  | read =>
    simp only [Station.step] at hstep
    split_ifs at hstep
    cases hstep
    exact sound_withMachine (h.machine B).terminalRead d
  | push p bytes =>
    simp only [Station.step] at hstep
    split_ifs at hstep
    cases hstep
    exact ⟨h.shells, h.echo⟩
  | store p x b =>
    simp only [Station.step] at hstep
    split_ifs at hstep
    cases hstep
    exact ⟨h.shells, h.echo⟩
  | pop p n =>
    simp only [Station.step] at hstep
    split_ifs at hstep
    cases hstep
    exact ⟨h.shells, h.echo⟩

/-- The desk takes the same steps. -/
lemma Sound.desk_step (hshell : HasShell env.img) (h : d.Sound) (a : DeskMove) :
    (d.step B env a).map desk = d.desk.step B a := by
  cases a with
  | key code =>
    have hhandler : d.desk.handler = d.handler := rfl
    simp only [Station.step, Desk.step, hhandler]
    split_ifs
    · exact congrArg some (d.desk_key code)
    · rfl
  | statement =>
    have hhandler : d.desk.handler = d.handler := rfl
    simp only [Station.step, Desk.step, hhandler]
    cases d.handler with
    | none => rfl
    | some r =>
      obtain ⟨t, stage⟩ := r
      have hscheduled : d.desk.scheduled = d.scheduled := rfl
      simp only [hscheduled]
      split_ifs
      · exact congrArg some (d.desk_statement t stage)
      · rfl
  | tick regs =>
    obtain ⟨k', q, -, -, htick⟩ := (h.machine B).exists_tick hshell regs
    simp only [Station.step, Desk.step, htick]
    exact congrArg some (desk_tick hshell h htick).1
  | write bytes =>
    simp only [Station.step, Desk.step]
    split_ifs
    · exact congrArg some (d.desk_write bytes)
    · rfl
  | read =>
    simp only [Station.step, Desk.step, readReady_iff h]
    split_ifs
    · exact congrArg some d.desk_read
    · rfl
  | push p bytes =>
    have hesp : d.desk.esp = d.esp := rfl
    simp only [Station.step, Desk.step, Desk.lines, lineStep, hesp]
    split_ifs <;> rfl
  | store p x b =>
    have hlive : d.desk.Live p x ↔ d.esp p ≤ x ∧ x < stackTop p := Iff.rfl
    simp only [Station.step, Desk.step, Desk.lines, lineStep, hlive]
    split_ifs <;> rfl
  | pop p n =>
    have hesp : d.desk.esp = d.esp := rfl
    simp only [Station.step, Desk.step, Desk.lines, lineStep, hesp]
    split_ifs <;> rfl

section

variable {P : Desk → DeskMove → Prop} {as : List DeskMove} {e : Desk}

lemma Sound.desk_run (hshell : HasShell env.img) (h : d.Sound)
    (hrun : Run (Guarded (Graph (Station.step B env)) fun d a => P d.desk a) d as d') :
    d'.Sound ∧ Run (Guarded (Graph (Desk.step B)) P) d.desk as d'.desk := by
  refine hrun.project (I := Sound) (fun d a d' hd hstep => ⟨hd.step hshell hstep.1, ?_, hstep.2⟩) h
  have hdesk := hd.desk_step (B := B) hshell a
  have hstep' : d.step B env a = some d' := hstep.1
  rw [hstep'] at hdesk
  exact hdesk.symm

/-- A run of the desk is one of some station. -/
lemma Sound.exists_run (hshell : HasShell env.img) (h : d.Sound)
    (hrun : Run (Guarded (Graph (Desk.step B)) P) d.desk as e) :
    ∃ d', Run (Guarded (Graph (Station.step B env)) fun d a => P d.desk a) d as d' ∧
      d'.Sound ∧ d'.desk = e := by
  refine hrun.lift (I := Sound) (fun d a t hd ht => ?_) h rfl
  obtain ⟨d', hstep, hdesk⟩ := Option.map_eq_some_iff.mp ((hd.desk_step hshell a).trans ht.1)
  exact ⟨d', ⟨hstep, ht.2⟩, hd.step hshell hstep, hdesk⟩

end

lemma Boot.sound (h : d.Boot env) : d.Sound := by
  obtain ⟨m, mem, hboot, rfl⟩ := h
  exact ⟨hboot.sound.shells, hboot.sound.echo⟩

lemma Boot.hasShell (h : d.Boot env) : HasShell env.img := by
  obtain ⟨m, mem, hboot, rfl⟩ := h
  exact hboot.hasShell

lemma start_desk (hboot : Machine.Boot env m) (mem : ℕ → Byte) :
    (start m mem).desk = Desk.boot mem := by
  have hscheduled := (Typing.Follows.boot hboot).scheduled
  rw [desk, start, hboot.keyboard, hboot.currTerminalNum, ← hscheduled]
  rfl

lemma Boot.exists_desk (h : d.Boot env) : ∃ mem, d.desk = Desk.boot mem := by
  obtain ⟨m, mem, hboot, rfl⟩ := h
  exact ⟨mem, start_desk hboot mem⟩

lemma exists_boot_small : ∃ d, Boot smallKernel d ∧ d.desk = Desk.boot fun _ => 0 := by
  obtain ⟨m, hboot⟩ := Machine.exists_boot_small
  exact ⟨start m fun _ => 0, ⟨m, _, hboot, rfl⟩, start_desk hboot _⟩

/-! ### The handler without ticks -/

/-- The machine whose keyboard keeps the saved lines apart. -/
structure Follows (B : BootFrame) (d : Station) (m : Machine) : Prop where
  console    : m.console = d.console
  running    : m.running = d.running
  status     : m.keyboard.status = d.status
  readEnable : m.keyboard.readEnable = d.readEnable
  lines      : Matches B d.desk.toLineState (m.keyboard, m.console.kernel.currTerminalNum)

/-- A key that switches to no other terminal does not look at the saved lines. -/
lemma handleKey_saved {key : Key} (hswitch : ∀ next, key ≠ .switch next) (m : Machine)
    (saved : Tid → KeyBuffer) (stray : Bool) : ∃ stray',
      Machine.handleKey key
          { m with keyboard := { m.keyboard with saved := saved, stray := stray } } =
        { m.handleKey key with
          keyboard := { (m.handleKey key).keyboard with saved := saved, stray := stray' } } := by
  cases key with
  | modifier status => exact ⟨_, rfl⟩
  | switch next => exact absurd rfl (hswitch next)
  | char ch =>
    obtain ⟨hnone, heq⟩ | ⟨hnone, heq⟩ := m.handleKey_char ch
    · refine ⟨stray, ?_⟩
      rw [heq]
      exact if_pos hnone
    · have hkeyboard : ∃ stray', { m.keyboard with saved := saved, stray := stray }.charKey ch =
          { m.keyboard.charKey ch with saved := saved, stray := stray' } := by
        unfold Keyboard.charKey
        split_ifs <;> exact ⟨_, rfl⟩
      obtain ⟨stray', hkeyboard⟩ := hkeyboard
      refine ⟨stray', ?_⟩
      rw [heq]
      exact (if_neg hnone).trans (congrArg (fun keyboard => Machine.mk _ keyboard _) hkeyboard)
  | clear => exact ⟨_, rfl⟩
  | other => exact ⟨_, rfl⟩

lemma Follows.handleKey {key : Key} (h : d.Follows B m) (hswitch : ∀ next, key ≠ .switch next) :
    (d.withMachine (((d.machine B).onKernel Kernel.cli).handleKey key)).Follows B
      ((m.onKernel Kernel.cli).handleKey key) := by
  obtain ⟨console, ⟨status, keys, saved, enable, stray⟩, running⟩ := m
  obtain ⟨hconsole, hrunning, hstatus, henable, hlines⟩ := h
  obtain rfl : console = d.console := hconsole
  obtain rfl : running = d.running := hrunning
  obtain rfl : status = d.status := hstatus
  obtain rfl : enable = d.readEnable := henable
  obtain rfl : keys = d.keys := hlines.keys
  obtain ⟨stray', heq⟩ :=
    handleKey_saved hswitch ((d.machine B).onKernel Kernel.cli) saved stray
  have hcli : (Machine.onKernel Kernel.cli
      ⟨d.console, ⟨d.status, d.keys, saved, d.readEnable, stray⟩, d.running⟩).handleKey key = _ :=
    heq
  rw [hcli]
  exact ⟨rfl, rfl, rfl, rfl, rfl, rfl, hlines.index, hlines.length, hlines.rows⟩

lemma step_statement {t : Tid} {stage : HandlerStage} (hhandler : d.handler = some (t, stage))
    (ht : t = d.scheduled) : Graph (step B env) d .statement (d.statement B t stage) := by
  simp only [Transition.Graph, step, hhandler]
  exact if_pos ht

/-- What follows the `sti` at the label `end`. -/
lemma Follows.keybEnd (h : d.Follows B m) (t : Tid) :
    (statement B t { d.onKernel Kernel.sti with handler := some (t, .finish) } .finish).Follows B
      (m.onKernel Kernel.keybEnd) := by
  obtain ⟨console, keyboard, running⟩ := m
  obtain ⟨hconsole, hrunning, hstatus, henable, hlines⟩ := h
  obtain rfl : console = d.console := hconsole
  have hdisplay : d.console.kernel.keybEnd.currTerminalNum = d.console.kernel.currTerminalNum :=
    Kernel.keybEnd_currTerminalNum _
  exact ⟨rfl, hrunning, hstatus, henable, rfl,
    hlines.keys, hlines.index, hlines.length, hlines.rows⟩

/-- The statements that are left of a handler come one after the other. -/
def Finishes (B : BootFrame) (env : Env) (d : Station) (m : Machine) : Prop :=
  ∃ d' n, Run (Graph (step B env)) d (List.replicate n .statement) d' ∧ d'.handler = none ∧
    d'.Follows B m

lemma Finishes.of_statement {t : Tid} {stage : HandlerStage}
    (hhandler : d.handler = some (t, stage)) (ht : t = d.scheduled)
    (h : (d.statement B t stage).Finishes B env m) : d.Finishes B env m := by
  obtain ⟨d', n, hrun, hnone, hfollows⟩ := h
  exact ⟨d', n + 1, .cons (step_statement hhandler ht) hrun, hnone, hfollows⟩

lemma Follows.finishes (h : d.Follows B m) {t : Tid} (ht : t = d.scheduled) :
    Finishes B env { d.onKernel Kernel.sti with handler := some (t, .finish) }
      (m.onKernel Kernel.keybEnd) :=
  .of_statement rfl ht ⟨_, 0, .refl _, rfl, h.keybEnd t⟩

lemma Follows.terminalSwitch (h : d.Follows B m) (hlen : d.keys.keybIndex ≤ keybBuffLen)
    (next : Tid) :
    (d.terminalSwitch B next).Finishes B env ((m.terminalSwitch next).onKernel Kernel.keybEnd) := by
  have hdisplay : m.console.kernel.currTerminalNum = d.console.kernel.currTerminalNum := by
    rw [h.console]
  dsimp only [Station.terminalSwitch, Machine.terminalSwitch]
  rw [hdisplay]
  split_ifs with hnext
  · exact h.finishes rfl
  · have hlines := h.lines.switch hnext hlen
    obtain ⟨console, keyboard, running⟩ := m
    obtain ⟨hconsole, hrunning, hstatus, henable, -⟩ := h
    obtain rfl : console = d.console := hconsole
    obtain rfl : running = d.running := hrunning
    let k : Kernel := { (d.console.kernel.leaveTerminal next).cli.sti with currTerminalNum := next }
    have hkernel : d.console.kernel.terminalSwitch next = k.memorySwitch := by
      rw [Kernel.terminalSwitch, if_neg hnext]
      rfl
    have hscheduled := (Kernel.sameProcesses_memorySwitch k).scheduled
    refine .of_statement rfl rfl (.of_statement rfl rfl (.of_statement rfl rfl
      (.of_statement rfl hscheduled.symm ⟨_, 0, .refl _, rfl, ?_⟩)))
    obtain ⟨hstatus', henable'⟩ :=
      keyboard.switchBuffers_signals d.console.kernel.currTerminalNum next
    have hdisplay' : d.desk.display ≠ next := hnext
    rw [LineState.terminalSwitch, if_neg hdisplay'] at hlines
    rw [hkernel]
    exact ⟨rfl, rfl, hstatus'.trans hstatus, henable'.trans henable, rfl, hlines.keys, hlines.index,
      hlines.length, hlines.rows⟩

/-- A keyboard interrupt whose statements all come one after the other is the handler of the machine
in which it is one step. -/
theorem key_uninterrupted (h : d.Follows B m) (hlen : d.keys.keybIndex ≤ keybBuffLen)
    (code : Byte) : (d.key B code).Finishes B env (m.keybIntrHandler code) := by
  have hother : ∀ key : Key, (∀ next, key ≠ .switch next) →
      Finishes B env { (d.withMachine (((d.machine B).onKernel Kernel.cli).handleKey key)).onKernel
        Kernel.sti with handler := some (d.scheduled, .finish) }
          (((m.onKernel Kernel.cli).handleKey key).onKernel Kernel.keybEnd) :=
    fun key hswitch => (h.handleKey hswitch).finishes
      (((d.machine B).onKernel Kernel.cli).handleKey_sameProcesses key).scheduled.symm
  rw [key, Machine.keybIntrHandler, h.status]
  cases keyOf d.status code with
  | modifier status => exact hother _ (by simp)
  | switch next =>
    have hload : ((d.onKernel Kernel.cli).onKernel Kernel.loadDisplay).Follows B
        ((m.onKernel Kernel.cli).onKernel Kernel.loadDisplay) := by
      obtain ⟨console, keyboard, running⟩ := m
      obtain ⟨hconsole, hrunning, hstatus, henable, hlines⟩ := h
      obtain rfl : console = d.console := hconsole
      exact ⟨rfl, hrunning, hstatus, henable, hlines⟩
    exact hload.terminalSwitch hlen next
  | char ch => exact hother _ (by simp)
  | clear => exact hother _ (by simp)
  | other => exact hother _ (by simp)

end Station

end

end Osgods
