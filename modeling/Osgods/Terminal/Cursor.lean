import Osgods.Terminal.Screens

/-!
# Whose cursor the globals hold

Each terminal has a stored cursor, which only its own output moves. A tick loads that of the
terminal it turns to; the keyboard handler loads that of the displayed terminal and does not put the
scheduled one's back. `KeepsCursor` is what has to hold at a key for the two to be the same.
-/

namespace Osgods

open Transition

/-- The stored cursor of terminal `t`. -/
def Kernel.cursor (k : Kernel) (t : Tid) : ℤ × ℤ :=
  ((k.terminalList t).xCursor, (k.terminalList t).yCursor)

/-- `screen_x` and `screen_y` are as terminal `t` has stored them. -/
def Kernel.AtCursor (k : Kernel) (t : Tid) : Prop := (k.screenX, k.screenY) = k.cursor t

/-- The terminal whose cursor the handler has loaded in the end. -/
def Key.loaded (k : Kernel) : Key → Tid
  | .switch next =>
    if k.currTerminalNum = next then next else k.scheduledTerminal + 1
  | _            => k.currTerminalNum

/-- A character that is not put: there is nothing to take back, or no room for a tab. -/
def Machine.Drops (m : Machine) (ch : Byte) : Prop :=
  ch = chBackspace ∧ m.keyboard.keys.keybIndex = 0 ∨
    ch = chTab ∧ 75 ≤ (m.console.kernel.terminalList m.console.kernel.currTerminalNum).xCursor

/-- A key draws on the scheduled terminal; or it draws nothing, and the cursor that it loads is the
same as the scheduled terminal's. -/
def Machine.KeepsCursor (m : Machine) : Machine.Action → Prop
  | .key code =>
    match keyOf m.keyboard.status code with
    | .modifier _ => True
    | .clear      => m.console.kernel.currTerminalNum = m.console.kernel.scheduledTerminal ∨
        m.console.kernel.cursor m.console.kernel.scheduledTerminal = (0, 0)
    | .char ch    => m.console.kernel.currTerminalNum = m.console.kernel.scheduledTerminal ∨
        m.Drops ch ∧ m.console.kernel.cursor m.console.kernel.currTerminalNum =
          m.console.kernel.cursor m.console.kernel.scheduledTerminal
    | key         => m.console.kernel.cursor (key.loaded m.console.kernel) =
        m.console.kernel.cursor m.console.kernel.scheduledTerminal
  | _         => True

section

variable {env : Env} {k : Kernel} {c : Console} {m m' : Machine} {t : Tid} {regs : Regs} {ch : Byte}
  {code : Byte} {key : Key}

/-! ### Output -/

namespace Console

/-- What is put leaves the cursor where its terminal stores it. -/
lemma putc_atCursor (h : c.kernel.AtCursor c.target) (ch : Byte) :
    (c.putc ch).kernel.AtCursor c.target := by
  rcases c.putc_kernel ch with heq | ⟨x, y, heq⟩
  · rwa [heq]
  · rw [heq, Kernel.AtCursor, Kernel.cursor, Kernel.storeCursor, Kernel.updateTerminal_terminalList,
      Function.update_self]
    rfl

lemma putc_cursor_of_ne (h : t ≠ c.target) (ch : Byte) :
    (c.putc ch).kernel.cursor t = c.kernel.cursor t := by
  rw [Kernel.cursor, putc_terminalList_of_ne h, Kernel.cursor]

lemma putAll_atCursor (hwired : Wired c.kernel) (hecho : c.keybPressed = false)
    (h : c.kernel.AtCursor c.kernel.scheduledTerminal) (l : List Byte) :
    (c.putAll l).kernel.AtCursor c.kernel.scheduledTerminal := by
  induction l generalizing c with
  | nil => exact h
  | cons ch l ih =>
    have hscheduled := (c.putc_sameProcesses ch).scheduled
    have hput := putc_atCursor (c := c) (by rwa [target_eq hwired hecho]) ch
    rw [target_eq hwired hecho, ← hscheduled] at hput
    rw [putAll_cons, ← hscheduled]
    exact ih (putc_wired hwired ch) (c.putc_keybPressed ch) hput

lemma putAll_cursor_of_ne (hwired : Wired c.kernel) (hecho : c.keybPressed = false)
    (ht : t ≠ c.kernel.scheduledTerminal) (l : List Byte) :
    (c.putAll l).kernel.cursor t = c.kernel.cursor t := by
  rw [Kernel.cursor, putAll_terminalList_of_ne hwired hecho ht, Kernel.cursor]

end Console

/-! ### Keys -/

namespace Console

lemma clear_atCursor (c : Console) : c.clear.kernel.AtCursor c.kernel.currTerminalNum := by
  rw [clear_kernel, Kernel.AtCursor, Kernel.cursor, Kernel.updateTerminal_terminalList,
    Function.update_self]
  rfl

lemma clear_cursor_of_ne (h : t ≠ c.kernel.currTerminalNum) :
    c.clear.kernel.cursor t = c.kernel.cursor t := by
  rw [clear_kernel, Kernel.cursor, Kernel.updateTerminal_terminalList, Function.update_of_ne h]
  rfl

end Console

namespace Kernel

lemma keybEnd_atCursor (k : Kernel) (t : Tid) : k.keybEnd.AtCursor t ↔ k.AtCursor t := by
  unfold keybEnd
  dsimp only
  split_ifs <;> rfl

lemma keybEnd_cursor (k : Kernel) (t : Tid) : k.keybEnd.cursor t = k.cursor t := by
  unfold keybEnd
  dsimp only
  split_ifs <;> rfl

end Kernel

lemma Wired.altKey_atCursor (h : Wired k) (next : Tid) :
    (k.altKey next).AtCursor ((Key.switch next).loaded k) := by
  by_cases hsame : k.currTerminalNum = next
  · subst hsame
    rw [h.altKey_self, Key.loaded, if_pos rfl]
    rfl
  · rw [h.altKey_eq hsame, Key.loaded, if_neg hsame]
    rfl

lemma Wired.altKey_cursor (h : Wired k) (next : Tid) : (k.altKey next).cursor t = k.cursor t := by
  rw [Kernel.cursor, h.altKey_terminalList, Kernel.cursor]

namespace Machine

/-- The console when an echo is about to be put. -/
lemma echo_atCursor (m : Machine) :
    (m.onKernel Kernel.loadDisplay).console.setKeybPressed.kernel.AtCursor
      (m.onKernel Kernel.loadDisplay).console.setKeybPressed.target := rfl

lemma keybIntrHandler_atCursor (h : Wired m.console.kernel) (code : Byte)
    (hkey : ∀ status, keyOf m.keyboard.status code ≠ .modifier status) :
    (m.keybIntrHandler code).console.kernel.AtCursor
      ((keyOf m.keyboard.status code).loaded m.console.kernel) := by
  cases hcode : keyOf m.keyboard.status code with
  | modifier status => exact absurd hcode (hkey status)
  | switch next =>
    rw [keybIntrHandler_switch hcode]
    exact h.altKey_atCursor next
  | clear =>
    rw [keybIntrHandler, hcode]
    apply (Kernel.keybEnd_atCursor _ _).mpr
    exact Console.clear_atCursor _
  | char ch =>
    rw [keybIntrHandler, hcode]
    apply (Kernel.keybEnd_atCursor _ _).mpr
    obtain ⟨-, heq⟩ | ⟨-, heq⟩ := (m.onKernel Kernel.cli).handleKey_char ch
    · rw [heq]
      rfl
    · rw [heq]
      exact Console.putc_atCursor (echo_atCursor (m.onKernel Kernel.cli)) ch
  | other =>
    rw [keybIntrHandler, hcode]
    apply (Kernel.keybEnd_atCursor _ _).mpr
    rfl

/-- A key moves no stored cursor but that of the terminal it draws on. -/
lemma keybIntrHandler_cursor (h : Wired m.console.kernel) (ht : ¬ m.Draws (.key code) t) :
    (m.keybIntrHandler code).console.kernel.cursor t = m.console.kernel.cursor t := by
  cases hcode : keyOf m.keyboard.status code with
  | modifier status =>
    rw [keybIntrHandler, hcode]
    exact Kernel.keybEnd_cursor _ _
  | switch next =>
    rw [keybIntrHandler_switch hcode]
    exact h.altKey_cursor next
  | clear =>
    have hne : t ≠ m.console.kernel.currTerminalNum := by
      rintro rfl
      apply ht
      rw [Draws, hcode]
      exact ⟨rfl, trivial⟩
    rw [keybIntrHandler, hcode]
    refine (Kernel.keybEnd_cursor _ _).trans ?_
    exact Console.clear_cursor_of_ne
      (c := ((m.onKernel Kernel.cli).onKernel Kernel.loadDisplay).console) hne
  | char ch =>
    have hne : t ≠ m.console.kernel.currTerminalNum := by
      rintro rfl
      apply ht
      rw [Draws, hcode]
      exact ⟨rfl, trivial⟩
    rw [keybIntrHandler, hcode]
    refine (Kernel.keybEnd_cursor _ _).trans ?_
    obtain ⟨-, heq⟩ | ⟨-, heq⟩ := (m.onKernel Kernel.cli).handleKey_char ch
    · rw [heq]
      rfl
    · rw [heq]
      exact Console.putc_cursor_of_ne
        (c := ((m.onKernel Kernel.cli).onKernel Kernel.loadDisplay).console.setKeybPressed) hne ch
  | other =>
    rw [keybIntrHandler, hcode]
    exact Kernel.keybEnd_cursor _ _

/-- What is dropped moves no cursor. -/
lemma keybIntrHandler_cursor_of_drops (hcode : keyOf m.keyboard.status code = .char ch)
    (hdrop : m.Drops ch) (t : Tid) :
    (m.keybIntrHandler code).console.kernel.cursor t = m.console.kernel.cursor t := by
  rw [keybIntrHandler, hcode]
  refine (Kernel.keybEnd_cursor _ _).trans ?_
  obtain ⟨-, heq⟩ | ⟨hnone, heq⟩ := (m.onKernel Kernel.cli).handleKey_char ch
  · rw [heq]
    rfl
  · obtain ⟨rfl, hroom⟩ := hdrop.resolve_left hnone
    have hputc : ((m.onKernel Kernel.cli).onKernel Kernel.loadDisplay).console.setKeybPressed.putc
        chTab = ((m.onKernel Kernel.cli).onKernel
          Kernel.loadDisplay).console.setKeybPressed.ready := by
      rw [Console.putc_eq, if_neg (by decide), if_neg (by decide), if_pos rfl,
        Console.ready_kernel]
      exact if_pos hroom
    rw [heq, hputc, Console.ready_kernel]
    rfl

lemma keybIntrHandler_clear (hcode : keyOf m.keyboard.status code = .clear) :
    ((m.keybIntrHandler code).console.kernel.screenX,
      (m.keybIntrHandler code).console.kernel.screenY) = ((0, 0) : ℤ × ℤ) := by
  rw [keybIntrHandler, hcode]
  show ((Kernel.keybEnd _).screenX, (Kernel.keybEnd _).screenY) = _
  unfold Kernel.keybEnd
  dsimp only
  split_ifs <;> rfl

/-- The cursor of the scheduled terminal is kept at a key. -/
lemma keybIntrHandler_keeps (h : Wired m.console.kernel)
    (hat : m.console.kernel.AtCursor m.console.kernel.scheduledTerminal)
    (hok : m.KeepsCursor (.key code)) :
    (m.keybIntrHandler code).console.kernel.AtCursor m.console.kernel.scheduledTerminal := by
  rw [KeepsCursor] at hok
  have hloaded := keybIntrHandler_atCursor h code
  cases hcode : keyOf m.keyboard.status code with
  | modifier status =>
    rw [keybIntrHandler, hcode]
    exact (Kernel.keybEnd_atCursor _ _).mpr hat
  | switch next =>
    rw [hcode] at hok hloaded
    rw [Kernel.AtCursor, hloaded (by simp), keybIntrHandler_switch hcode, h.altKey_cursor,
      h.altKey_cursor]
    exact hok
  | clear =>
    rw [hcode] at hok hloaded
    rcases hok with hsame | hzero
    · rw [← hsame]
      exact hloaded (by simp)
    · by_cases hsame : m.console.kernel.scheduledTerminal = m.console.kernel.currTerminalNum
      · rw [hsame]
        exact hloaded (by simp)
      · have hne : ¬ m.Draws (.key code) m.console.kernel.scheduledTerminal := fun hdraws =>
          hsame hdraws.1
        rw [Kernel.AtCursor, keybIntrHandler_clear hcode, keybIntrHandler_cursor h hne, hzero]
  | char ch =>
    rw [hcode] at hok hloaded
    rcases hok with hsame | ⟨hdrop, heq⟩
    · rw [← hsame]
      exact hloaded (by simp)
    · rw [Kernel.AtCursor, hloaded (by simp), keybIntrHandler_cursor_of_drops hcode hdrop,
        keybIntrHandler_cursor_of_drops hcode hdrop]
      exact heq
  | other =>
    have hne : ∀ t, ¬ m.Draws (.key code) t := by
      intro t hdraws
      rw [Draws, hcode] at hdraws
      exact hdraws.2
    rw [hcode] at hok hloaded
    rw [Kernel.AtCursor, hloaded (by simp), keybIntrHandler_cursor h (hne _),
      keybIntrHandler_cursor h (hne _)]
    exact hok

/-! ### Steps -/

/-- A tick loads the cursor of the terminal it turns to, and moves no other. -/
lemma Sound.tick_cursor (hshell : HasShell env.img) (h : m.Sound)
    (htick : m.tick env regs = some m') :
    m'.console.kernel.AtCursor m'.console.kernel.scheduledTerminal ∧
      (¬ m.Draws (.tick regs) t → m'.console.kernel.cursor t = m.console.kernel.cursor t) := by
  obtain ⟨k', q, hvideo, hshells, heq⟩ := h.exists_tick hshell regs
  obtain rfl := Option.some.inj (heq.symm.trans htick)
  have hwired := h.shells.wired
  rw [hwired.ticked_eq] at hvideo
  have hscheduled : k'.scheduledTerminal = m.console.kernel.scheduledTerminal + 1 :=
    hvideo.scheduled
  have hcursor : ∀ t, k'.cursor t = m.console.kernel.cursor t := by
    intro t
    rw [Kernel.cursor, (hvideo.terminal t).xCursor, (hvideo.terminal t).yCursor]
    rfl
  have hat : k'.AtCursor k'.scheduledTerminal := by
    rw [Kernel.AtCursor, hvideo.screenX, hvideo.screenY, hcursor, hscheduled]
    rfl
  constructor
  · have hput := Console.putAll_atCursor (c := { m.console with kernel := k' }) hshells.wired h.echo
      hat m.console.kernel.tickOutput
    rwa [← (Console.putAll_sameProcesses { m.console with kernel := k' } _).scheduled] at hput
  · intro ht
    by_cases hnext : t = k'.scheduledTerminal
    · have hnone := hwired.tickOutput_eq_nil fun hzero => ht (by
        rw [hnext, hscheduled]
        exact ⟨rfl, hzero⟩)
      rw [hnone]
      exact hcursor t
    · exact (Console.putAll_cursor_of_ne (c := { m.console with kernel := k' }) hshells.wired h.echo
        hnext _).trans (hcursor t)

/-- Nothing moves the stored cursor of a terminal but output to it. -/
lemma Sound.step_cursor {a : Action} (hshell : HasShell env.img) (h : m.Sound)
    (hstep : m.step env a = some m') (ht : ¬ m.Draws a t) :
    m'.console.kernel.cursor t = m.console.kernel.cursor t := by
  cases a with
  | key code =>
    cases hstep
    exact keybIntrHandler_cursor h.shells.wired ht
  | tick regs => exact (h.tick_cursor hshell hstep).2 ht
  | write bytes =>
    cases hstep
    exact Console.putAll_cursor_of_ne (c := (m.onKernel Kernel.cli).console)
      h.shells.wired.cli h.echo ht bytes
  | read =>
    obtain ⟨-, rfl⟩ := step_read hstep
    exact Console.putAll_cursor_of_ne h.shells.wired h.echo ht _

lemma Sound.step_atCursor {a : Action} (hshell : HasShell env.img) (h : m.Sound)
    (hat : m.console.kernel.AtCursor m.console.kernel.scheduledTerminal) (hok : m.KeepsCursor a)
    (hstep : m.step env a = some m') :
    m'.console.kernel.AtCursor m'.console.kernel.scheduledTerminal := by
  cases a with
  | key code =>
    cases hstep
    rw [(m.keybIntrHandler_sameProcesses code).scheduled]
    exact keybIntrHandler_keeps h.shells.wired hat hok
  | tick regs => exact (h.tick_cursor (t := 0) hshell hstep).1
  | write bytes =>
    cases hstep
    rw [(m.terminalWrite_sameProcesses bytes).scheduled]
    exact Console.putAll_atCursor (c := (m.onKernel Kernel.cli).console)
      h.shells.wired.cli h.echo hat bytes
  | read =>
    obtain ⟨-, rfl⟩ := step_read hstep
    rw [m.terminalRead_sameProcesses.scheduled]
    exact Console.putAll_atCursor h.shells.wired h.echo hat _

lemma Boot.atCursor (h : Boot env m) :
    m.console.kernel.AtCursor m.console.kernel.scheduledTerminal := by
  obtain ⟨d, argument, hkernel, hecho, rfl⟩ := h.exists_console
  have hvideo := bootKernel_base_sameVideo env.layout argument
  rw [← hkernel] at hvideo
  have hwired : Wired d.kernel := by
    rw [hkernel]
    exact bootKernel_base_wired _ _
  have hat : d.kernel.AtCursor d.kernel.scheduledTerminal := by
    rw [Kernel.AtCursor, Kernel.cursor, hvideo.screenX, hvideo.screenY,
      (hvideo.terminal _).xCursor, (hvideo.terminal _).yCursor]
    rfl
  have hput := Console.putAll_atCursor hwired hecho hat
    ((bootKernel env.layout).executeOutput (text "shell") 0)
  rwa [← (Console.putAll_sameProcesses d _).scheduled] at hput

end Machine

end

/-- Along every run in which each key draws on the scheduled terminal or loads a cursor that is
where the scheduled terminal's is, a process prints at the cursor of its own terminal; and nothing
but output to a terminal moves the cursor that is stored for it. -/
theorem own_cursor {env : Env} {m₀ m : Machine} {as : List Machine.Action}
    (hboot : Machine.Boot env m₀)
    (hrun : Run (Guarded (Graph (Machine.step env)) Machine.KeepsCursor) m₀ as m) :
    m.console.kernel.AtCursor m.console.kernel.scheduledTerminal ∧
      ∀ a m' t, m.step env a = some m' → ¬ m.Draws a t →
        m'.console.kernel.cursor t = m.console.kernel.cursor t := by
  have hshell := hboot.hasShell
  obtain ⟨hsound, hat⟩ : m.Sound ∧
      m.console.kernel.AtCursor m.console.kernel.scheduledTerminal := by
    refine hrun.invariant (I := fun m => m.Sound ∧
      m.console.kernel.AtCursor m.console.kernel.scheduledTerminal) ?_ ⟨hboot.sound, hboot.atCursor⟩
    intro m a m' hm hstep
    exact ⟨hm.1.step hshell hstep.1, hm.1.step_atCursor hshell hm.2 hstep.2 hstep.1⟩
  exact ⟨hat, fun a m' t hstep ht => hsound.step_cursor hshell hstep ht⟩

/-- The first shell's terminal is displayed, and an `a` is typed. -/
theorem own_cursor_small : ∃ m₀ m, Machine.Boot smallKernel m₀ ∧
    Run (Graph (Machine.step smallKernel)) m₀ [.key 0x1E] m ∧
      m.console.kernel.AtCursor m.console.kernel.scheduledTerminal := by
  obtain ⟨m₀, hboot⟩ := Machine.exists_boot_small
  have hfollows := Typing.Follows.boot hboot
  have hcode : keyOf m₀.keyboard.status 0x1E = .char 0x61 := by
    rw [hboot.keyboard]
    decide
  have hok : m₀.KeepsCursor (.key 0x1E) := by
    rw [Machine.KeepsCursor, hcode]
    exact Or.inl (hfollows.display.symm.trans hfollows.scheduled)
  have hrun : Run (Guarded (Graph (Machine.step smallKernel)) Machine.KeepsCursor) m₀ [.key 0x1E]
      (m₀.keybIntrHandler 0x1E) := .cons ⟨rfl, hok⟩ (.refl _)
  exact ⟨m₀, _, hboot, hrun.of_guarded, (own_cursor hboot hrun).1⟩

/-- A character that is echoed while the displayed terminal has its cursor at the left. -/
lemma Machine.keybIntrHandler_screenX {m : Machine} {code ch : Byte}
    (hcode : keyOf m.keyboard.status code = .char ch) (hplain : Console.Plain ch)
    (hlt : (m.console.kernel.terminalList m.console.kernel.currTerminalNum).xCursor < 79) :
    (m.keybIntrHandler code).console.kernel.screenX =
      (m.console.kernel.terminalList m.console.kernel.currTerminalNum).xCursor + 1 := by
  have hput := Console.putc_plain
    (c := ((m.onKernel Kernel.cli).onKernel Kernel.loadDisplay).console.setKeybPressed) hplain hlt
  have hend : ∀ k : Kernel, k.keybEnd.screenX = k.screenX := by
    intro k
    unfold Kernel.keybEnd
    dsimp only
    split_ifs <;> rfl
  rw [keybIntrHandler, hcode]
  refine (hend _).trans ?_
  obtain ⟨hnone, -⟩ | ⟨-, heq⟩ := (m.onKernel Kernel.cli).handleKey_char ch
  · exact absurd hnone.1 hplain.1
  · rw [heq]
    dsimp only
    rw [hput]
    rfl

/-- The second shell is scheduled, and an `a` is typed on the first terminal: the second shell will
print one column to the right of its own cursor. -/
theorem own_cursor_echo : ∃ m₀ m regs, Machine.Boot smallKernel m₀ ∧
    Run (Graph (Machine.step smallKernel)) m₀ [.tick regs, .key 0x1E] m ∧
      m.console.kernel.scheduledTerminal = 1 ∧
      (m.console.kernel.screenX, m.console.kernel.screenY) ≠ m.console.kernel.cursor 1 := by
  obtain ⟨m₀, hboot, hx, hy, -⟩ := Machine.exists_boot_blank
  obtain ⟨m, htick⟩ : ∃ m, m₀.tick smallKernel ⟨0#32, 0#32⟩ = some m := by
    obtain ⟨k', q, -, -, htick⟩ := hboot.sound.exists_tick hboot.hasShell ⟨0#32, 0#32⟩
    exact ⟨_, htick⟩
  have hstep : Graph (Machine.step smallKernel) m₀ (.tick ⟨0#32, 0#32⟩) m := htick
  have hfollows₀ := Typing.Follows.boot hboot
  obtain ⟨hfollows, hsound⟩ := Typing.Follows.of_boot afterLine hboot
    (.cons hstep (.refl m)) (by simp)
  have hscheduled : m.console.kernel.scheduledTerminal = 1 := hfollows.scheduled.symm
  have hdisplay : m.console.kernel.currTerminalNum = 0 := hfollows.display.symm
  have hfirst := hboot.first_tick htick
  -- both terminals have their cursor at the start of the third line
  have hcursor₁ : m.console.kernel.cursor 1 = (0, 2) := by
    have hat := (hboot.sound.tick_cursor (t := 0) hboot.hasShell htick).1
    rw [hscheduled, Kernel.AtCursor, hfirst.2.1, hfirst.2.2.1] at hat
    exact hat.symm
  have hcursor₀ : m.console.kernel.cursor 0 = (0, 2) := by
    have hat := hboot.atCursor
    rw [← hfollows₀.scheduled, Kernel.AtCursor, hx, hy] at hat
    have hne : ¬ m₀.Draws (.tick ⟨0#32, 0#32⟩) 0 := by
      rintro ⟨hzero, -⟩
      rw [← hfollows₀.scheduled] at hzero
      cases hzero
    exact (hboot.sound.step_cursor hboot.hasShell hstep hne).trans hat.symm
  have hcode : keyOf m.keyboard.status 0x1E = .char 0x61 := by
    rw [Machine.tick_keyboard htick, hboot.keyboard]
    decide
  have hleft : (m.console.kernel.terminalList m.console.kernel.currTerminalNum).xCursor = 0 := by
    rw [hdisplay]
    exact congrArg Prod.fst hcursor₀
  have hscreen := Machine.keybIntrHandler_screenX hcode (by decide) (by rw [hleft]; decide)
  rw [hleft] at hscreen
  have hother : ¬ m.Draws (.key 0x1E) 1 := by
    rintro ⟨hone, -⟩
    rw [hdisplay] at hone
    cases hone
  refine ⟨m₀, m.keybIntrHandler 0x1E, _, hboot, .cons hstep (.cons rfl (.refl _)), ?_, ?_⟩
  · rw [(m.keybIntrHandler_sameProcesses 0x1E).scheduled]
    exact hscheduled
  · rw [Machine.keybIntrHandler_cursor hsound.shells.wired hother, hcursor₁, hscreen]
    intro heq
    have hone : (0 : ℤ) + 1 = 0 := congrArg Prod.fst heq
    cases hone

end Osgods
