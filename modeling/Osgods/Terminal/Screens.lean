import Osgods.Terminal.Lines
import Osgods.Terminal.Output

/-!
# The logical screens

The screen of a terminal is the page at `VIDEO` while it is displayed, and its own page otherwise:
the four pages are a bank of three screens. Between two steps `video_mem` points to the screen of
the scheduled terminal.
-/

namespace Osgods

open Transition

/-! ### A switch of the pages -/

/-- The four pages hold three screens. -/
def screens (display : Tid) (mem : Word → Byte) : Bank Tid (Fin 4096 → Byte) where
  active := display
  live   := pageAt mem videoMemoryAddr
  saved  := fun t => pageAt mem (videoPage t)

section

variable {mem : Word → Byte} {dst src : Word}

lemma screens_view (display t : Tid) (mem : Word → Byte) :
    (screens display mem).view t = pageAt mem (screenBase display t) :=
  (apply_ite (pageAt mem) (t = display) _ _).symm

lemma pageAt_memcpy (dst src : Word) (mem : Word → Byte) :
    pageAt (memcpy dst src 4096 mem) dst = pageAt mem src := by
  funext i
  have hoff : dst + BitVec.ofNat 32 i - dst = BitVec.ofNat 32 i := by
    rw [BitVec.add_comm, BitVec.add_sub_cancel]
  have hlt : (BitVec.ofNat 32 (i : ℕ)).toNat < 4096 := by
    have hi := i.isLt
    rw [BitVec.toNat_ofNat]
    omega
  rw [pageAt, memcpy, hoff, if_pos hlt]
  rfl

lemma pageAt_memcpy_of_ne {m n : ℕ} (hm : m < 4) (hn : n < 4) (h : m ≠ n) (src : Word)
    (mem : Word → Byte) :
    pageAt (memcpy (pageBase n) src 4096 mem) (pageBase m) = pageAt mem (pageBase m) := by
  funext i
  exact if_neg (not_inPage_pageBase hm hn h i)

/-- `terminal_switch` stores the page of the one screen and loads that of the other. -/
lemma screens_switchPages {k : Kernel} (h : Wired k) (curr next : Tid) (mem : Word → Byte) :
    screens next (Machine.switchPages curr next k mem) = (screens curr mem).switch next := by
  have hlt : ∀ t : Tid, (t : ℕ) + 1 < 4 := fun t => Nat.succ_lt_succ t.isLt
  have hstored : (fun t => pageAt (memcpy (videoPage curr) videoMemoryAddr 4096 mem)
      (videoPage t)) = Function.update (screens curr mem).saved curr (screens curr mem).live := by
    funext t
    rw [Function.update_apply]
    split_ifs with ht
    · subst ht
      exact pageAt_memcpy _ _ _
    · have hne : (t : ℕ) + 1 ≠ curr + 1 := fun heq => ht (Fin.ext (Nat.succ.inj heq))
      show _ = pageAt mem (videoPage t)
      rw [videoPage_eq, videoPage_eq]
      exact pageAt_memcpy_of_ne (hlt t) (hlt curr) hne _ _
  have hsaved : (fun t => pageAt (Machine.switchPages curr next k mem) (videoPage t)) =
      fun t => pageAt (memcpy (videoPage curr) videoMemoryAddr 4096 mem) (videoPage t) := by
    funext t
    rw [Machine.switchPages, h.page, h.page, videoPage_eq t]
    exact pageAt_memcpy_of_ne (n := 0) (hlt t) (by decide) (Nat.succ_ne_zero _) _ _
  have hlive : pageAt (Machine.switchPages curr next k mem) videoMemoryAddr =
      pageAt (memcpy (videoPage curr) videoMemoryAddr 4096 mem) (videoPage next) := by
    rw [Machine.switchPages, h.page, h.page]
    exact pageAt_memcpy _ _ _
  rw [screens, hsaved, hlive]
  exact congrArg (fun saved => Bank.mk next (saved next) saved) hstored

end

/-! ### Steps -/

namespace Machine

/-- What terminal `t` shows, or will show when it is displayed. -/
def screen (m : Machine) (t : Tid) : Fin 4096 → Byte :=
  pageAt m.console.memory (screenBase m.console.kernel.currTerminalNum t)

/-- The cursor stays on the grid in what a step puts. -/
def StaysOnGrid (env : Env) (m : Machine) : Action → Prop
  | .key code    => ∀ ch, keyOf m.keyboard.status code = .char ch →
      ch = chBackspace ∧ m.keyboard.keys.keybIndex = 0 ∨
        ((m.onKernel Kernel.cli).onKernel Kernel.loadDisplay).console.setKeybPressed.Stays [ch]
  | .tick regs   => ∀ s, System.step env ⟨m.console.kernel, m.running⟩ (.tick regs) = some s →
      { m.console with kernel := s.kernel }.Stays m.console.kernel.tickOutput
  | .write bytes => (m.onKernel Kernel.cli).console.Stays bytes
  | .read        => m.console.Stays
      (if keybBuffLen ≤ m.keyboard.keys.keybIndex then text "too much to read!!\n" else [])

end Machine

/-- The keys that draw. -/
def Key.Draws : Key → Prop
  | .char _ => True
  | .clear  => True
  | _       => False

namespace Machine

/-- The terminals whose screens a step may change. A tick that starts a base shell prints on the
screen of that shell. -/
def Draws (m : Machine) (a : Action) (t : Tid) : Prop :=
  match a with
  | .key code => t = m.console.kernel.currTerminalNum ∧ (keyOf m.keyboard.status code).Draws
  | .tick _   => t = m.console.kernel.scheduledTerminal + 1 ∧
      (m.console.kernel.terminalList t).countPcb = 0#32
  | .write _  => t = m.console.kernel.scheduledTerminal
  | .read     => t = m.console.kernel.scheduledTerminal

/-- `video_mem` leads to the screen of the scheduled terminal. -/
structure OnScreen (m : Machine) : Prop extends m.Sound where
  target : m.console.kernel.videoMem =
    screenBase m.console.kernel.currTerminalNum m.console.kernel.scheduledTerminal

section

variable {env : Env} {m m' : Machine} {code : Byte} {key : Key} {next t : Tid} {regs : Regs}

/-- Output to the page of one screen leaves the others. -/
lemma screen_eq {u : Tid}
    (hdisplay : m'.console.kernel.currTerminalNum = m.console.kernel.currTerminalNum)
    (hmem : SameBeyond (screenBase m.console.kernel.currTerminalNum u) m.console.memory
      m'.console.memory) (ht : t ≠ u) : m'.screen t = m.screen t := by
  rw [screen, hdisplay]
  exact hmem.pageAt_eq ht

/-- The screens are those of the bank. -/
lemma screen_terminalSwitch (h : Wired m.console.kernel) (next t : Tid) :
    (m.terminalSwitch next).screen t = m.screen t := by
  unfold terminalSwitch
  dsimp only
  split_ifs with hsame
  · rfl
  · have hswitch := screens_switchPages h m.console.kernel.currTerminalNum next m.console.memory
    have hdisplay := Kernel.terminalSwitch_currTerminalNum m.console.kernel next
    have hview := congrArg (fun b => b.view t) hswitch
    simp only [Bank.view_switch, screens_view] at hview
    rw [screen, screen]
    dsimp only
    rw [hdisplay]
    exact hview

lemma screenBase_self (t : Tid) : screenBase t t = videoMemoryAddr := if_pos rfl

lemma handleKey_screen (h : Wired m.console.kernel)
    (hok : ∀ ch, key = .char ch → ch = chBackspace ∧ m.keyboard.keys.keybIndex = 0 ∨
      (m.onKernel Kernel.loadDisplay).console.setKeybPressed.Stays [ch])
    (ht : ¬ (t = m.console.kernel.currTerminalNum ∧ key.Draws)) :
    (m.handleKey key).screen t = m.screen t := by
  cases key with
  | modifier status => rfl
  | clear =>
    have hmem := (m.onKernel Kernel.loadDisplay).console.clear_sameBeyond
    have htarget : (m.onKernel Kernel.loadDisplay).console.kernel.videoMem =
        screenBase m.console.kernel.currTerminalNum m.console.kernel.currTerminalNum :=
      (screenBase_self _).symm
    rw [htarget] at hmem
    exact screen_eq (m := m) rfl hmem fun heq => ht ⟨heq, trivial⟩
  | switch next => exact screen_terminalSwitch h.loadDisplay next t
  | char ch =>
    obtain ⟨-, heq⟩ | ⟨hnone, heq⟩ := m.handleKey_char ch
    · rw [heq]
      rfl
    · rw [heq]
      have hmem := Console.putAll_sameBeyond ((hok ch rfl).resolve_left hnone)
      have htarget : (m.onKernel Kernel.loadDisplay).console.setKeybPressed.kernel.videoMem =
          screenBase m.console.kernel.currTerminalNum m.console.kernel.currTerminalNum :=
        (screenBase_self _).symm
      rw [htarget] at hmem
      exact screen_eq (m := m) (Console.putc_currTerminalNum _ ch) hmem
        fun heq => ht ⟨heq, trivial⟩
  | other => rfl

lemma keybIntrHandler_screen (h : Wired m.console.kernel) (hok : m.StaysOnGrid env (.key code))
    (ht : ¬ m.Draws (.key code) t) : (m.keybIntrHandler code).screen t = m.screen t := by
  have hkey : ((m.onKernel Kernel.cli).handleKey (keyOf m.keyboard.status code)).screen t =
      (m.onKernel Kernel.cli).screen t := handleKey_screen h.cli hok ht
  have hend : (m.keybIntrHandler code).screen t =
      ((m.onKernel Kernel.cli).handleKey (keyOf m.keyboard.status code)).screen t :=
    congrArg (fun display => pageAt _ (screenBase display t)) (Kernel.keybEnd_currTerminalNum _)
  exact hend.trans hkey

lemma terminalSwitch_kernel (m : Machine) (next : Tid) :
    (m.terminalSwitch next).console.kernel = m.console.kernel.terminalSwitch next := by
  unfold terminalSwitch
  dsimp only
  split_ifs with hsame
  · exact (if_pos hsame).symm
  · rfl

/-- The cursor that a switch stores is the one that the handler has loaded. -/
lemma keybIntrHandler_switch
    (hkey : keyOf m.keyboard.status code = .switch next) :
    (m.keybIntrHandler code).console.kernel = m.console.kernel.altKey next := by
  rw [keybIntrHandler, hkey]
  exact congrArg Kernel.keybEnd (terminalSwitch_kernel _ next)

namespace OnScreen

lemma terminalWrite_screen (h : m.OnScreen) {bytes : List Byte}
    (hok : m.StaysOnGrid env (.write bytes)) (ht : ¬ m.Draws (.write bytes) t) :
    (m.terminalWrite bytes).screen t = m.screen t := by
  have hmem := Console.putAll_sameBeyond hok
  have htarget : (m.onKernel Kernel.cli).console.kernel.videoMem =
      screenBase m.console.kernel.currTerminalNum m.console.kernel.scheduledTerminal := h.target
  rw [htarget] at hmem
  exact screen_eq (Console.putAll_currTerminalNum (m.onKernel Kernel.cli).console bytes) hmem ht

lemma terminalRead_screen (h : m.OnScreen) (hok : m.StaysOnGrid env .read)
    (ht : ¬ m.Draws .read t) : m.terminalRead.2.screen t = m.screen t := by
  have hmem := Console.putAll_sameBeyond hok
  rw [h.target] at hmem
  exact screen_eq (Console.putAll_currTerminalNum m.console _) hmem ht

/-- A tick prints nothing, or what the shell that it starts prints on its own screen. -/
lemma tick_spec (hshell : HasShell env.img) (h : m.OnScreen) (htick : m.tick env regs = some m') :
    m'.OnScreen ∧ (m.StaysOnGrid env (.tick regs) → ¬ m.Draws (.tick regs) t →
      m'.screen t = m.screen t) := by
  have hsound := h.toSound.tick hshell htick
  obtain ⟨s, hs, hvideo, -⟩ := h.toSound.exists_systemTick hshell regs
  have hwired := h.shells.wired
  rw [hwired.ticked_eq] at hvideo
  have heq : m' = { m with
      console := { m.console with kernel := s.kernel }.putAll m.console.kernel.tickOutput
      running := s.running } := by
    rw [tick, hs, Option.map_some] at htick
    exact (Option.some.inj htick).symm
  subst heq
  have hdisplay : (Console.putAll m.console.kernel.tickOutput
      { m.console with kernel := s.kernel }).kernel.currTerminalNum =
        m.console.kernel.currTerminalNum :=
    (Console.putAll_currTerminalNum _ _).trans hvideo.display
  have htarget : s.kernel.videoMem = screenBase m.console.kernel.currTerminalNum
      (m.console.kernel.scheduledTerminal + 1) := hvideo.videoMem
  refine ⟨⟨hsound, ?_⟩, fun hok ht => ?_⟩
  · have hscheduled : (Console.putAll m.console.kernel.tickOutput
        { m.console with kernel := s.kernel }).kernel.scheduledTerminal =
          m.console.kernel.scheduledTerminal + 1 :=
      (Console.putAll_sameProcesses _ _).scheduled.trans hvideo.scheduled
    show (Console.putAll _ _).kernel.videoMem = _
    rw [Console.putAll_videoMem, hdisplay, hscheduled]
    exact htarget
  · have hmem := Console.putAll_sameBeyond (hok s hs)
    have htarget' : Kernel.videoMem { m.console with kernel := s.kernel }.kernel =
        screenBase m.console.kernel.currTerminalNum (m.console.kernel.scheduledTerminal + 1) :=
      htarget
    rw [htarget'] at hmem
    by_cases hnext : t = m.console.kernel.scheduledTerminal + 1
    · subst hnext
      have hnone := hwired.tickOutput_eq_nil fun hzero => ht ⟨rfl, hzero⟩
      rw [screen, screen]
      dsimp only
      rw [hdisplay, hnone]
      rfl
    · exact screen_eq (m := m) hdisplay hmem hnext

lemma step {a : Action} (hshell : HasShell env.img) (h : m.OnScreen)
    (hstep : m.step env a = some m') : m'.OnScreen := by
  have hsound := h.toSound.step hshell hstep
  refine ⟨hsound, ?_⟩
  cases a with
  | key code =>
    cases hstep
    have hwired := handleKey_wired (m := m.onKernel Kernel.cli) h.shells.wired.cli
      (keyOf m.keyboard.status code)
    have hend := hwired.keybEnd_eq
    show (Kernel.keybEnd _).videoMem = screenBase (Kernel.keybEnd _).currTerminalNum
      (Kernel.keybEnd _).scheduledTerminal
    rw [hend]
    rfl
  | tick regs => exact (h.tick_spec (t := 0) hshell hstep).1.target
  | write bytes =>
    cases hstep
    have htarget : (m.terminalWrite bytes).console.kernel.videoMem = m.console.kernel.videoMem :=
      Console.putAll_videoMem (m.onKernel Kernel.cli).console bytes
    rw [htarget, m.terminalWrite_currTerminalNum, (m.terminalWrite_sameProcesses bytes).scheduled]
    exact h.target
  | read =>
    obtain ⟨-, rfl⟩ := step_read hstep
    have htarget : m.terminalRead.2.console.kernel.videoMem = m.console.kernel.videoMem :=
      Console.putAll_videoMem m.console _
    rw [htarget, m.terminalRead_currTerminalNum, m.terminalRead_sameProcesses.scheduled]
    exact h.target

lemma step_screen {a : Action} (hshell : HasShell env.img) (h : m.OnScreen)
    (hok : m.StaysOnGrid env a) (hstep : m.step env a = some m') (ht : ¬ m.Draws a t) :
    m'.screen t = m.screen t := by
  cases a with
  | key code =>
    cases hstep
    exact keybIntrHandler_screen h.shells.wired hok ht
  | tick regs => exact (h.tick_spec hshell hstep).2 hok ht
  | write bytes =>
    cases hstep
    exact h.terminalWrite_screen hok ht
  | read =>
    obtain ⟨-, rfl⟩ := step_read hstep
    exact h.terminalRead_screen hok ht

end OnScreen

end

end Machine

lemma Machine.Boot.onScreen {env : Env} {m : Machine} (h : Machine.Boot env m) : m.OnScreen := by
  refine ⟨h.sound, ?_⟩
  have hdisplay := h.currTerminalNum
  obtain ⟨d, argument, hkernel, -, rfl⟩ := h.exists_console
  have hscheduled := (Console.putAll_sameProcesses d
    ((bootKernel env.layout).executeOutput (text "shell") 0)).scheduled
  dsimp only at hdisplay ⊢
  rw [Console.putAll_videoMem, hdisplay, hscheduled, hkernel]
  rfl

/-! ### The first output of a shell -/

lemma Kernel.executeOutput_shell {k : Kernel} (hfree : k.determineWhichPcbEmpty ≠ none) (t : Tid) :
    k.executeOutput (text "shell") t = (text "command is shell " ++ [chNewline]) ++
      ((text "in terminal " ++ [0x31#8 + BitVec.ofNat 8 t] ++ text " now") ++ [chNewline]) := by
  rw [executeOutput, if_neg hfree]
  revert t
  decide

/-- What the first shells print has no control characters, but for the ends of its two lines. -/
lemma Console.plain_command : ∀ ch ∈ text "command is shell ", Plain ch := by
  simp [text, Plain, chBackspace, chNewline, chReturn, chTab]

lemma Console.plain_terminal (t : Tid) :
    ∀ ch ∈ text "in terminal " ++ [0x31#8 + BitVec.ofNat 8 t] ++ text " now", Plain ch := by
  have hdigit : Plain (0x31#8 + BitVec.ofNat 8 t) := by
    revert t
    decide
  have hbefore : ∀ ch ∈ text "in terminal ", Plain ch := by
    simp [text, Plain, chBackspace, chNewline, chReturn, chTab]
  have hafter : ∀ ch ∈ text " now", Plain ch := by
    simp [text, Plain, chBackspace, chNewline, chReturn, chTab]
  intro ch hch
  rw [List.mem_append, List.mem_append, List.mem_singleton] at hch
  obtain (hch | rfl) | hch := hch
  · exact hbefore ch hch
  · exact hdigit
  · exact hafter ch hch

/-- Two lines from the top of the screen on, and the cursor below them. -/
lemma Console.putAll_shell {c : Console} {k : Kernel} (hx : c.kernel.screenX = 0)
    (hy : c.kernel.screenY = 0) (hfree : k.determineWhichPcbEmpty ≠ none) (t : Tid) :
    c.Stays (k.executeOutput (text "shell") t) ∧
      (c.putAll (k.executeOutput (text "shell") t)).kernel.screenX = 0 ∧
      (c.putAll (k.executeOutput (text "shell") t)).kernel.screenY = 2 ∧
      (c.putAll (k.executeOutput (text "shell") t)).memory (c.kernel.videoMem + 320#32) =
        chUnderscore := by
  have hcommand : (text "command is shell ").length < 80 := by
    simp [text]
  have hterminal :
      (text "in terminal " ++ [0x31#8 + BitVec.ofNat 8 t] ++ text " now").length < 80 := by
    simp [text]
  obtain ⟨hstays, hx₁, hy₁⟩ := c.putAll_line plain_command hx (by rw [hy]) (by rw [hy]; decide)
    hcommand
  obtain ⟨hstays', hx₂, hy₂⟩ := putAll_line (plain_terminal t) hx₁ (by rw [hy₁, hy]; decide)
    (by rw [hy₁, hy]; decide) hterminal
  rw [hy₁, hy] at hy₂
  have happend : c.putAll (k.executeOutput (text "shell") t) =
      (c.putAll (text "command is shell " ++ [chNewline])).putAll
        (text "in terminal " ++ [0x31#8 + BitVec.ofNat 8 t] ++ text " now" ++ [chNewline]) := by
    rw [Kernel.executeOutput_shell hfree, putAll_append]
  have hlast := putc_newline_memory ((c.putAll (text "command is shell " ++ [chNewline])).putAll
    (text "in terminal " ++ [0x31#8 + BitVec.ofNat 8 t] ++ text " now"))
  rw [← putAll_concat, putAll_videoMem, putAll_videoMem, cell, hx₂, hy₂] at hlast
  refine ⟨?_, ?_, ?_, ?_⟩
  · rw [Kernel.executeOutput_shell hfree]
    exact hstays.append hstays'
  · rw [happend, hx₂]
  · rw [happend, hy₂]
    rfl
  · rw [happend]
    exact hlast

section

variable {env : Env} {m m' : Machine} {d : Console} {regs : Regs} {argument : List Byte}

lemma bootKernel_free (L : Layout) : (bootKernel L).determineWhichPcbEmpty ≠ none := by
  intro hnone
  exact Kernel.determineWhichPcbEmpty_eq_none.mp hnone 0 rfl

/-- The first shell prints on the screen of the first terminal. -/
lemma Console.putAll_boot (env : Env)
    (hkernel : d.kernel = ((bootKernel env.layout).base 0 argument).sti)
    (hecho : d.keybPressed = false) :
    SameBeyond (screenBase 0 0) d.memory
      (d.putAll ((bootKernel env.layout).executeOutput (text "shell") 0)).memory ∧
      (d.putAll ((bootKernel env.layout).executeOutput (text "shell") 0)).kernel.screenX = 0 ∧
      (d.putAll ((bootKernel env.layout).executeOutput (text "shell") 0)).kernel.screenY = 2 ∧
      ∀ t : Tid, t ≠ 0 →
        (d.putAll ((bootKernel env.layout).executeOutput (text "shell") 0)).kernel.terminalList t =
          initTerminal t := by
  have hvideo := Machine.bootKernel_base_sameVideo env.layout argument
  rw [← hkernel] at hvideo
  obtain ⟨hstays, hx, hy, -⟩ := Console.putAll_shell hvideo.screenX hvideo.screenY
    (bootKernel_free env.layout) 0
  have hmem := putAll_sameBeyond hstays
  have htarget : d.kernel.videoMem = screenBase 0 0 := hvideo.videoMem
  have hwired : Wired d.kernel := by
    rw [hkernel]
    exact Machine.bootKernel_base_wired _ _
  rw [htarget] at hmem
  refine ⟨hmem, hx, hy, fun t ht => ?_⟩
  have hscheduled : t ≠ d.kernel.scheduledTerminal := by
    rw [hvideo.scheduled]
    exact ht
  rw [putAll_terminalList_of_ne hwired hecho hscheduled, hkernel]
  exact Function.update_of_ne ht _ _

/-- The first tick starts the second shell, on the second terminal. -/
lemma Machine.Boot.first_tick (h : Machine.Boot env m) (htick : m.tick env regs = some m') :
    m.StaysOnGrid env (.tick regs) ∧ m'.console.kernel.screenX = 0 ∧
      m'.console.kernel.screenY = 2 ∧
      m'.console.memory (screenBase 0 1 + 320#32) = chUnderscore := by
  have hsound := h.sound
  have hdisplay := h.currTerminalNum
  obtain ⟨s, hs, hvideo, -⟩ := hsound.exists_systemTick h.hasShell regs
  have hfree : m.console.kernel.determineWhichPcbEmpty ≠ none := by
    obtain ⟨chain, hinv, hlen⟩ := hsound.shells.inv
    exact hinv.exists_free hlen
  rw [tick, hs] at htick
  obtain rfl := Option.some.inj htick
  obtain ⟨d, argument, hkernel, hecho, hm⟩ := h.exists_console
  have hscheduled : m.console.kernel.scheduledTerminal = 0 := by
    rw [hm]
    refine (Console.putAll_sameProcesses _ _).scheduled.trans ?_
    rw [hkernel]
    rfl
  have hterminal : m.console.kernel.terminalList 1 = initTerminal 1 := by
    have hboot := (Console.putAll_boot env hkernel hecho).2.2.2 1 (by decide)
    rw [hm]
    exact hboot
  have hone : m.console.kernel.scheduledTerminal + 1 = 1 := by
    rw [hscheduled]
    rfl
  rw [hsound.shells.wired.ticked_eq, hone, hterminal, hdisplay] at hvideo
  have hout : m.console.kernel.tickOutput = m.console.kernel.executeOutput (text "shell") 1 := by
    have hnext : m.console.kernel.scheduled.nextTerminal = some 1 := by
      have hnext := hsound.shells.wired.next m.console.kernel.scheduledTerminal
      rwa [hone] at hnext
    have hcount : (m.console.kernel.terminalList 1).countPcb = 0#32 := by
      rw [hterminal]
      rfl
    rw [Kernel.tickOutput, hnext]
    exact if_pos hcount
  obtain ⟨hstays, hx, hy, hmem⟩ := Console.putAll_shell
    (c := { m.console with kernel := s.kernel }) hvideo.screenX hvideo.screenY hfree 1
  refine ⟨fun s' hs' => ?_, ?_, ?_, ?_⟩
  · obtain rfl := Option.some.inj (hs.symm.trans hs')
    rw [hout]
    exact hstays
  · dsimp only
    rw [hout, hx]
  · dsimp only
    rw [hout, hy]
  · have htarget : s.kernel.videoMem = screenBase 0 1 := hvideo.videoMem
    dsimp only at hmem ⊢
    rw [htarget] at hmem
    rw [hout, hmem]

/-- A machine that boots over video pages that hold nothing yet. -/
lemma Machine.exists_boot_blank : ∃ m, Machine.Boot smallKernel m ∧ m.console.kernel.screenX = 0 ∧
    m.console.kernel.screenY = 2 ∧ ∀ t : Tid, t ≠ 0 → ∀ i, m.screen t i = 0 := by
  obtain ⟨s, hs⟩ := exists_firstShell_small
  obtain ⟨argument, rfl⟩ := firstShell_eq hs
  let d : Console := { Console.boot smallKernel.layout fun _ => 0 with
    kernel := ((bootKernel smallKernel.layout).base 0 argument).sti, keybPressed := false }
  obtain ⟨hmem, hx, hy, -⟩ := Console.putAll_boot (d := d) smallKernel rfl rfl
  have hboot : Machine.Boot smallKernel ⟨d.putAll
      ((bootKernel smallKernel.layout).executeOutput (text "shell") 0), Keyboard.boot, 0⟩ := by
    refine ⟨⟨0#32, 0#32⟩, Console.boot smallKernel.layout fun _ => 0, ?_⟩
    rw [Machine.start, hs]
    rfl
  refine ⟨_, hboot, hx, hy, fun t ht i => ?_⟩
  rw [Machine.screen, hboot.currTerminalNum, hmem.pageAt_eq ht]
  rfl

end

/-- Along every run in which the cursor stays on the grid, a step changes no screen but those that
it draws on, and a switch leaves the stored cursors. -/
theorem screen_isolation {env : Env} {m₀ m m' : Machine} {as : List Machine.Action}
    {a : Machine.Action} (hboot : Machine.Boot env m₀)
    (hrun : Run (Guarded (Graph (Machine.step env)) (Machine.StaysOnGrid env)) m₀ as m)
    (hok : m.StaysOnGrid env a) (hstep : m.step env a = some m') :
    (∀ t, ¬ m.Draws a t → m'.screen t = m.screen t) ∧
      ∀ code next, a = .key code → keyOf m.keyboard.status code = .switch next → ∀ t,
        (m'.console.kernel.terminalList t).xCursor = (m.console.kernel.terminalList t).xCursor ∧
          (m'.console.kernel.terminalList t).yCursor =
            (m.console.kernel.terminalList t).yCursor := by
  have hscreen : m.OnScreen :=
    hrun.invariant (fun _ _ _ hm hstep => hm.step hboot.hasShell hstep.1) hboot.onScreen
  constructor
  · intro t ht
    exact hscreen.step_screen hboot.hasShell hok hstep ht
  · rintro code next rfl hkey t
    cases hstep
    rw [Machine.keybIntrHandler_switch hkey, hscreen.shells.wired.altKey_terminalList]
    exact ⟨rfl, rfl⟩

/-- The first shell writes an `a`. -/
theorem screen_isolation_small : ∃ m₀ m', Machine.Boot smallKernel m₀ ∧
    m₀.step smallKernel (.write [0x61]) = some m' ∧ m'.screen 1 = m₀.screen 1 := by
  obtain ⟨m₀, hboot, hx, hy, -⟩ := Machine.exists_boot_blank
  have hgrid : OnGrid m₀.console.kernel.screenX m₀.console.kernel.screenY := by
    rw [hx, hy]
    decide
  have hok : m₀.StaysOnGrid smallKernel (.write [0x61]) := by
    refine (Console.putAll_plain (c := (m₀.onKernel Kernel.cli).console) (by decide) hgrid ?_).1
    show m₀.console.kernel.screenX + 1 < 80
    rw [hx]
    decide
  have hstep : m₀.step smallKernel (.write [0x61]) = some (m₀.terminalWrite [0x61]) := rfl
  have hisolation := screen_isolation hboot (.refl m₀) hok hstep
  have hother : ¬ m₀.Draws (.write [0x61]) 1 := by
    intro heq
    have hscheduled : (1 : Tid) = m₀.console.kernel.scheduledTerminal := heq
    rw [← (Typing.Follows.boot hboot).scheduled] at hscheduled
    cases hscheduled
  exact ⟨m₀, _, hboot, hstep, hisolation.1 1 hother⟩

/-- The first tick starts a shell on the second terminal, which prints on its screen. -/
theorem screen_isolation_launch : ∃ m₀ m' regs, Machine.Boot smallKernel m₀ ∧
    m₀.StaysOnGrid smallKernel (.tick regs) ∧ m₀.step smallKernel (.tick regs) = some m' ∧
      m'.screen 1 ≠ m₀.screen 1 := by
  obtain ⟨m₀, hboot, -, -, hblank⟩ := Machine.exists_boot_blank
  obtain ⟨m', htick⟩ : ∃ m', m₀.tick smallKernel ⟨0#32, 0#32⟩ = some m' := by
    obtain ⟨k', q, -, -, htick⟩ := hboot.sound.exists_tick hboot.hasShell ⟨0#32, 0#32⟩
    exact ⟨_, htick⟩
  obtain ⟨hok, -, -, hmem⟩ := hboot.first_tick htick
  have hdisplay := (hboot.sound.tick_terminals hboot.hasShell htick).2
  refine ⟨m₀, m', ⟨0#32, 0#32⟩, hboot, hok, htick, fun heq => ?_⟩
  have hcell : m'.screen 1 320 = chUnderscore := by
    rw [Machine.screen, hdisplay, hboot.currTerminalNum]
    exact hmem
  rw [heq, hblank 1 (by decide)] at hcell
  exact absurd hcell (by decide)

end Osgods
