import Osgods.Terminal.Machine

/-!
# The invariant of the machine

Whatever the keyboard and the console do, the processes stay as the invariant of the system has
them; and as only ticks start processes here, each terminal has at most its base shell, so that no
tick lacks a free PCB.
-/

namespace Osgods

open Transition

/-- Two kernels with the same processes, stacks and pages. -/
structure Kernel.SameProcesses (k k' : Kernel) : Prop where
  pcbs      : k'.pcbs = k.pcbs
  terminal  : ∀ t, (k.terminalList t).Like (k'.terminalList t)
  scheduled : k'.scheduledTerminal = k.scheduledTerminal
  pid       : k'.pid = k.pid
  curr      : k'.currPcb = k.currPcb
  tss       : k'.tss = k.tss
  pageDir   : k'.paging.pageDir = k.paging.pageDir

section

variable {env : Env} {chain : Tid → List Slot} {k k' k'' : Kernel} {c : Slot} {t next : Tid}

namespace Kernel.SameProcesses

lemma refl (k : Kernel) : k.SameProcesses k := ⟨rfl, fun _ => .refl _, rfl, rfl, rfl, rfl, rfl⟩

lemma trans (h : k.SameProcesses k') (h' : k'.SameProcesses k'') : k.SameProcesses k'' where
  pcbs      := h'.pcbs.trans h.pcbs
  terminal  := fun t => by
    obtain ⟨hcount, htid, hnext, hptr⟩ := h.terminal t
    obtain ⟨hcount', htid', hnext', hptr'⟩ := h'.terminal t
    exact ⟨hcount'.trans hcount, htid'.trans htid, hnext'.trans hnext, hptr'.trans hptr⟩
  scheduled := h'.scheduled.trans h.scheduled
  pid       := h'.pid.trans h.pid
  curr      := h'.curr.trans h.curr
  tss       := h'.tss.trans h.tss
  pageDir   := h'.pageDir.trans h.pageDir

lemma updateTerminal {g : Terminal → Terminal} (k : Kernel) (t : Tid)
    (hg : ∀ a : Terminal, a.Like (g a)) : k.SameProcesses (k.updateTerminal t g) := by
  refine ⟨rfl, fun u => ?_, rfl, rfl, rfl, rfl, rfl⟩
  rw [updateTerminal_terminalList, Function.update_apply]
  split_ifs with hu
  · subst hu
    exact hg _
  · exact .refl _

end Kernel.SameProcesses

lemma Inv.congr (h : Inv chain k c) (hsame : k.SameProcesses k') : Inv chain k' c where
  toMapped := h.toMapped.congr
    (fun s => by rw [hsame.pcbs]; exact .refl _) hsame.terminal hsame.scheduled
    (by rw [hsame.pid]; exact h.pid) hsame.curr hsame.pageDir
  stack    := h.stack.congr (fun s => by rw [hsame.pcbs]; exact ⟨id, rfl, rfl, rfl⟩) hsame.scheduled
    fun _ _ => rfl
  esp0     := by
    rw [hsame.tss, hsame.pcbs]
    exact h.esp0

/-! ### The kernel under the keyboard and the console -/

namespace Kernel

lemma sameProcesses_cli (k : Kernel) : k.SameProcesses k.cli :=
  ⟨rfl, fun _ => .refl _, rfl, rfl, rfl, rfl, rfl⟩

lemma sameProcesses_sti (k : Kernel) : k.SameProcesses k.sti :=
  ⟨rfl, fun _ => .refl _, rfl, rfl, rfl, rfl, rfl⟩

lemma sameProcesses_updateScreenXY (k : Kernel) (x y : ℤ) :
    k.SameProcesses (k.updateScreenXY x y) :=
  ⟨rfl, fun _ => .refl _, rfl, rfl, rfl, rfl, rfl⟩

lemma sameProcesses_updateVideoMem (k : Kernel) (target : Word) :
    k.SameProcesses (k.updateVideoMem target) :=
  ⟨rfl, fun _ => .refl _, rfl, rfl, rfl, rfl, rfl⟩

lemma sameProcesses_storeCursor (k : Kernel) (t : Tid) : k.SameProcesses (k.storeCursor t) :=
  .updateTerminal k t fun _ => ⟨rfl, rfl, rfl, rfl⟩

lemma sameProcesses_loadDisplay (k : Kernel) : k.SameProcesses k.loadDisplay :=
  ⟨rfl, fun _ => .refl _, rfl, rfl, rfl, rfl, rfl⟩

lemma sameProcesses_keybEnd (k : Kernel) : k.SameProcesses k.keybEnd := by
  unfold keybEnd
  dsimp only
  split_ifs
  · exact (sameProcesses_sti k).trans (sameProcesses_updateVideoMem _ _)
  · exact (sameProcesses_sti k).trans (sameProcesses_updateVideoMem _ _)

lemma sameProcesses_memorySwitch (k : Kernel) : k.SameProcesses k.memorySwitch := by
  obtain ⟨x, y, v, p, heq, hdir⟩ := memorySwitch_eq k
  rw [heq]
  exact ⟨rfl, fun _ => .refl _, rfl, rfl, rfl, rfl, hdir⟩

lemma sameProcesses_terminalSwitch (k : Kernel) (next : Tid) :
    k.SameProcesses (k.terminalSwitch next) := by
  unfold terminalSwitch
  split_ifs
  · exact .refl k
  · refine ((sameProcesses_storeCursor k k.currTerminalNum).trans ?_).trans
      (sameProcesses_memorySwitch _)
    exact ⟨rfl, fun _ => .refl _, rfl, rfl, rfl, rfl, rfl⟩

end Kernel

namespace Wired

lemma of_terminal (h : Wired k)
    (hterm : ∀ t, (k'.terminalList t).tid = (k.terminalList t).tid ∧
      (k'.terminalList t).nextTerminal = (k.terminalList t).nextTerminal ∧
      (k'.terminalList t).videoPage = (k.terminalList t).videoPage)
    (hnum : k'.scheduledTerminalNum = k.scheduledTerminalNum)
    (hscheduled : k'.scheduledTerminal = k.scheduledTerminal) : Wired k' where
  tid  := fun t => (hterm t).1.trans (h.tid t)
  next := fun t => (hterm t).2.1.trans (h.next t)
  page := fun t => (hterm t).2.2.trans (h.page t)
  num  := hnum.trans (h.num.trans hscheduled.symm)

lemma updateTerminal {g : Terminal → Terminal} (h : Wired k) (t : Tid)
    (hg : ∀ a : Terminal, (g a).tid = a.tid ∧ (g a).nextTerminal = a.nextTerminal ∧
      (g a).videoPage = a.videoPage) : Wired (k.updateTerminal t g) := by
  refine h.of_terminal (fun u => ?_) rfl rfl
  rw [Kernel.updateTerminal_terminalList, Function.update_apply]
  split_ifs with hu
  · subst hu
    exact hg _
  · exact ⟨rfl, rfl, rfl⟩

lemma updateScreenXY (h : Wired k) (x y : ℤ) : Wired (k.updateScreenXY x y) :=
  ⟨h.tid, h.next, h.page, h.num⟩

lemma storeCursor (h : Wired k) (t : Tid) : Wired (k.storeCursor t) :=
  h.updateTerminal t fun _ => ⟨rfl, rfl, rfl⟩

lemma keybEnd (h : Wired k) : Wired k.keybEnd := by
  rw [h.keybEnd_eq]
  exact ⟨h.tid, h.next, h.page, h.num⟩

lemma terminalSwitch (h : Wired k) (next : Tid) : Wired (k.terminalSwitch next) := by
  unfold Kernel.terminalSwitch
  split_ifs
  · exact h
  · have hstore := h.storeCursor k.currTerminalNum
    exact memorySwitch ⟨hstore.tid, hstore.next, hstore.page, hstore.num⟩

end Wired

/-- A tick to a terminal that has its shell prints nothing. -/
lemma Wired.tickOutput_eq_nil (h : Wired k)
    (hcount : (k.terminalList (k.scheduledTerminal + 1)).countPcb ≠ 0#32) : k.tickOutput = [] := by
  have hnext : k.scheduled.nextTerminal = some (k.scheduledTerminal + 1) := h.next _
  rw [Kernel.tickOutput, hnext]
  exact if_neg hcount

namespace Console

lemma putc_sameProcesses (d : Console) (ch : Byte) : d.kernel.SameProcesses (d.putc ch).kernel := by
  rcases d.putc_kernel ch with heq | ⟨x, y, heq⟩
  · rw [heq]
    exact .refl _
  · rw [heq]
    exact (Kernel.sameProcesses_updateScreenXY _ x y).trans (Kernel.sameProcesses_storeCursor _ _)

lemma putAll_sameProcesses (d : Console) (l : List Byte) :
    d.kernel.SameProcesses (d.putAll l).kernel := by
  induction l generalizing d with
  | nil => exact .refl _
  | cons ch l ih => exact (d.putc_sameProcesses ch).trans (ih _)

lemma clear_sameProcesses (d : Console) : d.kernel.SameProcesses d.clear.kernel := by
  rw [clear_kernel]
  refine (Kernel.sameProcesses_updateScreenXY _ 0 0).trans (.updateTerminal _ _ ?_)
  exact fun _ => ⟨rfl, rfl, rfl, rfl⟩

lemma putc_wired {d : Console} (h : Wired d.kernel) (ch : Byte) : Wired (d.putc ch).kernel := by
  rcases d.putc_kernel ch with heq | ⟨x, y, heq⟩
  · rwa [heq]
  · rw [heq]
    exact (h.updateScreenXY x y).storeCursor _

lemma putAll_wired {d : Console} (h : Wired d.kernel) (l : List Byte) :
    Wired (d.putAll l).kernel := by
  induction l generalizing d with
  | nil => exact h
  | cons ch l ih => exact ih (putc_wired h ch)

/-- What is not an echo is put on the scheduled terminal. -/
lemma target_eq {d : Console} (h : Wired d.kernel) (hecho : d.keybPressed = false) :
    d.target = d.kernel.scheduledTerminal := by
  rw [target, hecho]
  exact h.scheduled_tid

lemma putAll_terminalList_of_ne {d : Console} (h : Wired d.kernel) (hecho : d.keybPressed = false)
    (ht : t ≠ d.kernel.scheduledTerminal) (l : List Byte) :
    (d.putAll l).kernel.terminalList t = d.kernel.terminalList t := by
  induction l generalizing d with
  | nil => rfl
  | cons ch l ih =>
    have hscheduled := (d.putc_sameProcesses ch).scheduled
    have htarget : t ≠ d.target := by
      rwa [target_eq h hecho]
    rw [putAll_cons, ih (putc_wired h ch) (d.putc_keybPressed ch) (by rwa [hscheduled]),
      putc_terminalList_of_ne htarget]

lemma clear_wired {d : Console} (h : Wired d.kernel) : Wired d.clear.kernel := by
  rw [clear_kernel]
  exact (h.updateScreenXY 0 0).updateTerminal _ fun _ => ⟨rfl, rfl, rfl⟩

lemma putAll_keybPressed {d : Console} (h : d.keybPressed = false) (l : List Byte) :
    (d.putAll l).keybPressed = false := by
  induction l generalizing d with
  | nil => exact h
  | cons ch l ih => exact ih (d.putc_keybPressed ch)

end Console

namespace Machine

lemma handleKey_sameProcesses (m : Machine) (key : Key) :
    m.console.kernel.SameProcesses (m.handleKey key).console.kernel := by
  have hload := Kernel.sameProcesses_loadDisplay m.console.kernel
  refine handleKey_cases (motive := fun m' => m.console.kernel.SameProcesses m'.console.kernel)
    m key (fun status => ?_) hload ?_ (fun next => ?_) fun ch => ?_
  · exact .refl _
  · exact hload.trans (Console.clear_sameProcesses (m.onKernel Kernel.loadDisplay).console)
  · exact hload.trans (Kernel.sameProcesses_terminalSwitch _ next)
  · exact hload.trans (Console.putc_sameProcesses
      (m.onKernel Kernel.loadDisplay).console.setKeybPressed ch)

lemma handleKey_wired {m : Machine} (h : Wired m.console.kernel) (key : Key) :
    Wired (m.handleKey key).console.kernel := by
  have hload := h.loadDisplay
  refine handleKey_cases (motive := fun m => Wired m.console.kernel) m key (fun status => h) hload
    ?_ (fun next => ?_) fun ch => ?_
  · exact Console.clear_wired hload
  · exact hload.terminalSwitch next
  · exact Console.putc_wired hload ch

lemma handleKey_keybPressed {m : Machine} (h : m.console.keybPressed = false) (key : Key) :
    (m.handleKey key).console.keybPressed = false :=
  handleKey_cases (motive := fun m => m.console.keybPressed = false) m key (fun _ => h) h h
    (fun _ => h) fun ch => Console.putc_keybPressed _ ch

lemma handleKey_running (m : Machine) (key : Key) : (m.handleKey key).running = m.running :=
  handleKey_cases (motive := fun m' => m'.running = m.running) m key (fun _ => rfl) rfl rfl
    (fun _ => rfl) fun _ => rfl

lemma keybIntrHandler_running (m : Machine) (code : Byte) :
    (m.keybIntrHandler code).running = m.running :=
  handleKey_running (m.onKernel Kernel.cli) _

lemma keybIntrHandler_sameProcesses (m : Machine) (code : Byte) :
    m.console.kernel.SameProcesses (m.keybIntrHandler code).console.kernel :=
  ((Kernel.sameProcesses_cli _).trans (handleKey_sameProcesses (m.onKernel Kernel.cli) _)).trans
    (Kernel.sameProcesses_keybEnd _)

lemma terminalWrite_sameProcesses (m : Machine) (bytes : List Byte) :
    m.console.kernel.SameProcesses (m.terminalWrite bytes).console.kernel :=
  ((Kernel.sameProcesses_cli _).trans
    (Console.putAll_sameProcesses (m.onKernel Kernel.cli).console bytes)).trans
      (Kernel.sameProcesses_sti _)

lemma terminalRead_sameProcesses (m : Machine) :
    m.console.kernel.SameProcesses m.terminalRead.2.console.kernel :=
  Console.putAll_sameProcesses _ _

end Machine

/-! ### The invariant -/

/-- The kernel, with `running` as its current process. -/
structure Kernel.Shells (k : Kernel) (running : Slot) : Prop where
  wired : Wired k
  inv   : ∃ chain, Inv chain k running ∧ ∀ t, (chain t).length ≤ 1

lemma Kernel.Shells.congr (h : k.Shells c) (hsame : k.SameProcesses k') (hwired : Wired k') :
    k'.Shells c := by
  obtain ⟨chain, hinv, hlen⟩ := h.inv
  exact ⟨hwired, chain, hinv.congr hsame, hlen⟩

/-- With one process on a terminal at most, a PCB is free. -/
lemma Inv.exists_free (h : Inv chain k c) (hlen : ∀ t, (chain t).length ≤ 1) :
    k.determineWhichPcbEmpty ≠ none := by
  intro hnone
  rw [Kernel.determineWhichPcbEmpty_eq_none] at hnone
  have hinj : Function.Injective fun s => (k.pcbs s).tid := by
    intro s s' htid
    have hmem := h.chains.mem_tid (hnone s)
    have hmem' := h.chains.mem_tid (hnone s')
    have htid' : (k.pcbs s).tid = (k.pcbs s').tid := htid
    rw [← htid'] at hmem'
    have hle := hlen (k.pcbs s).tid
    cases hchain : chain (k.pcbs s).tid with
    | nil =>
      rw [hchain] at hmem
      cases hmem
    | cons a l =>
      rw [hchain, List.length_cons] at hle
      have hnil : l = [] := List.eq_nil_of_length_eq_zero (by omega)
      rw [hchain, hnil, List.mem_singleton] at hmem hmem'
      exact hmem.trans hmem'.symm
  have hcard := Fintype.card_le_of_injective _ hinj
  rw [Fintype.card_fin, Fintype.card_fin] at hcard
  omega

namespace Machine

variable {m m' : Machine} {regs : Regs}

structure Sound (m : Machine) : Prop where
  shells : m.console.kernel.Shells m.running
  echo   : m.console.keybPressed = false

namespace Sound

lemma keybIntrHandler (h : m.Sound) (code : Byte) : (m.keybIntrHandler code).Sound where
  shells := by
    rw [keybIntrHandler_running]
    exact h.shells.congr (keybIntrHandler_sameProcesses m code)
      (handleKey_wired (m := m.onKernel Kernel.cli) h.shells.wired.cli _).keybEnd
  echo   := handleKey_keybPressed (m := m.onKernel Kernel.cli) h.echo _

lemma terminalWrite (h : m.Sound) (bytes : List Byte) : (m.terminalWrite bytes).Sound where
  shells := h.shells.congr (terminalWrite_sameProcesses m bytes)
    (Console.putAll_wired (d := (m.onKernel Kernel.cli).console) h.shells.wired.cli bytes).sti
  echo   := Console.putAll_keybPressed (d := (m.onKernel Kernel.cli).console) h.echo bytes

lemma terminalRead (h : m.Sound) : m.terminalRead.2.Sound where
  shells := h.shells.congr (terminalRead_sameProcesses m) (Console.putAll_wired h.shells.wired _)
  echo   := Console.putAll_keybPressed h.echo _

/-- A tick goes on with a process that was waiting, or with a new shell. -/
lemma exists_systemTick (hshell : HasShell env.img) (h : m.Sound) (regs : Regs) :
    ∃ s, System.step env ⟨m.console.kernel, m.running⟩ (.tick regs) = some s ∧
      (m.console.kernel.ticked (m.console.kernel.scheduledTerminal + 1)).SameVideo s.kernel ∧
        s.kernel.Shells s.running := by
  obtain ⟨chain, hinv, hlen⟩ := h.shells.inv
  obtain ⟨s', chain', heq, hout⟩ := Inv.exists_outcome (s := ⟨m.console.kernel, m.running⟩)
    hshell hinv (.tick regs) fun _ _ _ => hinv.exists_free hlen
  have hinv' := hout.inv hinv
  have hticked := h.shells.wired.ticked (m.console.kernel.scheduledTerminal + 1)
  cases hout with
  | @resumed _ q _ hchain =>
    have hvideo := (Kernel.sameVideo_resumed m.running q
      (m.console.kernel.scheduledTerminal + 1) regs m.console.kernel).trans (Kernel.sameVideo_sti _)
    exact ⟨_, heq, hvideo, ⟨hticked.congr hvideo, chain, hinv', hlen⟩⟩
  | @launched _ n argument hchain hn =>
    have hvideo := (Kernel.sameVideo_launched m.running n
      (m.console.kernel.scheduledTerminal + 1) regs argument m.console.kernel).trans
        (Kernel.sameVideo_sti _)
    refine ⟨_, heq, hvideo, ⟨hticked.congr hvideo, _, hinv', fun t => ?_⟩⟩
    rw [Function.update_apply]
    split_ifs
    · exact le_refl 1
    · exact hlen t

lemma exists_tick (hshell : HasShell env.img) (h : m.Sound) (regs : Regs) :
    ∃ k' q, (m.console.kernel.ticked (m.console.kernel.scheduledTerminal + 1)).SameVideo k' ∧
      k'.Shells q ∧ m.tick env regs = some
        { m with
          console := { m.console with kernel := k' }.putAll m.console.kernel.tickOutput
          running := q } := by
  obtain ⟨s, heq, hvideo, hshells⟩ := h.exists_systemTick hshell regs
  refine ⟨s.kernel, s.running, hvideo, hshells, ?_⟩
  rw [Machine.tick, heq, Option.map_some]

lemma tick (hshell : HasShell env.img) (h : m.Sound) (heq : m.tick env regs = some m') :
    m'.Sound := by
  obtain ⟨k', q, -, hshells, heq'⟩ := h.exists_tick hshell regs
  obtain rfl := Option.some.inj (heq'.symm.trans heq)
  have hput := Console.putAll_sameProcesses { m.console with kernel := k' }
    m.console.kernel.tickOutput
  have hwired := Console.putAll_wired (d := { m.console with kernel := k' }) hshells.wired
    m.console.kernel.tickOutput
  exact ⟨hshells.congr hput hwired,
    Console.putAll_keybPressed (d := { m.console with kernel := k' }) h.echo _⟩

lemma step (hshell : HasShell env.img) {a : Action} (h : m.Sound)
    (hstep : m.step env a = some m') : m'.Sound := by
  cases a with
  | key code =>
    cases hstep
    exact h.keybIntrHandler code
  | tick regs => exact h.tick hshell hstep
  | write bytes =>
    cases hstep
    exact h.terminalWrite bytes
  | read =>
    unfold Machine.step at hstep
    split_ifs at hstep
    cases hstep
    exact h.terminalRead

end Sound

/-! ### Boot -/

lemma Boot.hasShell (h : Boot env m) : HasShell env.img := by
  obtain ⟨regs, d, hstart⟩ := h
  obtain ⟨s, hs, -⟩ := Option.map_eq_some_iff.mp hstart
  exact firstShell_hasShell hs

lemma bootKernel_wired (L : Layout) : Wired (bootKernel L) :=
  ⟨fun _ => rfl, fun _ => rfl, fun _ => rfl, rfl⟩

/-- The console before the first shell's own output. -/
lemma Boot.exists_console (h : Boot env m) : ∃ (d : Console) (argument : List Byte),
    d.kernel = ((bootKernel env.layout).base 0 argument).sti ∧ d.keybPressed = false ∧
      m = ⟨d.putAll ((bootKernel env.layout).executeOutput (text "shell") 0), Keyboard.boot,
        0⟩ := by
  obtain ⟨regs, d, hstart⟩ := h
  obtain ⟨s, hs, rfl⟩ := Option.map_eq_some_iff.mp hstart
  obtain ⟨argument, rfl⟩ := firstShell_eq hs
  exact ⟨{ d with
    kernel := ((bootKernel env.layout).base 0 argument).sti, keybPressed := false },
      argument, rfl, rfl, rfl⟩

lemma bootKernel_base_sameVideo (L : Layout) (argument : List Byte) :
    (bootKernel L).SameVideo ((bootKernel L).base 0 argument).sti :=
  (Kernel.sameVideo_base _ _ _).trans (Kernel.sameVideo_sti _)

lemma bootKernel_base_wired (L : Layout) (argument : List Byte) :
    Wired ((bootKernel L).base 0 argument).sti :=
  (bootKernel_wired L).congr (bootKernel_base_sameVideo L argument)

lemma Boot.sound (h : Boot env m) : m.Sound := by
  obtain ⟨d, argument, hkernel, hecho, rfl⟩ := h.exists_console
  have hshells : d.kernel.Shells 0 := by
    rw [hkernel]
    refine ⟨bootKernel_base_wired _ argument, _, bootKernel_base_inv env.layout argument, ?_⟩
    intro t
    rw [Function.update_apply]
    split_ifs
    · exact le_refl 1
    · exact Nat.zero_le 1
  exact ⟨hshells.congr (Console.putAll_sameProcesses _ _) (Console.putAll_wired hshells.wired _),
    Console.putAll_keybPressed hecho _⟩

end Machine

end

end Osgods
