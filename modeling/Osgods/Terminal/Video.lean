import Osgods.Terminal.Console
import Osgods.Process.Outcome

/-!
# What is displayed, where, and at which cursor

The parts of `terminal_switch` and of the keyboard handler that work on the kernel's globals, and
what each step of the system does to these: `SameVideo` says that it leaves them alone, and
`ticked` is all that a tick does to them.
-/

namespace Osgods

namespace Kernel

/-! ### `terminal_switch` and `keyb_intr_handler` -/

/-- The handler turns to the displayed terminal. -/
def loadDisplay (k : Kernel) : Kernel :=
  let u := k.terminalList k.currTerminalNum
  (k.updateVideoMem videoMemoryAddr).updateScreenXY u.xCursor u.yCursor

/-- The label `end` of the handler. -/
def keybEnd (k : Kernel) : Kernel :=
  let k := k.sti
  let t := k.scheduled.tid
  if t ≠ k.currTerminalNum then k.updateVideoMem (k.terminalList t).videoPage
  else k.updateVideoMem videoMemoryAddr

/-- `terminal_switch`, without the pages and the key buffers that it copies. -/
def terminalSwitch (next : Tid) (k : Kernel) : Kernel :=
  if k.currTerminalNum = next then k
  else
    let k := (k.storeCursor k.currTerminalNum).updateVideoMem videoMemoryAddr
    let k := k.updateScreenXY (k.terminalList next).xCursor (k.terminalList next).yCursor
    { k.cli.sti with currTerminalNum := next }.memorySwitch

/-- The handler for Alt and a function key. -/
def altKey (next : Tid) (k : Kernel) : Kernel := ((k.cli.loadDisplay).terminalSwitch next).keybEnd

end Kernel

/-- Where the text of terminal `t` lies while `display` is displayed. -/
def screenBase (display t : Tid) : Word := if t = display then videoMemoryAddr else videoPage t

/-- What `terminal_init` and `scheduler` set up once and for all. -/
structure Wired (k : Kernel) : Prop where
  tid  : ∀ t, (k.terminalList t).tid = t
  next : ∀ t, (k.terminalList t).nextTerminal = some (t + 1)
  page : ∀ t, (k.terminalList t).videoPage = videoPage t
  num  : k.scheduledTerminalNum = k.scheduledTerminal

/-! ### Frames -/

/-- Two records of a terminal with the same cursor, page and flag. -/
structure Terminal.SameVideo (a b : Terminal) : Prop where
  tid     : b.tid = a.tid
  next    : b.nextTerminal = a.nextTerminal
  page    : b.videoPage = a.videoPage
  xCursor : b.xCursor = a.xCursor
  yCursor : b.yCursor = a.yCursor
  vidmap  : b.vidmap = a.vidmap

structure Kernel.SameVideo (k k' : Kernel) : Prop where
  terminal  : ∀ t, (k.terminalList t).SameVideo (k'.terminalList t)
  display   : k'.currTerminalNum = k.currTerminalNum
  scheduled : k'.scheduledTerminal = k.scheduledTerminal
  num       : k'.scheduledTerminalNum = k.scheduledTerminalNum
  screenX   : k'.screenX = k.screenX
  screenY   : k'.screenY = k.screenY
  videoMem  : k'.videoMem = k.videoMem
  entry     : k'.paging.pageVidTable = k.paging.pageVidTable

section

variable {k k' k'' : Kernel} {c n p q : Slot} {next t : Tid} {regs : Regs} {argument : List Byte}

lemma Terminal.SameVideo.refl (a : Terminal) : a.SameVideo a := ⟨rfl, rfl, rfl, rfl, rfl, rfl⟩

lemma Terminal.SameVideo.trans {a b d : Terminal} (h : a.SameVideo b) (h' : b.SameVideo d) :
    a.SameVideo d :=
  ⟨h'.tid.trans h.tid, h'.next.trans h.next, h'.page.trans h.page, h'.xCursor.trans h.xCursor,
    h'.yCursor.trans h.yCursor, h'.vidmap.trans h.vidmap⟩

namespace Kernel

lemma SameVideo.refl (k : Kernel) : k.SameVideo k :=
  ⟨fun _ => .refl _, rfl, rfl, rfl, rfl, rfl, rfl, rfl⟩

lemma SameVideo.trans (h : k.SameVideo k') (h' : k'.SameVideo k'') : k.SameVideo k'' where
  terminal  := fun t => (h.terminal t).trans (h'.terminal t)
  display   := h'.display.trans h.display
  scheduled := h'.scheduled.trans h.scheduled
  num       := h'.num.trans h.num
  screenX   := h'.screenX.trans h.screenX
  screenY   := h'.screenY.trans h.screenY
  videoMem  := h'.videoMem.trans h.videoMem
  entry     := h'.entry.trans h.entry

/-- An update of a terminal's other fields. -/
lemma sameVideo_updateTerminal {g : Terminal → Terminal} (k : Kernel) (u : Tid)
    (hg : ∀ a : Terminal, a.SameVideo (g a)) : k.SameVideo (k.updateTerminal u g) := by
  refine ⟨fun t => ?_, rfl, rfl, rfl, rfl, rfl, rfl, rfl⟩
  rw [updateTerminal_terminalList, Function.update_apply]
  split_ifs with ht
  · subst ht
    exact hg _
  · exact .refl _

lemma sameVideo_cli (k : Kernel) : k.SameVideo k.cli :=
  ⟨fun _ => .refl _, rfl, rfl, rfl, rfl, rfl, rfl, rfl⟩

lemma sameVideo_sti (k : Kernel) : k.SameVideo k.sti :=
  ⟨fun _ => .refl _, rfl, rfl, rfl, rfl, rfl, rfl, rfl⟩

lemma sameVideo_forNew (k : Kernel) (n : Slot) : k.SameVideo (k.forNew n) :=
  ⟨fun _ => .refl _, rfl, rfl, rfl, rfl, rfl, rfl, rfl⟩

lemma sameVideo_started (k : Kernel) (n : Slot) (parentId : Word) (argument : List Byte) :
    k.SameVideo (k.started n parentId argument) := by
  refine SameVideo.trans (sameVideo_updateTerminal k k.scheduledTerminal
    (g := fun u => { u with countPcb := u.countPcb + 1#32 }) fun a => ?_) ?_
  · exact ⟨rfl, rfl, rfl, rfl, rfl, rfl⟩
  · exact ⟨fun _ => .refl _, rfl, rfl, rfl, rfl, rfl, rfl, rfl⟩

lemma sameVideo_base (k : Kernel) (n : Slot) (argument : List Byte) :
    k.SameVideo (k.base n argument) :=
  (k.sameVideo_forNew n).trans (sameVideo_started _ _ _ _)

lemma sameVideo_child (k : Kernel) (c n : Slot) (argument : List Byte) (regs : Regs) :
    k.SameVideo (k.child c n argument regs) :=
  ((k.sameVideo_forNew n).trans (sameVideo_started (k.forNew n) n (slotWord c) argument)).trans
    ⟨fun _ => .refl _, rfl, rfl, rfl, rfl, rfl, rfl, rfl⟩

lemma sameVideo_drop (k : Kernel) (c : Slot) : k.SameVideo (k.haltCount.haltInactive c) := by
  refine SameVideo.trans (sameVideo_updateTerminal k k.scheduledTerminal
    (g := fun u => { u with countPcb := u.countPcb - 1#32 }) fun a => ?_) ?_
  · exact ⟨rfl, rfl, rfl, rfl, rfl, rfl⟩
  · exact ⟨fun _ => .refl _, rfl, rfl, rfl, rfl, rfl, rfl, rfl⟩

lemma SameVideo.updateTerminal {g : Terminal → Terminal} (h : k.SameVideo k') (u : Tid)
    (hg : ∀ a b : Terminal, a.SameVideo b → (g a).SameVideo (g b)) :
    (k.updateTerminal u g).SameVideo (k'.updateTerminal u g) := by
  refine ⟨fun t => ?_, h.display, h.scheduled, h.num, h.screenX, h.screenY, h.videoMem, h.entry⟩
  simp only [updateTerminal_terminalList, Function.update_apply]
  split_ifs with ht
  · exact hg _ _ (h.terminal u)
  · exact h.terminal t

lemma SameVideo.haltVidmap (h : k.SameVideo k') : k.haltVidmap.SameVideo k'.haltVidmap := by
  have hflag : k'.scheduled.vidmap = k.scheduled.vidmap := by
    rw [Kernel.scheduled, h.scheduled]
    exact (h.terminal _).vidmap
  have hclear : ∀ a b : Terminal, a.SameVideo b →
      Terminal.SameVideo { a with vidmap := 0#32 } { b with vidmap := 0#32 } :=
    fun a b hab => ⟨hab.tid, hab.next, hab.page, hab.xCursor, hab.yCursor, rfl⟩
  unfold Kernel.haltVidmap
  rw [hflag, h.scheduled, h.display]
  split_ifs
  · exact (h.updateTerminal _ hclear).updateTerminal _ hclear
  · exact h

lemma sameVideo_haltEnd (k : Kernel) (p : Slot) : k.SameVideo ((k.haltTss p).haltCurr p) :=
  ⟨fun _ => .refl _, rfl, rfl, rfl, rfl, rfl, rfl, rfl⟩

/-- The halt of a process that has a parent changes no more than the flags. -/
lemma sameVideo_halted (k : Kernel) (c p : Slot) : k.haltVidmap.SameVideo (k.halted c p) := by
  have hcount : k.SameVideo k.haltCount :=
    sameVideo_updateTerminal k k.scheduledTerminal fun a => ⟨rfl, rfl, rfl, rfl, rfl, rfl⟩
  have hpaging : k.haltCount.SameVideo
      (((k.haltCount.cli.haltFiles c).haltInactive c).setUpPaging (slotWord p)) :=
    ⟨fun _ => .refl _, rfl, rfl, rfl, rfl, rfl, rfl, rfl⟩
  exact (hcount.trans hpaging).haltVidmap.trans (sameVideo_haltEnd _ p)

/-! ### A tick -/

/-- What a tick does to the screens. -/
def ticked (next : Tid) (k : Kernel) : Kernel :=
  { k.memorySwitch with
    scheduledTerminal := next, scheduledTerminalNum := (k.terminalList next).tid }

lemma memorySwitch_cli (k : Kernel) : k.cli.memorySwitch = k.memorySwitch.cli := by
  cases hnext : k.scheduled.nextTerminal with
  | none =>
    have hnext' : k.cli.scheduled.nextTerminal = none := hnext
    rw [memorySwitch, memorySwitch, hnext, hnext']
  | some next =>
    have hnext' : k.cli.scheduled.nextTerminal = some next := hnext
    rw [memorySwitch, memorySwitch, hnext, hnext']
    dsimp only
    rw [apply_ite cli]
    rfl

lemma memorySwitch_terminalList (k : Kernel) : k.memorySwitch.terminalList = k.terminalList := by
  obtain ⟨x, y, v, p, heq, -⟩ := memorySwitch_eq k
  rw [heq]

lemma sameVideo_switchedOut (c : Slot) (next : Tid) (regs : Regs) (k : Kernel) :
    (k.ticked next).SameVideo (k.switchedOut c next regs) := by
  have hcli : k.memorySwitch.SameVideo k.cli.memorySwitch := by
    rw [memorySwitch_cli]
    exact sameVideo_cli _
  have hptr : k.cli.memorySwitch.SameVideo k.cli.memorySwitch.storePcbPtr :=
    sameVideo_updateTerminal _ k.cli.memorySwitch.scheduledTerminal
      fun a => ⟨rfl, rfl, rfl, rfl, rfl, rfl⟩
  have hcontext : k.cli.memorySwitch.storePcbPtr.SameVideo
      (k.cli.memorySwitch.storePcbPtr.storeContext c regs) :=
    ⟨fun _ => .refl _, rfl, rfl, rfl, rfl, rfl, rfl, rfl⟩
  have hstored := (hcli.trans hptr).trans hcontext
  have htid := (hstored.terminal next).tid
  rw [memorySwitch_terminalList] at htid
  unfold switchedOut setScheduled
  dsimp only
  split
  · exact ⟨hstored.terminal, hstored.display, rfl, htid, hstored.screenX, hstored.screenY,
      hstored.videoMem, hstored.entry⟩
  · exact ⟨hstored.terminal, hstored.display, rfl, htid, hstored.screenX, hstored.screenY,
      hstored.videoMem, hstored.entry⟩

lemma sameVideo_restored (k : Kernel) (q : Slot) :
    k.SameVideo (((k.setUpPaging (slotWord q)).setCurr q).restoreTss q) :=
  ⟨fun _ => .refl _, rfl, rfl, rfl, rfl, rfl, rfl, rfl⟩

lemma sameVideo_resumed (c q : Slot) (next : Tid) (regs : Regs) (k : Kernel) :
    (k.ticked next).SameVideo (k.resumed c q next regs) :=
  (sameVideo_switchedOut c next regs k).trans (sameVideo_restored _ q)

lemma sameVideo_launched (c n : Slot) (next : Tid) (regs : Regs) (argument : List Byte)
    (k : Kernel) : (k.ticked next).SameVideo ((k.switchedOut c next regs).base n argument) :=
  (sameVideo_switchedOut c next regs k).trans (sameVideo_base _ _ _)

end Kernel

/-! ### Wired kernels -/

namespace Wired

lemma congr (h : Wired k) (hsame : k.SameVideo k') : Wired k' where
  tid  := fun t => (hsame.terminal t).tid.trans (h.tid t)
  next := fun t => (hsame.terminal t).next.trans (h.next t)
  page := fun t => (hsame.terminal t).page.trans (h.page t)
  num  := hsame.num.trans (h.num.trans hsame.scheduled.symm)

lemma scheduled_tid (h : Wired k) : k.scheduled.tid = k.scheduledTerminal := h.tid _

/-- The globals turn to the terminal after the scheduled one. -/
lemma memorySwitch_eq (h : Wired k) : k.memorySwitch =
    { k with
      screenX  := (k.terminalList (k.scheduledTerminal + 1)).xCursor
      screenY  := (k.terminalList (k.scheduledTerminal + 1)).yCursor
      videoMem := screenBase k.currTerminalNum (k.scheduledTerminal + 1)
      paging   := k.paging.setVidMap (screenBase k.currTerminalNum (k.scheduledTerminal + 1))
        (k.terminalList (k.scheduledTerminal + 1)).vidmap } := by
  have hnext : k.scheduled.nextTerminal = some (k.scheduledTerminal + 1) := h.next _
  have htid := h.tid (k.scheduledTerminal + 1)
  rw [Kernel.memorySwitch, hnext]
  dsimp only
  by_cases hdisplay : k.scheduledTerminal + 1 = k.currTerminalNum
  · rw [if_neg (not_not.mpr (htid.trans hdisplay)), screenBase, if_pos hdisplay]
    rw [Kernel.updateVideo, htid]
  · have hne : (k.terminalList (k.scheduledTerminal + 1)).tid ≠ k.currTerminalNum := by
      rwa [htid]
    rw [if_pos hne, screenBase, if_neg hdisplay, h.page, Kernel.updateVideo, htid]

lemma memorySwitch (h : Wired k) : Wired k.memorySwitch := by
  rw [h.memorySwitch_eq]
  exact ⟨h.tid, h.next, h.page, h.num⟩

lemma ticked_eq (h : Wired k) (next : Tid) : k.ticked next =
    { k with
      screenX              := (k.terminalList (k.scheduledTerminal + 1)).xCursor
      screenY              := (k.terminalList (k.scheduledTerminal + 1)).yCursor
      videoMem             := screenBase k.currTerminalNum (k.scheduledTerminal + 1)
      paging               := k.paging.setVidMap
        (screenBase k.currTerminalNum (k.scheduledTerminal + 1))
        (k.terminalList (k.scheduledTerminal + 1)).vidmap
      scheduledTerminal    := next
      scheduledTerminalNum := next } := by
  rw [Kernel.ticked, h.memorySwitch_eq, h.tid]

lemma ticked (h : Wired k) (next : Tid) : Wired (k.ticked next) := by
  rw [h.ticked_eq]
  exact ⟨h.tid, h.next, h.page, rfl⟩

lemma keybEnd_eq (h : Wired k) : k.keybEnd =
    k.sti.updateVideoMem (screenBase k.currTerminalNum k.scheduledTerminal) := by
  have htid : k.sti.scheduled.tid = k.scheduledTerminal := h.tid _
  rw [Kernel.keybEnd, htid]
  by_cases hdisplay : k.scheduledTerminal = k.currTerminalNum
  · rw [screenBase, if_pos hdisplay]
    exact if_neg (not_not.mpr hdisplay)
  · rw [screenBase, if_neg hdisplay, ← h.page k.scheduledTerminal]
    exact if_pos hdisplay

lemma cli (h : Wired k) : Wired k.cli := ⟨h.tid, h.next, h.page, h.num⟩

lemma sti (h : Wired k) : Wired k.sti := ⟨h.tid, h.next, h.page, h.num⟩

lemma loadDisplay (h : Wired k) : Wired k.loadDisplay := ⟨h.tid, h.next, h.page, h.num⟩

/-- The cursor that is stored is the one that has been loaded. -/
lemma storeCursor_loadDisplay (k : Kernel) :
    k.cli.loadDisplay.storeCursor k.currTerminalNum = k.cli.loadDisplay :=
  congrArg (fun l => { k.cli.loadDisplay with terminalList := l })
    (Function.update_eq_self k.currTerminalNum k.terminalList)

/-- Alt and the function key of a terminal that is not displayed. -/
lemma altKey_eq (h : Wired k) (hne : k.currTerminalNum ≠ next) : k.altKey next =
    { k with
      currTerminalNum := next
      screenX         := (k.terminalList (k.scheduledTerminal + 1)).xCursor
      screenY         := (k.terminalList (k.scheduledTerminal + 1)).yCursor
      videoMem        := screenBase next k.scheduledTerminal
      paging          := k.paging.setVidMap (screenBase next (k.scheduledTerminal + 1))
        (k.terminalList (k.scheduledTerminal + 1)).vidmap
      interruptFlag   := true } := by
  have hne' : ¬ k.cli.loadDisplay.currTerminalNum = next := hne
  have hstore : k.cli.loadDisplay.storeCursor k.cli.loadDisplay.currTerminalNum =
      k.cli.loadDisplay := storeCursor_loadDisplay k
  have hloaded : Wired { k with
      currTerminalNum := next
      screenX         := (k.terminalList next).xCursor
      screenY         := (k.terminalList next).yCursor
      videoMem        := videoMemoryAddr
      interruptFlag   := true } := ⟨h.tid, h.next, h.page, h.num⟩
  have hend := hloaded.memorySwitch.keybEnd_eq
  rw [hloaded.memorySwitch_eq] at hend
  rw [Kernel.altKey, Kernel.terminalSwitch, if_neg hne', hstore]
  simp only [Kernel.loadDisplay, Kernel.updateVideoMem, Kernel.updateScreenXY, Kernel.cli,
    Kernel.sti]
  rw [hloaded.memorySwitch_eq, hend]
  rfl

/-- The function key of the terminal that is displayed. -/
lemma altKey_self (h : Wired k) : k.altKey k.currTerminalNum =
    { k with
      screenX       := (k.terminalList k.currTerminalNum).xCursor
      screenY       := (k.terminalList k.currTerminalNum).yCursor
      videoMem      := screenBase k.currTerminalNum k.scheduledTerminal
      interruptFlag := true } := by
  have hsame : k.cli.loadDisplay.terminalSwitch k.currTerminalNum = k.cli.loadDisplay :=
    if_pos rfl
  rw [Kernel.altKey, hsame, h.cli.loadDisplay.keybEnd_eq]
  simp only [Kernel.loadDisplay, Kernel.updateVideoMem, Kernel.updateScreenXY, Kernel.cli,
    Kernel.sti]

lemma altKey_terminalList (h : Wired k) (next : Tid) :
    (k.altKey next).terminalList = k.terminalList := by
  by_cases hsame : k.currTerminalNum = next
  · subst hsame
    rw [h.altKey_self]
  · rw [h.altKey_eq hsame]

end Wired

end

end Osgods
