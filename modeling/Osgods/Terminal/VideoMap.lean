import Osgods.Terminal.Session

/-!
# The user's video mapping

The page that a process sees behind `vidmap` is set by `vidmap` itself, by every tick and by every
switch to another terminal. It follows the scheduled terminal, but for two steps: a switch sets it
up for the terminal after the scheduled one, and a halt clears the flag of the terminal and leaves
the page.
-/

namespace Osgods

open Transition

/-- `page_vid_table[0]` is present exactly when the scheduled terminal has video mapped, and then it
maps the screen of that terminal. -/
structure Kernel.TracksVideo (k : Kernel) : Prop where
  mapped : present (k.paging.pageVidTable 0#10) = true ↔ k.scheduled.vidmap = 1#32
  target : present (k.paging.pageVidTable 0#10) = true → baseAddress (k.paging.pageVidTable 0#10) =
    baseAddress (screenBase k.currTerminalNum k.scheduledTerminal)

def Kernel.Flagged (k : Kernel) : Prop :=
  ∀ t, (k.terminalList t).vidmap = 0#32 ∨ (k.terminalList t).vidmap = 1#32

/-- The process that runs is a base shell, or its terminal has no video mapped. -/
def System.HaltKeepsVideo (s : System) : Prop :=
  (s.kernel.pcbs s.running).parentId = noPid ∨ s.kernel.scheduled.vidmap ≠ 1#32

instance (s : System) : Decidable s.HaltKeepsVideo := inferInstanceAs (Decidable (_ ∨ _))

/-- No child halts, or faults while it loads a program, on a terminal that has video mapped; and
when the user switches to another terminal, neither the scheduled terminal nor the one after it has
video mapped. -/
def Session.KeepsVideo (env : Env) (s : System) : Session.Action → Prop
  | .system (.execute command regs) =>
    match s.kernel.execute env (command.map Command.text) regs with
    | .ok _    => True
    | .error _ => s.HaltKeepsVideo
  | .system (.halt _ _)             => s.HaltKeepsVideo
  | .system (.tick _)               => True
  | .system (.vidmap _)             => True
  | .switch next                    => s.kernel.currTerminalNum = next ∨
      s.kernel.scheduled.vidmap ≠ 1#32 ∧
        (s.kernel.terminalList (s.kernel.scheduledTerminal + 1)).vidmap ≠ 1#32

instance (env : Env) (s : System) (b : Session.Action) : Decidable (Session.KeepsVideo env s b) :=
  match b with
  | .system (.execute command regs) =>
    match h : s.kernel.execute env (command.map Command.text) regs with
    | .ok _    => .isTrue (by rw [Session.KeepsVideo, h]; trivial)
    | .error _ => decidable_of_iff s.HaltKeepsVideo (by rw [Session.KeepsVideo, h])
  | .system (.halt _ _)             => inferInstanceAs (Decidable s.HaltKeepsVideo)
  | .system (.tick _)               => inferInstanceAs (Decidable True)
  | .system (.vidmap _)             => inferInstanceAs (Decidable True)
  | .switch _                       => inferInstanceAs (Decidable (_ ∨ _ ∧ _))

section

variable {env : Env} {chain chain' : Tid → List Slot} {k k' : Kernel} {c : Slot} {s s' s₀ : System}
  {regs : Regs} {next t u : Tid} {pt : PageTables} {a v : Word}

/-! ### The entry -/

@[simp] lemma present_setVidMap :
    present ((pt.setVidMap a v).pageVidTable 0#10) = v.getLsbD 0 := by
  rw [PageTables.setVidMap]
  dsimp only
  rw [Function.update_self, present_assignPresent]

@[simp] lemma baseAddress_setVidMap :
    baseAddress ((pt.setVidMap a v).pageVidTable 0#10) = baseAddress a := by
  rw [PageTables.setVidMap]
  dsimp only
  rw [Function.update_self, baseAddress_assignPresent, baseAddress_assignBaseAddress,
    setWidth_sshiftRight]

lemma baseAddress_screenBase_ne {display : Tid} (h : t ≠ u) :
    baseAddress (screenBase display t) ≠ baseAddress (screenBase display u) := by
  revert display t u
  decide

lemma flag_bit (h : v = 0#32 ∨ v = 1#32) : v.getLsbD 0 = true ↔ v = 1#32 := by
  rcases h with rfl | rfl
  · decide
  · decide

namespace Kernel

lemma TracksVideo.congr (h : k.TracksVideo) (hsame : k.SameVideo k') : k'.TracksVideo := by
  have hflag : k'.scheduled.vidmap = k.scheduled.vidmap := by
    rw [scheduled, hsame.scheduled]
    exact (hsame.terminal _).vidmap
  constructor
  · rw [hsame.entry, hflag]
    exact h.mapped
  · rw [hsame.entry, hsame.display, hsame.scheduled]
    exact h.target

lemma SameVideo.symm (hsame : k.SameVideo k') : k'.SameVideo k where
  terminal  := fun t =>
    ⟨(hsame.terminal t).tid.symm, (hsame.terminal t).next.symm, (hsame.terminal t).page.symm,
      (hsame.terminal t).xCursor.symm, (hsame.terminal t).yCursor.symm,
      (hsame.terminal t).vidmap.symm⟩
  display   := hsame.display.symm
  scheduled := hsame.scheduled.symm
  num       := hsame.num.symm
  screenX   := hsame.screenX.symm
  screenY   := hsame.screenY.symm
  videoMem  := hsame.videoMem.symm
  entry     := hsame.entry.symm

lemma SameVideo.tracksVideo_iff (hsame : k.SameVideo k') : k'.TracksVideo ↔ k.TracksVideo :=
  ⟨fun h => h.congr hsame.symm, fun h => h.congr hsame⟩

lemma Flagged.congr (h : k.Flagged) (hsame : k.SameVideo k') : k'.Flagged := by
  intro t
  rw [(hsame.terminal t).vidmap]
  exact h t

lemma Flagged.updateTerminal (h : k.Flagged) (u : Tid) (hv : v = 0#32 ∨ v = 1#32) :
    (k.updateTerminal u fun a => { a with vidmap := v }).Flagged := by
  intro t
  rw [updateTerminal_terminalList, Function.update_apply]
  split_ifs
  · exact hv
  · exact h t

lemma Flagged.haltVidmap (h : k.Flagged) : k.haltVidmap.Flagged := by
  unfold Kernel.haltVidmap
  split_ifs
  · exact (h.updateTerminal _ (Or.inl rfl)).updateTerminal _ (Or.inl rfl)
  · exact h

/-- The entry has been set for terminal `u`. -/
lemma tracksVideo_iff (h : k.Flagged) (pt : PageTables) (u : Tid)
    (hentry : k.paging.pageVidTable 0#10 = (pt.setVidMap (screenBase k.currTerminalNum u)
      (k.terminalList u).vidmap).pageVidTable 0#10) :
    k.TracksVideo ↔ u = k.scheduledTerminal ∨
      k.scheduled.vidmap ≠ 1#32 ∧ (k.terminalList u).vidmap ≠ 1#32 := by
  have hpresent :
      present (k.paging.pageVidTable 0#10) = true ↔ (k.terminalList u).vidmap = 1#32 := by
    rw [hentry, present_setVidMap, flag_bit (h u)]
  have htarget : baseAddress (k.paging.pageVidTable 0#10) =
      baseAddress (screenBase k.currTerminalNum u) := by
    rw [hentry, baseAddress_setVidMap]
  constructor
  · intro htracks
    by_cases hu : u = k.scheduledTerminal
    · exact Or.inl hu
    · have hmapped : (k.terminalList u).vidmap ≠ 1#32 := by
        intro hflag
        have heq := htracks.target (hpresent.mpr hflag)
        rw [htarget] at heq
        exact baseAddress_screenBase_ne hu heq
      refine Or.inr ⟨fun hflag => ?_, hmapped⟩
      exact hmapped (hpresent.mp (htracks.mapped.mpr hflag))
  · rintro (rfl | ⟨hscheduled, hu⟩)
    · exact ⟨hpresent, fun _ => htarget⟩
    · exact ⟨⟨fun hp => absurd (hpresent.mp hp) hu, fun hflag => absurd hflag hscheduled⟩,
        fun hp => absurd (hpresent.mp hp) hu⟩

/-- A halt clears the flag, but not the page. -/
lemma TracksVideo.haltVidmap_iff (h : k.TracksVideo) :
    k.haltVidmap.TracksVideo ↔ k.scheduled.vidmap ≠ 1#32 := by
  constructor
  · intro htracks hflag
    have hpresent := h.mapped.mpr hflag
    have hcleared : k.haltVidmap.scheduled.vidmap = 0#32 := by
      rw [scheduled, haltVidmap_scheduledTerminal, Kernel.haltVidmap, if_pos hflag]
      simp only [updateTerminal_terminalList, Function.update_apply]
      split_ifs <;> rfl
    rw [← haltVidmap_paging] at hpresent
    have hset := htracks.mapped.mp hpresent
    rw [hcleared] at hset
    cases hset
  · intro hflag
    rwa [Kernel.haltVidmap, if_neg hflag]

end Kernel

/-! ### What a step does to the entry -/

namespace Wired

lemma flagged_ticked (h : Wired k) (hflag : k.Flagged) (next : Tid) : (k.ticked next).Flagged := by
  rw [h.ticked_eq]
  exact hflag

lemma flagged_altKey (h : Wired k) (hflag : k.Flagged) (next : Tid) : (k.altKey next).Flagged := by
  intro t
  rw [h.altKey_terminalList]
  exact hflag t

lemma tracksVideo_ticked (h : Wired k) (hflag : k.Flagged) :
    (k.ticked (k.scheduledTerminal + 1)).TracksVideo := by
  have hflag' := h.flagged_ticked hflag (k.scheduledTerminal + 1)
  rw [h.ticked_eq] at hflag' ⊢
  exact (Kernel.tracksVideo_iff hflag' k.paging (k.scheduledTerminal + 1) rfl).mpr (Or.inl rfl)

/-- The switch sets the entry up for the terminal after the scheduled one. -/
lemma tracksVideo_altKey_iff (h : Wired k) (hflag : k.Flagged) (htracks : k.TracksVideo)
    (next : Tid) : (k.altKey next).TracksVideo ↔ k.currTerminalNum = next ∨
      k.scheduled.vidmap ≠ 1#32 ∧ (k.terminalList (k.scheduledTerminal + 1)).vidmap ≠ 1#32 := by
  by_cases hsame : k.currTerminalNum = next
  · subst hsame
    refine iff_of_true ?_ (Or.inl rfl)
    rw [h.altKey_self]
    exact ⟨htracks.mapped, htracks.target⟩
  · have hsucc : ∀ t : Tid, t + 1 ≠ t := by decide
    have hflag' := h.flagged_altKey hflag next
    rw [h.altKey_eq hsame] at hflag' ⊢
    refine (Kernel.tracksVideo_iff hflag' k.paging (k.scheduledTerminal + 1) rfl).trans ?_
    constructor
    · rintro (heq | hclear)
      · exact absurd heq (hsucc _)
      · exact Or.inr hclear
    · rintro (heq | hclear)
      · exact absurd heq hsame
      · exact Or.inr hclear

end Wired

/-- A halt goes wrong just when a child halts on a terminal that has video mapped. -/
lemma Halted.tracksVideo_iff (h : Chains chain 0 k) (htracks : k.TracksVideo)
    (hhalt : Halted chain k c s' chain') :
    s'.kernel.TracksVideo ↔ (k.pcbs c).parentId = noPid ∨ k.scheduled.vidmap ≠ 1#32 := by
  rcases hhalt.sameVideo with ⟨p, rest, hchain, -, hsame⟩ | ⟨n, hchain, -, -, hsame⟩
  · rw [hsame.tracksVideo_iff, htracks.haltVidmap_iff]
    have hchild : (k.pcbs c).parentId ≠ noPid := by
      rw [h.parentId_head hchain]
      exact slotWord_ne_noPid p
    constructor
    · intro hclear
      exact Or.inr hclear
    · rintro (hbase | hclear)
      · exact absurd hbase hchild
      · exact hclear
  · exact iff_of_true (htracks.congr hsame) (Or.inl (h.parentId_head hchain))

lemma Halted.flagged (h : k.Flagged) (hhalt : Halted chain k c s' chain') : s'.kernel.Flagged := by
  rcases hhalt.sameVideo with ⟨p, rest, -, -, hsame⟩ | ⟨n, -, -, -, hsame⟩
  · exact h.haltVidmap.congr hsame
  · exact h.congr hsame

namespace Session

/-- The invariant of the sessions: the flags are 0 or 1, and the entry follows the scheduled
terminal. -/
structure Mapping (chain : Tid → List Slot) (s : System) : Prop extends Sound chain s where
  flagged : s.kernel.Flagged
  tracks  : s.kernel.TracksVideo

end Session

section

variable {b : Osgods.Action}

open Session

lemma Outcome.flagged (h : Mapping chain s) (hout : Outcome env chain s b s' chain') :
    s'.kernel.Flagged := by
  cases hout with
  | returned hpid heq => exact h.flagged.congr (Kernel.sameVideo_returned _ _)
  | child hn heq =>
    exact h.flagged.congr ((Kernel.sameVideo_child _ _ _ _ _).trans (Kernel.sameVideo_sti _))
  | faulted hhalt heq => exact hhalt.flagged (h.flagged.congr (Kernel.sameVideo_forNew _ _))
  | halted hhalt => exact hhalt.flagged h.flagged
  | resumed hchain =>
    exact (h.wired.flagged_ticked h.flagged _).congr
      ((Kernel.sameVideo_resumed _ _ _ _ _).trans (Kernel.sameVideo_sti _))
  | launched argument hchain hn =>
    exact (h.wired.flagged_ticked h.flagged _).congr
      ((Kernel.sameVideo_launched _ _ _ _ _ _).trans (Kernel.sameVideo_sti _))
  | @vidmap screenStart _ _ heq =>
    rcases h.wired.vidmap_cases env screenStart h.inv.curr with heq' | heq'
    · obtain ⟨-, rfl⟩ := Prod.mk.inj (Except.ok.inj (heq.symm.trans heq'))
      exact h.flagged
    · obtain ⟨-, rfl⟩ := Prod.mk.inj (Except.ok.inj (heq.symm.trans heq'))
      exact h.flagged.updateTerminal _ (Or.inr rfl)

/-- After one step of the system the entry follows the scheduled terminal just when the step is not
one of those that leave the page behind. -/
lemma Outcome.tracksVideo_iff (h : Mapping chain s) (hout : Outcome env chain s b s' chain') :
    s'.kernel.TracksVideo ↔ KeepsVideo env s (.system b) := by
  cases hout with
  | returned hpid heq =>
    rw [KeepsVideo, heq]
    exact iff_of_true (h.tracks.congr (Kernel.sameVideo_returned _ _)) trivial
  | child hn heq =>
    rw [KeepsVideo, heq]
    exact iff_of_true (h.tracks.congr
      ((Kernel.sameVideo_child _ _ _ _ _).trans (Kernel.sameVideo_sti _))) trivial
  | @faulted command regs n _ _ hhalt heq =>
    have hkeeps := hhalt.tracksVideo_iff (h.inv.toCurrent.forNew n).chains
      (h.tracks.congr (Kernel.sameVideo_forNew _ n))
    rw [KeepsVideo, heq]
    exact hkeeps
  | halted hhalt => exact hhalt.tracksVideo_iff h.inv.chains h.tracks
  | resumed hchain =>
    exact iff_of_true ((h.wired.tracksVideo_ticked h.flagged).congr
      ((Kernel.sameVideo_resumed _ _ _ _ _).trans (Kernel.sameVideo_sti _))) trivial
  | launched argument hchain hn =>
    exact iff_of_true ((h.wired.tracksVideo_ticked h.flagged).congr
      ((Kernel.sameVideo_launched _ _ _ _ _ _).trans (Kernel.sameVideo_sti _))) trivial
  | @vidmap screenStart _ _ heq =>
    refine iff_of_true ?_ trivial
    rcases h.wired.vidmap_cases env screenStart h.inv.curr with heq' | heq'
    · obtain ⟨-, rfl⟩ := Prod.mk.inj (Except.ok.inj (heq.symm.trans heq'))
      exact ⟨h.tracks.mapped, h.tracks.target⟩
    · obtain ⟨-, rfl⟩ := Prod.mk.inj (Except.ok.inj (heq.symm.trans heq'))
      refine (Kernel.tracksVideo_iff ?_ (s.kernel.paging.setUserVideoMap env.layout)
        s.kernel.scheduledTerminal ?_).mpr (Or.inl rfl)
      · exact h.flagged.updateTerminal _ (Or.inr rfl)
      · simp only [Kernel.sti, Kernel.setUpPaging, Kernel.updateTerminal_terminalList,
          Function.update_self]
        rfl

end

namespace Session

variable {b : Action} {as : List Action}

/-- A step keeps the invariant if and only if it does not leave the page behind. -/
lemma Mapping.step (hshell : HasShell env.img) (h : Mapping chain s) (hlaunch : LaunchOk s b)
    (hstep : Session.step env s b = some s') :
    (∃ chain', Sound chain' s') ∧ s'.kernel.Flagged ∧
      (s'.kernel.TracksVideo ↔ KeepsVideo env s b) := by
  cases b with
  | system b =>
    obtain ⟨chain', hout, hsound⟩ := h.exists_outcome hshell hlaunch hstep
    exact ⟨⟨chain', hsound⟩, hout.flagged h, hout.tracksVideo_iff h⟩
  | switch next =>
    cases hstep
    exact ⟨⟨chain, h.switch next⟩, h.wired.flagged_altKey h.flagged next,
      h.wired.tracksVideo_altKey_iff h.flagged h.tracks next⟩

lemma Mapping.of_firstShell (h : firstShell env regs = some s₀) : ∃ chain, Mapping chain s₀ := by
  obtain ⟨chain, hsound⟩ := Sound.of_firstShell h
  obtain ⟨argument, rfl⟩ := firstShell_eq h
  have hsame := Machine.bootKernel_base_sameVideo env.layout argument
  have hflag : (bootKernel env.layout).Flagged := fun t => Or.inl rfl
  have hentry : (bootKernel env.layout).paging.pageVidTable 0#10 = 0#32 := rfl
  have hpresent : present ((bootKernel env.layout).paging.pageVidTable 0#10) = false := by
    rw [hentry]
    decide
  have htracks : (bootKernel env.layout).TracksVideo := by
    constructor
    · rw [hpresent]
      exact iff_of_false Bool.false_ne_true (by decide : (0#32 : Word) ≠ 1#32)
    · intro hset
      rw [hpresent] at hset
      cases hset
  exact ⟨chain, hsound, hflag.congr hsame, htracks.congr hsame⟩

/-- As long as no step leaves the page behind, the video page of the process that runs is that of
the scheduled terminal; the first step that does breaks this. -/
theorem video_mapping (h : firstShell env regs = some s₀)
    (hrun : Run (Guarded (Graph (step env)) fun s b => LaunchOk s b ∧ KeepsVideo env s b) s₀ as s) :
    s.kernel.TracksVideo ∧ ∀ b s', LaunchOk s b → step env s b = some s' →
      (s'.kernel.TracksVideo ↔ KeepsVideo env s b) := by
  have hshell := firstShell_hasShell h
  obtain ⟨chain, hmapping⟩ : ∃ chain, Mapping chain s := by
    refine hrun.invariant (I := fun s => ∃ chain, Mapping chain s)
      (fun s b s' ⟨chain, hs⟩ ⟨hstep, hlaunch, hkeeps⟩ => ?_) (Mapping.of_firstShell h)
    obtain ⟨⟨chain', hsound⟩, hflag, hiff⟩ := hs.step hshell hlaunch hstep
    exact ⟨chain', hsound, hflag, hiff.mpr hkeeps⟩
  refine ⟨hmapping.tracks, fun b s' hlaunch hstep => ?_⟩
  exact (hmapping.step hshell hlaunch hstep).2.2

/-- The first shell maps the video page and is switched out and in again. -/
theorem video_mapping_small : ∃ s : System,
    (s.kernel.scheduledTerminal = 0 ∧ s.kernel.scheduled.vidmap = 1#32) ∧
    s.kernel.TracksVideo ∧ ∀ b s', LaunchOk s b → step smallKernel s b = some s' →
      (s'.kernel.TracksVideo ↔ KeepsVideo smallKernel s b) := by
  obtain ⟨s₀, s, hs₀, hrun, hs⟩ := exists_guarded_run_of_any (f := step smallKernel)
    (o := firstShell smallKernel ⟨0#32, 0#32⟩) (g := id)
    (l := [.switch 1, .system (.vidmap 0x8000000#32), .system (.tick ⟨0#32, 0#32⟩),
      .system (.tick ⟨0#32, 0#32⟩), .system (.tick ⟨0#32, 0#32⟩)])
    (q := fun s => s.kernel.scheduledTerminal = 0 ∧ s.kernel.scheduled.vidmap = 1#32)
    (P := fun s b => LaunchOk s b ∧ KeepsVideo smallKernel s b) (by decide +kernel)
  exact ⟨s, of_decide_eq_true hs, video_mapping hs₀ hrun⟩

/-- The first shell maps the video page, and the user switches to the second terminal: the page is
gone until the next tick. -/
theorem video_mapping_switch : ∃ s₀ s as, firstShell smallKernel ⟨0#32, 0#32⟩ = some s₀ ∧
    Run (Guarded (Graph (step smallKernel)) LaunchOk) s₀ as s ∧
    s.kernel.scheduled.vidmap = 1#32 ∧ ¬ s.kernel.TracksVideo := by
  obtain ⟨s₀, s, hs₀, hrun, hs⟩ := exists_guarded_run_of_any (f := step smallKernel)
    (o := firstShell smallKernel ⟨0#32, 0#32⟩) (g := id)
    (l := [.system (.vidmap 0x8000000#32), .switch 1])
    (q := fun s => s.kernel.scheduled.vidmap = 1#32 ∧
      present (s.kernel.paging.pageVidTable 0#10) = false)
    (P := LaunchOk) (by decide +kernel)
  rw [decide_eq_true_eq] at hs
  obtain ⟨hflag, habsent⟩ := hs
  refine ⟨s₀, s, _, hs₀, hrun, hflag, fun htracks => ?_⟩
  have hpresent := htracks.mapped.mpr hflag
  rw [habsent] at hpresent
  cases hpresent

end Session

end

end Osgods
