import Osgods.Terminal.VideoMap
import Osgods.Library.Backed

/-!
# The users of the video mapping

`vidmap` sets the flag of the scheduled terminal, and only `halt` clears flags. `Users` goes along
with the system and records which processes have called `vidmap` with success; the flags stand for
the processes that are recorded until a halt clears one of them too early, or not at all.
-/

namespace Osgods

open Transition

/-- The system, and the processes that have called `vidmap` with success. -/
structure Session.Users where
  system : System
  users  : Slot → Bool

namespace Session.Users

/-- The process that runs is recorded when its `vidmap` returns 0, and forgotten when it ends: at
its own halt, or at a fault while it loads a program. -/
def record (env : Env) (u : Users) : Session.Action → Slot → Bool
  | .system (.vidmap screenStart) =>
    match u.system.kernel.vidmap env screenStart with
    | .ok (r, _) => if r = 0#32 then Function.update u.users u.system.running true else u.users
    | .error _   => Function.update u.users u.system.running false
  | .system (.execute command regs) =>
    match u.system.kernel.execute env (command.map Command.text) regs with
    | .ok _    => u.users
    | .error _ => Function.update u.users u.system.running false
  | .system (.halt _ _)             => Function.update u.users u.system.running false
  | .system (.tick _)               => u.users
  | .switch _                       => u.users

def step (env : Env) (u : Users) (b : Session.Action) : Option Users :=
  (Session.step env u.system b).map fun s => ⟨s, u.record env b⟩

/-- The flag of a terminal is 1 exactly when an active process of the terminal has called `vidmap`
with success. -/
def FlagsLive (u : Users) : Prop :=
  ∀ t, (u.system.kernel.terminalList t).vidmap = 1#32 ↔
    ∃ s, (u.system.kernel.pcbs s).Active ∧ (u.system.kernel.pcbs s).tid = t ∧ u.users s = true

/-- The terminal of the process that runs has no video mapped; or that process is a child, it is the
terminal's only user, and the terminal is displayed or the one that is has no video mapped. -/
def HaltKeeps (u : Users) : Prop :=
  u.system.kernel.scheduled.vidmap ≠ 1#32 ∨
    (u.system.kernel.pcbs u.system.running).parentId ≠ noPid ∧
    (∀ s, (u.system.kernel.pcbs s).Active →
      (u.system.kernel.pcbs s).tid = u.system.kernel.scheduledTerminal →
        s ≠ u.system.running → u.users s = false) ∧
    (u.system.kernel.currTerminalNum = u.system.kernel.scheduledTerminal ∨
      (u.system.kernel.terminalList u.system.kernel.currTerminalNum).vidmap ≠ 1#32)

instance decidableHaltKeeps (u : Users) : Decidable u.HaltKeeps :=
  inferInstanceAs (Decidable (_ ∨ _))

/-- A process ends only where the flags that its halt clears have lost their users by that. -/
def Keeps (env : Env) (u : Users) : Session.Action → Prop
  | .system (.execute command regs) =>
    match u.system.kernel.execute env (command.map Command.text) regs with
    | .ok _    => True
    | .error _ => u.HaltKeeps
  | .system (.halt _ _)             => u.HaltKeeps
  | .system (.tick _)               => True
  | .system (.vidmap _)             => True
  | .switch _                       => True

instance (env : Env) (u : Users) (b : Session.Action) : Decidable (u.Keeps env b) :=
  match b with
  | .system (.execute command regs) =>
    match h : u.system.kernel.execute env (command.map Command.text) regs with
    | .ok _    => .isTrue (by rw [Keeps, h]; trivial)
    | .error _ => decidable_of_iff u.HaltKeeps (by rw [Keeps, h])
  | .system (.halt _ _)             => decidableHaltKeeps u
  | .system (.tick _)               => .isTrue trivial
  | .system (.vidmap _)             => .isTrue trivial
  | .switch _                       => .isTrue trivial

end Session.Users

section

variable {env : Env} {chain chain' : Tid → List Slot} {k : Kernel} {c n : Slot} {s' s₀ : System}
  {regs : Regs} {u u' : Session.Users} {users : Slot → Bool} {b : Session.Action} {debt : Tid → ℕ}

/-- Terminal `t` has video mapped. -/
def Kernel.Flag (k : Kernel) (t : Tid) : Prop := (k.terminalList t).vidmap = 1#32

lemma Kernel.flag_haltVidmap (k : Kernel) (t : Tid) : k.haltVidmap.Flag t ↔
    k.Flag t ∧
      ¬ (k.Flag k.scheduledTerminal ∧ (t = k.scheduledTerminal ∨ t = k.currTerminalNum)) := by
  have hne : (0#32 : Word) ≠ 1#32 := by decide
  by_cases hset : k.scheduled.vidmap = 1#32
  · have hscheduled : k.Flag k.scheduledTerminal := hset
    rw [Flag, Kernel.haltVidmap, if_pos hset, updateTerminal_terminalList, Function.update_apply]
    split_ifs with hdisplay
    · exact iff_of_false hne fun h => h.2 ⟨hscheduled, Or.inr hdisplay⟩
    · rw [updateTerminal_terminalList, Function.update_apply]
      split_ifs with ht
      · exact iff_of_false hne fun h => h.2 ⟨hscheduled, Or.inl ht⟩
      · exact ⟨fun h => ⟨h, fun hor => hor.2.elim ht hdisplay⟩, fun h => h.1⟩
  · rw [Kernel.haltVidmap, if_neg hset]
    exact ⟨fun h => ⟨h, fun hor => hset hor.1⟩, fun h => h.1⟩

lemma Kernel.SameVideo.flag_iff {k' : Kernel} (hsame : k.SameVideo k') (t : Tid) :
    k'.Flag t ↔ k.Flag t := by
  rw [Kernel.Flag, (hsame.terminal t).vidmap]
  exact Iff.rfl

namespace Session.Users

/-- The invariant: only active processes are recorded, and the flags stand for them. -/
structure Live (chain : Tid → List Slot) (u : Users) : Prop where
  sound  : Sound chain u.system
  listed : Listed chain u.users
  backed : Backed chain u.users u.system.kernel.Flag

lemma flagsLive_iff (h : Chains chain debt u.system.kernel) :
    u.FlagsLive ↔ Backed chain u.users u.system.kernel.Flag := by
  have hmem : ∀ t, (∃ s ∈ chain t, u.users s = true) ↔ ∃ s, (u.system.kernel.pcbs s).Active ∧
      (u.system.kernel.pcbs s).tid = t ∧ u.users s = true := by
    intro t
    constructor
    · rintro ⟨s, hs, huser⟩
      obtain ⟨hactive, htid⟩ := (h.mem t s).mp hs
      exact ⟨s, hactive, htid, huser⟩
    · rintro ⟨s, hactive, htid, huser⟩
      exact ⟨s, (h.mem t s).mpr ⟨hactive, htid⟩, huser⟩
  constructor
  · intro hlive t
    rw [hmem]
    exact hlive t
  · intro hback t
    rw [← hmem]
    exact hback t

section

variable {p : Slot} {rest : List Slot}

/-- The top of a chain is on no other one. -/
lemma not_mem_other (h : Chains chain 0 k) (hchain : chain k.scheduledTerminal = c :: rest) :
    ∀ t, t ≠ k.scheduledTerminal → c ∉ chain t := by
  intro t ht hmem
  have hc : c ∈ chain k.scheduledTerminal := hchain ▸ List.mem_cons_self
  exact ht (h.eq_of_mem hmem hc)

/-- The end of a process whose terminal has no video mapped. -/
lemma backed_unset (h : Chains chain 0 k) (hback : Backed chain users k.Flag)
    (hchain : chain k.scheduledTerminal = c :: rest) (hset : ¬ k.Flag k.scheduledTerminal)
    (hflag : ∀ t, s'.kernel.Flag t ↔ k.Flag t) {l : List Slot}
    (hl : ∀ s ∈ l, users s = true → s ∈ chain k.scheduledTerminal) :
    Backed (Function.update chain k.scheduledTerminal l) (Function.update users c false)
      s'.kernel.Flag := by
  refine (hback.replace_iff (not_mem_other h hchain)).mpr ⟨?_, fun t _ => hflag t⟩
  refine iff_of_false (fun hkept => hset ((hflag _).mp hkept)) ?_
  rintro ⟨s, hs, -, huser⟩
  exact hset ((hback _).mpr ⟨s, hl s hs huser, huser⟩)

/-- The end of a child whose terminal has video mapped. -/
lemma backed_cleared_iff (h : Chains chain 0 k) (hback : Backed chain users k.Flag)
    (hchain : chain k.scheduledTerminal = c :: rest) (hflag : ∀ t, s'.kernel.Flag t ↔
      k.Flag t ∧ ¬ (t = k.scheduledTerminal ∨ t = k.currTerminalNum)) :
    Backed (Function.update chain k.scheduledTerminal rest) (Function.update users c false)
        s'.kernel.Flag ↔
      (∀ s, (k.pcbs s).Active → (k.pcbs s).tid = k.scheduledTerminal → s ≠ c → users s = false) ∧
      (k.currTerminalNum = k.scheduledTerminal ∨ ¬ k.Flag k.currTerminalNum) := by
  have hmem : ∀ s, (∃ hsc : s ≠ c, s ∈ rest) ↔
      ((k.pcbs s).Active ∧ (k.pcbs s).tid = k.scheduledTerminal) ∧ s ≠ c := by
    intro s
    rw [← h.mem, hchain, List.mem_cons]
    constructor
    · rintro ⟨hsc, hs⟩
      exact ⟨Or.inr hs, hsc⟩
    · rintro ⟨hs, hsc⟩
      exact ⟨hsc, hs.resolve_left hsc⟩
  rw [hback.replace_iff (not_mem_other h hchain)]
  constructor
  · rintro ⟨hscheduled, hothers⟩
    constructor
    · intro s hs htid hsc
      rw [Bool.eq_false_iff]
      intro huser
      obtain ⟨-, hrest⟩ := (hmem s).mpr ⟨⟨hs, htid⟩, hsc⟩
      have hkept := hscheduled.mpr ⟨s, hrest, hsc, huser⟩
      exact ((hflag _).mp hkept).2 (Or.inl rfl)
    · by_cases hdisplay : k.currTerminalNum = k.scheduledTerminal
      · exact Or.inl hdisplay
      · refine Or.inr fun hd => ?_
        have hkept := (hothers _ hdisplay).mpr hd
        exact ((hflag _).mp hkept).2 (Or.inr rfl)
  · rintro ⟨hothers, hdisplay⟩
    constructor
    · refine iff_of_false (fun hkept => ((hflag _).mp hkept).2 (Or.inl rfl)) ?_
      rintro ⟨s, hrest, hsc, huser⟩
      obtain ⟨⟨hs, htid⟩, -⟩ := (hmem s).mp ⟨hsc, hrest⟩
      rw [hothers s hs htid hsc] at huser
      cases huser
    · intro t ht
      rw [hflag t]
      constructor
      · intro hkept
        exact hkept.1
      · intro hkept
        refine ⟨hkept, ?_⟩
        rintro (hs | rfl)
        · exact ht hs
        · exact hdisplay.elim ht fun hclear => hclear hkept

end

/-- After a halt the flags are backed if and only if the halt has cleared the right ones. -/
lemma backed_halted_iff (h : Chains chain 0 k) (hback : Backed chain users k.Flag)
    (hlisted : Listed chain users) (hhalt : Halted chain k c s' chain') :
    Backed chain' (Function.update users c false) s'.kernel.Flag ↔
      HaltKeeps ⟨⟨k, c⟩, users⟩ := by
  rcases hhalt.sameVideo with ⟨p, rest, hchain, rfl, hsame⟩ | ⟨n, hchain, rfl, hn, hsame⟩
  · have hparent : (k.pcbs c).parentId ≠ noPid := by
      rw [h.parentId_head hchain]
      exact slotWord_ne_noPid p
    have hflag : ∀ t, s'.kernel.Flag t ↔ k.Flag t ∧
        ¬ (k.Flag k.scheduledTerminal ∧ (t = k.scheduledTerminal ∨ t = k.currTerminalNum)) :=
      fun t => (hsame.flag_iff t).trans (k.flag_haltVidmap t)
    by_cases hset : k.Flag k.scheduledTerminal
    · simp only [hset, true_and] at hflag
      rw [backed_cleared_iff h hback hchain hflag]
      constructor
      · intro hkeeps
        exact Or.inr ⟨hparent, hkeeps⟩
      · rintro (hclear | ⟨-, hkeeps⟩)
        · exact absurd hset hclear
        · exact hkeeps
    · simp only [hset, false_and, not_false_eq_true, and_true] at hflag
      refine iff_of_true (backed_unset h hback hchain hset hflag fun s hs _ => ?_) (Or.inl hset)
      exact hchain ▸ List.mem_cons_of_mem c hs
  · have hparent : (k.pcbs c).parentId = noPid := h.parentId_head hchain
    have hnew : ∀ s ∈ [n], s ≠ c → users s ≠ true := by
      intro s hs hsc huser
      obtain rfl := List.mem_singleton.mp hs
      obtain ⟨t, ht⟩ := hlisted s huser
      exact hn.elim hsc fun hdead => h.not_mem hdead t ht
    constructor
    · intro hback'
      refine Or.inl fun hset => ?_
      have hscheduled := ((hback.replace_iff (not_mem_other h hchain)).mp hback').1
      obtain ⟨s, hs, hsc, huser⟩ := hscheduled.mp ((hsame.flag_iff _).mpr hset)
      exact hnew s hs hsc huser
    · rintro (hclear | ⟨hchild, -⟩)
      · refine backed_unset h hback hchain hclear hsame.flag_iff fun s hs huser => ?_
        by_cases hsc : s = c
        · subst hsc
          exact hchain ▸ List.mem_cons_self
        · exact absurd huser (hnew s hs hsc)
      · exact absurd hparent hchild

lemma listed_halted (hlisted : Listed chain users) (hhalt : Halted chain k c s' chain') :
    Listed chain' (Function.update users c false) := by
  rcases hhalt.sameVideo with ⟨p, rest, hchain, rfl, -⟩ | ⟨n, hchain, rfl, -, -⟩
  · refine hlisted.replace fun s hs hsc => ?_
    rw [hchain, List.mem_cons] at hs
    exact hs.resolve_left hsc
  · refine hlisted.replace fun s hs hsc => ?_
    rw [hchain, List.mem_singleton] at hs
    exact absurd hs hsc

/-- A process that has just been started is not recorded. -/
lemma Live.users_eq_false (h : Live chain u) (hn : ¬ (u.system.kernel.pcbs n).Active) :
    u.users n = false := by
  rw [Bool.eq_false_iff]
  intro huser
  obtain ⟨t, ht⟩ := h.listed n huser
  exact h.sound.inv.chains.not_mem hn t ht

lemma Live.outcome {a : Osgods.Action} (h : Live chain u)
    (hout : Outcome env chain u.system a s' chain') :
    Listed chain' (u.record env (.system a)) ∧
      (Backed chain' (u.record env (.system a)) s'.kernel.Flag ↔ u.Keeps env (.system a)) := by
  have hchains := h.sound.inv.chains
  cases hout with
  | returned hpid heq =>
    rw [record, Keeps, heq]
    exact ⟨h.listed, iff_of_true (h.backed.congr (Kernel.sameVideo_returned _ _).flag_iff) trivial⟩
  | @child command regs n argument eip hn heq =>
    have hsame := (Kernel.sameVideo_child u.system.kernel u.system.running n argument regs).trans
      (Kernel.sameVideo_sti _)
    rw [record, Keeps, heq]
    exact ⟨h.listed.push _ _,
      iff_of_true ((h.backed.push (h.users_eq_false hn)).congr hsame.flag_iff) trivial⟩
  | @faulted command regs n _ _ hhalt heq =>
    have hkeeps := backed_halted_iff (h.sound.inv.toCurrent.forNew n).chains h.backed h.listed hhalt
    rw [record, Keeps, heq]
    exact ⟨listed_halted h.listed hhalt, hkeeps⟩
  | halted hhalt =>
    exact ⟨listed_halted h.listed hhalt, backed_halted_iff hchains h.backed h.listed hhalt⟩
  | @resumed regs q rest hchain =>
    have hsame := (Kernel.sameVideo_resumed u.system.running q
      (u.system.kernel.scheduledTerminal + 1) regs u.system.kernel).trans (Kernel.sameVideo_sti _)
    refine ⟨h.listed, iff_of_true (h.backed.congr fun t => (hsame.flag_iff t).trans ?_) trivial⟩
    rw [h.sound.wired.ticked_eq]
    exact Iff.rfl
  | @launched regs n argument hchain hn =>
    have hsame := (Kernel.sameVideo_launched u.system.running n
      (u.system.kernel.scheduledTerminal + 1) regs argument u.system.kernel).trans
        (Kernel.sameVideo_sti _)
    have hflag : ∀ t, (u.system.kernel.ticked (u.system.kernel.scheduledTerminal + 1)).Flag t ↔
        u.system.kernel.Flag t := by
      intro t
      rw [h.sound.wired.ticked_eq]
      exact Iff.rfl
    have hbacked := h.backed.push (i := u.system.kernel.scheduledTerminal + 1)
      (h.users_eq_false hn)
    have hlisted := h.listed.push (u.system.kernel.scheduledTerminal + 1) n
    rw [hchain] at hbacked hlisted
    exact ⟨hlisted, iff_of_true
      (hbacked.congr fun t => (hsame.flag_iff t).trans (hflag t)) trivial⟩
  | @vidmap screenStart r k' heq =>
    have hc : u.system.running ∈ chain u.system.kernel.scheduledTerminal := h.sound.inv.mem
    have hother : ∀ t, t ≠ u.system.kernel.scheduledTerminal → u.system.running ∉ chain t :=
      fun t ht hmem => ht (hchains.eq_of_mem hmem hc)
    rcases h.sound.wired.vidmap_cases env screenStart h.sound.inv.curr with heq' | heq'
    · obtain ⟨rfl, rfl⟩ := Prod.mk.inj (Except.ok.inj (heq.symm.trans heq'))
      rw [record, heq']
      exact ⟨h.listed, iff_of_true h.backed trivial⟩
    · obtain ⟨rfl, rfl⟩ := Prod.mk.inj (Except.ok.inj (heq.symm.trans heq'))
      rw [record, heq']
      refine ⟨h.listed.mark hc, iff_of_true ((h.backed.mark hc hother).congr fun t => ?_) trivial⟩
      simp only [Kernel.Flag, Kernel.sti, Kernel.setUpPaging_terminalList,
        Kernel.updateTerminal_terminalList, Function.update_apply]
      split_ifs with ht
      · exact iff_of_true rfl (Or.inl ht)
      · exact ⟨Or.inr, fun hor => hor.resolve_left ht⟩

/-- A step keeps the flags live if and only if no process ends too early for them, or too late. -/
lemma Live.step (hshell : HasShell env.img) (h : Live chain u) (hlaunch : LaunchOk u.system b)
    (hstep : Users.step env u b = some u') :
    ∃ chain', Sound chain' u'.system ∧ Listed chain' u'.users ∧
      (Backed chain' u'.users u'.system.kernel.Flag ↔ u.Keeps env b) := by
  obtain ⟨s', hs', rfl⟩ := Option.map_eq_some_iff.mp hstep
  cases b with
  | system a =>
    obtain ⟨chain', hout, hsound⟩ := h.sound.exists_outcome hshell hlaunch hs'
    obtain ⟨hlisted, hkeeps⟩ := h.outcome hout
    exact ⟨chain', hsound, hlisted, hkeeps⟩
  | switch next =>
    cases hs'
    refine ⟨chain, h.sound.switch next, h.listed, iff_of_true (h.backed.congr fun t => ?_) trivial⟩
    rw [Kernel.Flag, h.sound.wired.altKey_terminalList]
    exact Iff.rfl

lemma Live.of_firstShell (h : firstShell env regs = some s₀) :
    ∃ chain, Live chain ⟨s₀, fun _ => false⟩ := by
  obtain ⟨chain, hsound⟩ := Sound.of_firstShell h
  obtain ⟨argument, rfl⟩ := firstShell_eq h
  have hsame := Machine.bootKernel_base_sameVideo env.layout argument
  refine ⟨chain, hsound, fun s huser => ?_, fun t => ?_⟩
  · cases huser
  · refine iff_of_false (fun hflag => ?_) ?_
    · exact absurd ((hsame.flag_iff t).mp hflag) (by decide : (0#32 : Word) ≠ 1#32)
    · rintro ⟨s, -, huser⟩
      cases huser

/-- As long as the flags that a halt clears lose their users by it, the flags stand for the active
processes that have called `vidmap`; the first step without this breaks that. -/
theorem video_users (h : firstShell env regs = some s₀) {as : List Session.Action}
    (hrun : Run (Guarded (Graph (step env)) fun u b => LaunchOk u.system b ∧ u.Keeps env b)
      ⟨s₀, fun _ => false⟩ as u) :
    u.FlagsLive ∧ ∀ b u', LaunchOk u.system b → step env u b = some u' →
      (u'.FlagsLive ↔ u.Keeps env b) := by
  have hshell := firstShell_hasShell h
  obtain ⟨chain, hlive⟩ : ∃ chain, Live chain u := by
    refine hrun.invariant (I := fun u => ∃ chain, Live chain u)
      (fun u b u' ⟨chain, hu⟩ ⟨hstep, hlaunch, hkeeps⟩ => ?_) (Live.of_firstShell h)
    obtain ⟨chain', hsound, hlisted, hiff⟩ := hu.step hshell hlaunch hstep
    exact ⟨chain', hsound, hlisted, hiff.mpr hkeeps⟩
  refine ⟨(flagsLive_iff hlive.sound.inv.chains).mpr hlive.backed, fun b u' hlaunch hstep => ?_⟩
  obtain ⟨chain', hsound, -, hiff⟩ := hlive.step hshell hlaunch hstep
  exact (flagsLive_iff hsound.inv.chains).trans hiff

/-- A run from the first shell whose steps all meet `P`. -/
lemma exists_users (env : Env) (regs : Regs) {l : List Session.Action} {q : Users → Bool}
    (P : Users → Session.Action → Prop) [∀ u b, Decidable (P u b)]
    (h : ((firstShell env regs).bind fun s =>
      runFrom (guardedStep (step env) fun u b => P u b) ⟨s, fun _ => false⟩ l).any q = true) :
    ∃ s₀ u, firstShell env regs = some s₀ ∧
      Run (Guarded (Graph (step env)) P) ⟨s₀, fun _ => false⟩ l u ∧ q u = true :=
  exists_guarded_run_of_any h

/-- The first shell runs another one, which maps the video page and halts. -/
theorem video_users_small : ∃ u : Users,
    (u.system.running = 0 ∧ u.system.kernel.scheduled.vidmap = 0#32) ∧
    u.FlagsLive ∧ ∀ b u', LaunchOk u.system b → step smallKernel u b = some u' →
      (u'.FlagsLive ↔ u.Keeps smallKernel b) := by
  obtain ⟨s₀, u, hs₀, hrun, hu⟩ := exists_users smallKernel ⟨0#32, 0#32⟩
    (l := [.system (.execute (some shellCommand) ⟨0#32, 0#32⟩), .system (.vidmap 0x8000000#32),
      .switch 1, .system (.halt 0#8 ⟨0#32, 0#32⟩)])
    (q := fun u => u.system.running = 0 ∧ u.system.kernel.scheduled.vidmap = 0#32)
    (fun u b => LaunchOk u.system b ∧ u.Keeps smallKernel b) (by decide +kernel)
  exact ⟨u, of_decide_eq_true hu, video_users hs₀ hrun⟩

/-- The first shell maps the video page and runs another shell, which halts: the flag is cleared. -/
theorem video_users_parent : ∃ s₀ u as, firstShell smallKernel ⟨0#32, 0#32⟩ = some s₀ ∧
    Run (Guarded (Graph (step smallKernel)) fun u b => LaunchOk u.system b)
      ⟨s₀, fun _ => false⟩ as u ∧
    (u.system.running = 0 ∧ u.users 0 = true ∧ u.system.kernel.scheduled.vidmap = 0#32) ∧
    ¬ u.FlagsLive := by
  obtain ⟨s₀, u, hs₀, hrun, hu⟩ := exists_users smallKernel ⟨0#32, 0#32⟩
    (l := [.system (.vidmap 0x8000000#32), .system (.execute (some shellCommand) ⟨0#32, 0#32⟩),
      .system (.halt 0#8 ⟨0#32, 0#32⟩)])
    (q := fun u => (u.system.running = 0 ∧ u.users 0 = true ∧
      u.system.kernel.scheduled.vidmap = 0#32) ∧ (u.system.kernel.pcbs 0).Active ∧
        (u.system.kernel.pcbs 0).tid = u.system.kernel.scheduledTerminal)
    (fun u b => LaunchOk u.system b) (by decide +kernel)
  rw [decide_eq_true_eq] at hu
  obtain ⟨hstate, hactive, htid⟩ := hu
  refine ⟨s₀, u, _, hs₀, hrun, hstate, fun hlive => ?_⟩
  have hset := (hlive u.system.kernel.scheduledTerminal).mpr ⟨0, hactive, htid, hstate.2.1⟩
  have hclear : (u.system.kernel.terminalList u.system.kernel.scheduledTerminal).vidmap = 0#32 :=
    hstate.2.2
  rw [hclear] at hset
  cases hset

end Session.Users

end

end Osgods
