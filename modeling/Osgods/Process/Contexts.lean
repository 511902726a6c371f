import Osgods.Process.Outcome

/-!
# Saved contexts

`saved_esp` and `saved_ebp` serve two protocols: `execute` stores the pair with which the child's
`halt` returns to the parent, and a tick the pair with which a later tick resumes the process. The
history keeps, beside the state, what the calls of `execute` and the ticks stored. A parent that
waits in `execute` is never `curr_pcb`, so no tick stores over its pair.
-/

namespace Osgods

open Transition

/-- The pair of registers in a PCB. -/
def Kernel.saved (k : Kernel) (s : Slot) : Regs := ⟨(k.pcbs s).savedEsp, (k.pcbs s).savedEbp⟩

/-- What the `execute` that created the process of a slot stored, and what the tick that last
switched a terminal out stored. -/
structure History where
  created     : Slot → Option Regs
  switchedOut : Tid → Option Regs

def History.empty : History := ⟨fun _ => none, fun _ => none⟩

def History.note (env : Env) (s : System) (h : History) : Action → History
  | .execute command regs =>
    match s.kernel.execute env (command.map Command.text) regs with
    | .ok (.started n _, _) => { h with created := Function.update h.created n (some regs) }
    | _                     => h
  | .tick regs =>
    { h with
      switchedOut := Function.update h.switchedOut s.kernel.scheduledTerminal (some regs) }
  | .halt _ _ => h
  | .vidmap _ => h

structure Traced where
  system  : System
  history : History

def Traced.step (env : Env) (s : Traced) (a : Action) : Option Traced :=
  (s.system.step env a).map fun s' => ⟨s', s.history.note env s.system a⟩

def Traced.LaunchOk (s : Traced) (a : Action) : Prop := Osgods.LaunchOk s.system a

instance (s : Traced) (a : Action) : Decidable (s.LaunchOk a) :=
  inferInstanceAs (Decidable (Osgods.LaunchOk s.system a))

/-- The states that boot reaches, with the history since the first shell. -/
def TracedBoot (env : Env) (s : Traced) : Prop :=
  (∃ regs s₀ as, firstShell env regs = some s₀ ∧
    Run (Guarded (Graph (Traced.step env)) Traced.LaunchOk) ⟨s₀, .empty⟩ as s) ∧
    ∀ t, (s.system.kernel.terminalList t).countPcb ≠ 0#32

/-- The pairs in the PCBs are those of the history: in a parent the one stored when its child was
created, on top of a terminal that waits the one stored when it was switched out. -/
structure Contexts (chain : Tid → List Slot) (k : Kernel) (h : History) : Prop where
  created     : ∀ s p, (k.pcbs s).Active → (k.pcbs s).parentId = slotWord p →
    h.created s = some (k.saved p)
  switchedOut : ∀ t, t ≠ k.scheduledTerminal → ∀ s, (chain t).head? = some s →
    h.switchedOut t = some (k.saved s)

section

variable {env : Env} {chain chain' : Tid → List Slot} {k k' : Kernel} {c n p q : Slot} {regs : Regs}
  {h : History} {s s' : System} {a : Action} {rest : List Slot}

/-! ### What the kernel's assignments do to the pairs -/

/-- An update of a PCB that keeps the pair. -/
lemma saved_updatePcb {f : Pcb → Pcb}
    (hf : ∀ p : Pcb, (f p).savedEsp = p.savedEsp ∧ (f p).savedEbp = p.savedEbp) :
    (k.updatePcb n f).saved = k.saved := by
  funext s
  rw [Kernel.saved, Kernel.updatePcb_pcbs, Function.update_apply]
  split_ifs with hs
  · subst hs
    rw [(hf _).1, (hf _).2, Kernel.saved]
  · rfl

lemma saved_createFields (pid : Word) (argument : List Byte) (k : Kernel) :
    (k.createFields n pid argument).saved = k.saved :=
  saved_updatePcb fun _ => ⟨rfl, rfl⟩

lemma saved_createTssEsp0 (k : Kernel) : (k.createTssEsp0 n).saved = k.saved :=
  saved_updatePcb fun _ => ⟨rfl, rfl⟩

lemma saved_createTid (k : Kernel) : (k.createTid n).saved = k.saved :=
  saved_updatePcb fun _ => ⟨rfl, rfl⟩

lemma saved_createActive (k : Kernel) : (k.createActive n).saved = k.saved :=
  saved_updatePcb fun _ => ⟨rfl, rfl⟩

lemma saved_createEsp0 (pid : Word) (k : Kernel) : (k.createEsp0 n pid).saved = k.saved :=
  saved_updatePcb fun _ => ⟨rfl, rfl⟩

@[simp] lemma saved_started (argument : List Byte) (parentId : Word) (k : Kernel) :
    (k.started n parentId argument).saved = k.saved := by
  funext s
  by_cases hs : s = n
  · subst hs
    simp [Kernel.saved, Kernel.started, Kernel.newPcb]
  · simp [Kernel.saved, Kernel.started, Function.update_of_ne hs]

@[simp] lemma saved_forNew (k : Kernel) : (k.forNew n).saved = k.saved := rfl

/-- A child is started with the registers of its parent. -/
lemma saved_child (argument : List Byte) (regs : Regs) (k : Kernel) :
    (k.child c n argument regs).saved = Function.update k.saved c regs := by
  funext s
  by_cases hs : s = c
  · subst hs
    simp [Kernel.saved, Kernel.child]
  · have hstarted := congrFun (saved_started (n := n) argument (slotWord c) (k.forNew n)) s
    rw [saved_forNew] at hstarted
    rw [Function.update_of_ne hs, ← hstarted]
    simp [Kernel.saved, Kernel.child, Function.update_of_ne hs]

@[simp] lemma saved_haltInactive (k : Kernel) : (k.haltInactive c).saved = k.saved :=
  saved_updatePcb fun _ => ⟨rfl, rfl⟩

@[simp] lemma saved_haltFiles (k : Kernel) : (k.haltFiles c).saved = k.saved :=
  saved_updatePcb fun _ => ⟨rfl, rfl⟩

@[simp] lemma saved_haltVidmap (k : Kernel) : k.haltVidmap.saved = k.saved := by
  unfold Kernel.saved
  rw [Kernel.haltVidmap_pcbs]

@[simp] lemma saved_haltCurr (k : Kernel) : (k.haltCurr p).saved = k.saved := rfl
@[simp] lemma saved_haltTss (k : Kernel) : (k.haltTss p).saved = k.saved := rfl
@[simp] lemma saved_setUpPaging (pid : Word) (k : Kernel) :
    (k.setUpPaging pid).saved = k.saved := rfl
@[simp] lemma saved_cli (k : Kernel) : k.cli.saved = k.saved := rfl
@[simp] lemma saved_haltCount (k : Kernel) : k.haltCount.saved = k.saved := rfl

@[simp] lemma saved_halted (k : Kernel) : (k.halted c p).saved = k.saved := by
  simp only [Kernel.halted, Kernel.unwound, saved_haltCurr, saved_haltTss, saved_haltVidmap,
    saved_setUpPaging, saved_haltInactive, saved_haltFiles, saved_cli, saved_haltCount]

lemma saved_switchedOut (next : Tid) (regs : Regs) (k : Kernel) :
    (k.switchedOut c next regs).saved = Function.update k.saved c regs := by
  funext s
  rw [Kernel.saved, (Kernel.switchedOut_spec c next regs k).1]
  by_cases hs : s = c
  · subst hs
    simp
  · simp [Function.update_of_ne hs, Kernel.saved]

namespace Contexts

/-- An assignment that stores no pair and creates no process with a parent. -/
lemma congr (hctx : Contexts chain k h)
    (hpcb : ∀ s p, (k'.pcbs s).Active → (k'.pcbs s).parentId = slotWord p →
      (k.pcbs s).Active ∧ (k.pcbs s).parentId = slotWord p)
    (hsaved : k'.saved = k.saved) (hsched : k'.scheduledTerminal = k.scheduledTerminal)
    (hchain : ∀ t, t ≠ k.scheduledTerminal → chain' t = chain t) : Contexts chain' k' h where
  created     := fun s p hs hp => by
    obtain ⟨hs', hp'⟩ := hpcb s p hs hp
    rw [hsaved]
    exact hctx.created s p hs' hp'
  switchedOut := fun t ht s hhead => by
    rw [hsched] at ht
    rw [hchain t ht] at hhead
    rw [hsaved]
    exact hctx.switchedOut t ht s hhead

lemma sti (hctx : Contexts chain k h) : Contexts chain k.sti h :=
  hctx.congr (fun _ _ hs hp => ⟨hs, hp⟩) rfl rfl fun _ _ => rfl

lemma forNew (hctx : Contexts chain k h) : Contexts chain (k.forNew n) h :=
  hctx.congr (fun _ _ hs hp => ⟨hs, hp⟩) rfl rfl fun _ _ => rfl

lemma restoreTss (hctx : Contexts chain k h) (pid : Word) :
    Contexts chain (((k.setUpPaging pid).setCurr q).restoreTss q) h :=
  hctx.congr (fun _ _ hs hp => ⟨hs, hp⟩) rfl rfl fun _ _ => rfl

/-- A base shell has no parent to return to. -/
lemma base (hctx : Contexts chain k h) (argument : List Byte) (l : List Slot) :
    Contexts (Function.update chain k.scheduledTerminal l) (k.base n argument) h := by
  refine hctx.congr (fun s p hs hp => ?_) (by rw [Kernel.base, saved_started, saved_forNew]) rfl
    fun t ht => Function.update_of_ne ht _ _
  by_cases hsn : s = n
  · subst hsn
    simp only [Kernel.base, Kernel.started, Kernel.newPcb, Function.update_self] at hp
    exact absurd hp.symm (slotWord_ne_noPid p)
  · simp only [Kernel.base, Kernel.started, Function.update_of_ne hsn] at hs hp
    exact ⟨hs, hp⟩

lemma haltInactive (hctx : Contexts chain k h) :
    Contexts chain (k.haltCount.haltInactive c) h := by
  refine hctx.congr (fun s p hs hp => ?_) (saved_haltInactive _) rfl fun t _ => rfl
  by_cases hsc : s = c
  · subst hsc
    simp [Kernel.haltInactive, Pcb.Active] at hs
  · simp only [Kernel.haltInactive, Kernel.haltCount, Kernel.updatePcb_pcbs,
      Kernel.updateTerminal_pcbs, Function.update_of_ne hsc] at hs hp
    exact ⟨hs, hp⟩

lemma halted (hctx : Contexts chain k h) (l : List Slot) :
    Contexts (Function.update chain k.scheduledTerminal l) (k.halted c p) h := by
  refine (hctx.haltInactive (c := c)).congr (fun s p' hs hp => ?_)
    (by rw [saved_halted, saved_haltInactive]; rfl) (Kernel.unwound_scheduledTerminal c p _)
    fun t ht => Function.update_of_ne ht _ _
  obtain ⟨-, hparent, hactive, -⟩ := unwound_like c p s k.haltCount
  exact ⟨by rwa [Pcb.Active, ← hactive], hparent.symm.trans hp⟩

/-- The parent's pair is stored when the child is created, and the parent is not on top of another
terminal. -/
lemma child (hctx : Contexts chain k h) (hc : Current chain 0 k c) (hn : ¬ (k.pcbs n).Active)
    (argument : List Byte) (regs : Regs) (l : List Slot) :
    Contexts (Function.update chain k.scheduledTerminal l) (k.child c n argument regs)
      { h with created := Function.update h.created n (some regs) } := by
  have hcn : c ≠ n := by
    rintro rfl
    exact hn hc.active
  have hsaved : ∀ s, s ≠ c → (k.child c n argument regs).saved s = k.saved s := by
    intro s hs
    rw [saved_child, Function.update_of_ne hs]
  refine ⟨fun s p hs hp => ?_, fun t ht s hhead => ?_⟩
  · by_cases hsn : s = n
    · subst hsn
      have hparent : slotWord p = slotWord c := by
        rw [← hp]
        simp [Kernel.child, Kernel.started, Kernel.newPcb, Function.update_of_ne hcn.symm]
      obtain rfl := slotWord_injective hparent
      simp [Kernel.saved, Kernel.child]
    · have hactive : ((k.child c n argument regs).pcbs s).active = (k.pcbs s).active ∧
          ((k.child c n argument regs).pcbs s).parentId = (k.pcbs s).parentId := by
        by_cases hsc : s = c
        · subst hsc
          simp [Kernel.child, Kernel.started, Kernel.forNew, Kernel.cli, Function.update_of_ne hcn]
        · simp [Kernel.child, Kernel.started, Kernel.forNew, Kernel.cli,
            Function.update_of_ne hsn, Function.update_of_ne hsc]
      rw [Pcb.Active, hactive.1] at hs
      rw [hactive.2] at hp
      rw [hsaved p (hc.ne_of_parent hs hp)]
      exact (Function.update_of_ne hsn _ _).trans (hctx.created s p hs hp)
  · have ht' : t ≠ k.scheduledTerminal := ht
    rw [Function.update_of_ne ht'] at hhead
    rw [hsaved s (hc.ne_of_head ht' hhead)]
    exact hctx.switchedOut t ht' s hhead

/-- The pair of the process that a tick switches out is stored for its terminal. -/
lemma tick (hctx : Contexts chain k h) (hc : Current chain 0 k c) (next : Tid) (regs : Regs) :
    Contexts chain (k.switchedOut c next regs)
      { h with switchedOut := Function.update h.switchedOut k.scheduledTerminal (some regs) } := by
  refine ⟨fun s p hs hp => ?_, fun t ht s hhead => ?_⟩
  · have hparent : ((k.switchedOut c next regs).pcbs s).parentId = (k.pcbs s).parentId :=
      (switchedOut_like next s).2.1
    rw [Pcb.Active, Kernel.switchedOut_active] at hs
    rw [hparent] at hp
    rw [saved_switchedOut, Function.update_of_ne (hc.ne_of_parent hs hp)]
    exact hctx.created s p hs hp
  · rw [saved_switchedOut]
    by_cases hts : t = k.scheduledTerminal
    · subst hts
      obtain rfl := Option.some.inj (hc.top.symm.trans hhead)
      simp
    · rw [Function.update_of_ne (hc.ne_of_head hts hhead)]
      simpa [Function.update_of_ne hts] using hctx.switchedOut t hts s hhead

end Contexts

/-! ### Whole steps -/

lemma Halted.contexts (hctx : Contexts chain k h) (hhalt : Halted chain k c s' chain') :
    Contexts chain' s'.kernel h := by
  cases hhalt with
  | resumed hchain => exact (hctx.halted _).sti
  | restarted argument hchain hn => exact (hctx.haltInactive.base argument _).sti

lemma Outcome.contexts (hinv : Inv chain s.kernel s.running) (hctx : Contexts chain s.kernel h)
    (hout : Outcome env chain s a s' chain') : Contexts chain' s'.kernel (h.note env s a) := by
  cases hout with
  | returned hpid heq =>
    rw [History.note, heq]
    exact hctx.congr (fun _ _ hs hp => ⟨hs, hp⟩) rfl rfl fun _ _ => rfl
  | child hn heq =>
    rw [History.note, heq]
    exact (hctx.child hinv.toCurrent hn _ _ _).sti
  | faulted hhalt heq =>
    rw [History.note, heq]
    exact hhalt.contexts hctx.forNew
  | halted hhalt => exact hhalt.contexts hctx
  | resumed hchain => exact ((hctx.tick hinv.toCurrent _ _).restoreTss _).sti
  | @launched regs n argument hchain hn =>
    have hbase := (hctx.tick hinv.toCurrent (s.kernel.scheduledTerminal + 1) regs).base (n := n)
      argument [n]
    rw [(Kernel.switchedOut_spec s.running (s.kernel.scheduledTerminal + 1) regs
      s.kernel).2.2.1] at hbase
    exact hbase.sti
  | vidmap heq =>
    rcases Kernel.vidmap_cases env _ hinv.curr with heq' | ⟨u, paging, heq'⟩
    · obtain ⟨-, rfl⟩ := Prod.mk.inj (Except.ok.inj (heq.symm.trans heq'))
      exact hctx.sti
    · obtain ⟨-, rfl⟩ := Prod.mk.inj (Except.ok.inj (heq.symm.trans heq'))
      exact hctx.congr (fun _ _ hs hp => ⟨hs, hp⟩) rfl rfl fun _ _ => rfl

end

/-! ### Runs -/

/-- In this state, whatever halts goes on with the pair stored when it was created, and whatever a
tick resumes goes on with the pair stored when its terminal was switched out. -/
structure ContextsMatch (env : Env) (s : Traced) : Prop where
  halt  : ∀ status regs p r saved k,
    s.system.kernel.halt env status regs = .ok (.resumed p r saved, k) →
      s.history.created s.system.running = some saved
  fault : ∀ command regs p r saved k k', s.system.kernel.execute env command regs = .error k →
    k.halt env 0#8 regs = .ok (.resumed p r saved, k') →
      s.history.created s.system.running = some saved
  tick  : ∀ regs q saved k,
    s.system.kernel.pitIntrHandler env regs = .ok (.resumed q saved, k) →
      s.history.switchedOut k.scheduledTerminal = some saved

section

variable {env : Env} {chain : Tid → List Slot} {k k' : Kernel} {c p q : Slot} {regs saved : Regs}
  {h : History} {status : Byte} {r : Word} {s₀ s : Traced} {as : List Action}

lemma Contexts.halt_saved (hshell : HasShell env.img) (hctx : Contexts chain k h)
    (hc : Current chain 0 k c) (heq : k.halt env status regs = .ok (.resumed p r saved, k')) :
    h.created c = some saved := by
  rcases hc.halt_cases hshell rfl status regs with
    ⟨p', rest, hchain, heq'⟩ | ⟨n, argument, eip, -, -, heq'⟩
  · rw [heq'] at heq
    cases heq
    have hsaved := congrFun (saved_halted (c := c) (p := p) k) p
    rw [Kernel.saved] at hsaved
    rw [hsaved]
    exact hctx.created c p hc.active (hc.chains.parentId_head hchain)
  · rw [heq'] at heq
    cases heq

lemma Contexts.tick_saved (hshell : HasShell env.img) (hctx : Contexts chain k h)
    (hinv : Inv chain k c) (hall : ∀ t, chain t ≠ [])
    (heq : k.pitIntrHandler env regs = .ok (.resumed q saved, k')) :
    h.switchedOut k'.scheduledTerminal = some saved := by
  have hcount : (k.terminalList (k.scheduledTerminal + 1)).countPcb ≠ 0#32 := fun hzero =>
    hall _ ((hinv.count_eq_zero _).mp hzero)
  rcases hinv.toCurrent.pit_cases hshell regs (fun hzero => absurd hzero hcount) with
    ⟨q', rest, hchain, heq'⟩ | ⟨n, argument, eip, hchain, -, -⟩
  · rw [heq'] at heq
    cases heq
    have hsucc : ∀ t : Tid, t + 1 ≠ t := by decide
    have hhead : (chain (k.scheduledTerminal + 1)).head? = some q := by
      rw [hchain]
      rfl
    have hsaved := congrFun (saved_switchedOut (c := c) (k.scheduledTerminal + 1) regs k) q
    rw [Kernel.saved, Function.update_of_ne (hinv.toCurrent.ne_of_head (hsucc _) hhead)] at hsaved
    rw [hsaved, Kernel.resumed_scheduledTerminal]
    exact hctx.switchedOut _ (hsucc _) q hhead
  · exact absurd hchain (hall _)

lemma TracedBoot.hasShell (hboot : TracedBoot env s) : HasShell env.img := by
  obtain ⟨⟨regs, s₀, as, hs₀, -⟩, -⟩ := hboot
  exact firstShell_hasShell hs₀

/-- The pairs agree with the history when all shells have been started. -/
lemma TracedBoot.contexts (hboot : TracedBoot env s) :
    ∃ chain, Inv chain s.system.kernel s.system.running ∧
      Contexts chain s.system.kernel s.history ∧ ∀ t, chain t ≠ [] := by
  have hshell := hboot.hasShell
  obtain ⟨⟨regs, s₀, as, hs₀, hrun⟩, hall⟩ := hboot
  have hinv := hrun.invariant (I := fun s => ∃ chain, Inv chain s.system.kernel s.system.running ∧
      Contexts chain s.system.kernel s.history)
    (fun s a s' ⟨chain, hs, hctx⟩ ⟨hstep, hlaunch⟩ => by
      obtain ⟨s₁, hsys, rfl⟩ := Option.map_eq_some_iff.mp hstep
      obtain ⟨chain', hout⟩ := hs.outcome hshell hlaunch hsys
      exact ⟨chain', hout.inv hs, hout.contexts hs hctx⟩)
    (by
      obtain ⟨argument, rfl⟩ := firstShell_eq hs₀
      have hempty : Contexts (fun _ => []) (bootKernel env.layout) .empty :=
        ⟨fun s p hs => absurd rfl hs, fun t _ s hhead => by cases hhead⟩
      exact ⟨_, bootKernel_base_inv env.layout argument, (hempty.base argument [0]).sti⟩)
  obtain ⟨chain, hs, hctx⟩ := hinv
  exact ⟨chain, hs, hctx, fun t hnil => hall t ((hs.count_eq_zero t).mpr hnil)⟩

/-- Saved contexts are not mixed up. -/
theorem saved_contexts (hboot : TracedBoot env s₀)
    (hrun : Run (Graph (Traced.step env)) s₀ as s) : ContextsMatch env s := by
  have hshell := hboot.hasShell
  obtain ⟨chain, hs, hctx, hall⟩ := hrun.invariant (I := fun s : Traced => ∃ chain,
      Inv chain s.system.kernel s.system.running ∧ Contexts chain s.system.kernel s.history ∧
        ∀ t, chain t ≠ [])
    (fun s a s' ⟨chain, hs, hctx, hall⟩ hstep => by
      obtain ⟨s₁, hsys, rfl⟩ := Option.map_eq_some_iff.mp hstep
      obtain ⟨chain', hout⟩ := hs.outcome hshell (hs.launchOk hall a) hsys
      exact ⟨chain', hout.inv hs, hout.contexts hs hctx, fun t => hout.ne_nil (hall t)⟩)
    hboot.contexts
  refine ⟨fun status regs p r saved k heq => hctx.halt_saved hshell hs.toCurrent heq,
    fun command regs p r saved k k' hfault heq => ?_,
    fun regs q saved k heq => hctx.tick_saved hshell hs hall heq⟩
  rcases hs.toCurrent.execute_cases env command regs with
    ⟨status, pid, heq', -⟩ | ⟨n, -, heq'⟩ | ⟨n, argument, eip, -, heq'⟩
  · rw [heq'] at hfault
    cases hfault
  · rw [heq'] at hfault
    cases hfault
    exact hctx.forNew.halt_saved hshell (hs.toCurrent.forNew n) heq
  · rw [heq'] at hfault
    cases hfault

/-- The shell of the third terminal runs another one, which is then switched out and resumed. -/
theorem saved_contexts_small : ∃ s : Traced,
    (s.system.kernel.halt smallKernel 0#8 ⟨0#32, 0#32⟩).toOption.any (fun r =>
      r.1 = .resumed 2 0#32 ⟨0x7fbf80#32, 0x7fbfa0#32⟩) = true ∧
    s.history.created s.system.running = some ⟨0x7fbf80#32, 0x7fbfa0#32⟩ ∧
    ContextsMatch smallKernel s := by
  have hrun : ((firstShell smallKernel ⟨0#32, 0#32⟩).bind fun s =>
      runFrom (guardedStep (Traced.step smallKernel) fun s a => s.LaunchOk a) ⟨s, .empty⟩
        [.tick ⟨0#32, 0#32⟩, .tick ⟨0#32, 0#32⟩]).any (fun s₀ =>
          decide (∀ t, (s₀.system.kernel.terminalList t).countPcb ≠ 0#32) &&
          (runFrom (Traced.step smallKernel) s₀
            ([.execute (some shellCommand) ⟨0x7fbf80#32, 0x7fbfa0#32⟩] ++
              List.replicate 3 (.tick ⟨1#32, 1#32⟩))).any fun s =>
            decide ((s.system.kernel.halt smallKernel 0#8 ⟨0#32, 0#32⟩).toOption.any (fun r =>
              r.1 = .resumed 2 0#32 ⟨0x7fbf80#32, 0x7fbfa0#32⟩) = true ∧
              s.history.created s.system.running = some ⟨0x7fbf80#32, 0x7fbfa0#32⟩)) = true := by
    decide +kernel
  cases hs : firstShell smallKernel ⟨0#32, 0#32⟩ with
  | none => simp [hs] at hrun
  | some s =>
    rw [hs, Option.bind_some] at hrun
    obtain ⟨s₀, hboot, hs₀⟩ := exists_run_of_any hrun
    rw [Bool.and_eq_true, decide_eq_true_eq] at hs₀
    obtain ⟨s₁, hrun₁, hs₁⟩ := exists_run_of_any hs₀.2
    rw [decide_eq_true_eq] at hs₁
    have htraced : TracedBoot smallKernel s₀ :=
      ⟨⟨⟨0#32, 0#32⟩, s, _, hs, guarded_graph (fun _ _ hp => of_decide_eq_true hp) hboot⟩, hs₀.1⟩
    exact ⟨s₁, hs₁.1, hs₁.2, saved_contexts htraced hrun₁⟩

end

end Osgods
