import Osgods.Process.System

/-!
# Descriptor tables over whole steps

Whatever state the kernel is in, a system call or a tick leaves the descriptor tables of the active
processes alone, but for the table of a process that it starts, and that of one that it ends.
-/

namespace Osgods

namespace Kernel

/-- An active process has kept its table, or has just got a new one. -/
def KeepsTables (k k' : Kernel) : Prop :=
  ∀ p, (k'.pcbs p).Active →
    (k.pcbs p).Active ∧ (k'.pcbs p).fileDescriptor = (k.pcbs p).fileDescriptor ∨
      (k'.pcbs p).fileDescriptor = createTable

/-- The kernel that is left, after a fault as well. -/
def EndsIn (P : Kernel → Prop) : Except Kernel Kernel → Prop
  | .ok k    => P k
  | .error k => P k

section

variable {env : Env} {k k' k'' : Kernel} {s c : Slot} {f : Pcb → Pcb} {regs : Regs}
  {argument : List Byte} {pid : Word}

namespace KeepsTables

lemma refl (k : Kernel) : KeepsTables k k := fun _ hp => Or.inl ⟨hp, rfl⟩

lemma trans (h : KeepsTables k k') (h' : KeepsTables k' k'') : KeepsTables k k'' := by
  intro p hp
  rcases h' p hp with ⟨hactive, htable⟩ | htable
  · rw [htable]
    exact h p hactive
  · exact Or.inr htable

/-- Only the PCBs matter. -/
lemma congr (h : KeepsTables k k') (hpcbs : k''.pcbs = k'.pcbs) : KeepsTables k k'' := by
  intro p hp
  rw [hpcbs] at hp ⊢
  exact h p hp

lemma of_pcbs (hpcbs : k'.pcbs = k.pcbs) : KeepsTables k k' := (refl k).congr hpcbs

/-- An update of the other fields of a PCB. -/
lemma updatePcb (h : KeepsTables k k') (hactive : (f (k'.pcbs s)).active = (k'.pcbs s).active)
    (htable : (f (k'.pcbs s)).fileDescriptor = (k'.pcbs s).fileDescriptor) :
    KeepsTables k (k'.updatePcb s f) := by
  refine h.trans fun p hp => ?_
  by_cases hps : p = s
  · subst hps
    rw [updatePcb_pcbs, Function.update_self] at hp ⊢
    rw [Pcb.Active, hactive] at hp
    exact Or.inl ⟨hp, htable⟩
  · rw [updatePcb_pcbs, Function.update_of_ne hps] at hp ⊢
    exact Or.inl ⟨hp, rfl⟩

lemma createCountPcb (h : KeepsTables k k') : KeepsTables k k'.createCountPcb := h.congr rfl

lemma create (hf : (f (k.pcbs s)).fileDescriptor = createTable) :
    KeepsTables k (k.updatePcb s f) := by
  intro p hp
  by_cases hps : p = s
  · subst hps
    rw [updatePcb_pcbs, Function.update_self]
    exact Or.inr hf
  · rw [updatePcb_pcbs, Function.update_of_ne hps] at hp ⊢
    exact Or.inl ⟨hp, rfl⟩

/-- A process that is ended is none of the active ones. -/
lemma haltInactive (hk : ∀ p, p ≠ c → k'.pcbs p = k.pcbs p) :
    KeepsTables k (k'.haltInactive c) := by
  intro p hp
  by_cases hpc : p = c
  · subst hpc
    rw [Kernel.haltInactive, updatePcb_pcbs, Function.update_self] at hp
    exact absurd rfl hp
  · rw [Kernel.haltInactive, updatePcb_pcbs, Function.update_of_ne hpc, hk p hpc] at hp ⊢
    exact Or.inl ⟨hp, rfl⟩

lemma endsIn (h : KeepsTables k k') {r : Except Kernel Kernel} (hr : EndsIn (KeepsTables k') r) :
    EndsIn (KeepsTables k) r := by
  cases r with
  | ok k''    => exact h.trans hr
  | error k'' => exact h.trans hr

end KeepsTables

/-! ### Starting a process -/

variable (k s pid argument) in
lemma createPcb_tables : EndsIn (KeepsTables k) (k.createPcb s pid argument) := by
  rw [createPcb_eq, createParentId]
  generalize hk' : k.updatePcb s _ = k'
  have hcreate : KeepsTables k k' := by
    rw [← hk']
    exact .create rfl
  split
  · exact (hcreate.updatePcb rfl rfl).createCountPcb
  · split
    · exact hcreate
    · exact (hcreate.updatePcb rfl rfl).createCountPcb

variable (k s regs) in
lemma saveParent_tables : EndsIn (KeepsTables k) (k.saveParent s regs) := by
  rw [saveParent]
  split
  · exact .refl k
  · split
    · exact .refl k
    · exact (KeepsTables.refl k).updatePcb rfl rfl

variable (k argument regs) in
lemma startProcess_tables :
    EndsIn (KeepsTables k) ((k.startProcess argument regs).map Prod.snd) := by
  rw [startProcess]
  cases slotOf k.pid with
  | none => exact .refl k
  | some s =>
    have hcreate := createPcb_tables k s argument k.pid
    cases hk' : k.createPcb s k.pid argument with
    | error k' =>
      rw [hk'] at hcreate
      simp only [hk']
      exact hcreate
    | ok k' =>
      rw [hk'] at hcreate
      have hsave := saveParent_tables { k' with currPcb := some s } s regs
      simp only [hk']
      cases hk'' : saveParent s regs { k' with currPcb := some s } with
      | error k'' =>
        rw [hk''] at hsave
        exact hcreate.trans (hsave.congr rfl)
      | ok k'' =>
        rw [hk''] at hsave
        exact (hcreate.trans hsave).congr rfl

variable (env k regs) in
lemma execute_tables (command : Option (List Byte)) :
    EndsIn (KeepsTables k) ((k.execute env command regs).map Prod.snd) := by
  rcases execute_cases env command regs k with
    ⟨status, pid, heq, -⟩ | ⟨text, s, prog, -, -, -, ⟨heq, -⟩ | ⟨-, heq⟩⟩
  · rw [heq]
    exact .of_pcbs rfl
  · rw [heq]
    exact KeepsTables.of_pcbs rfl
  · have hstart := startProcess_tables (k.forNew s) regs prog.argument
    have hnew : KeepsTables k (k.forNew s) := .of_pcbs rfl
    rw [heq]
    cases hres : (k.forNew s).startProcess prog.argument regs with
    | error k' =>
      rw [hres] at hstart
      exact hnew.trans hstart
    | ok r =>
      rw [hres] at hstart
      exact hnew.trans hstart

/-! ### Ending a process -/

variable (k) in
lemma haltToParent_tables (status : Byte) :
    EndsIn (KeepsTables k) ((k.haltToParent status).map Prod.snd) := by
  rw [haltToParent]
  cases hc : k.cli.currPcb with
  | none => exact .of_pcbs rfl
  | some c =>
    have hother : ∀ p, p ≠ c → (k.cli.haltFiles c).pcbs p = k.pcbs p := by
      intro p hp
      rw [haltFiles, updatePcb_pcbs, Function.update_of_ne hp]
      rfl
    have hhalt := KeepsTables.haltInactive hother
    simp only
    cases slotOf (k.cli.pcbs c).parentId with
    | none => exact hhalt.congr (by rw [haltVidmap_pcbs, setUpPaging_pcbs])
    | some p => exact hhalt.congr (by
        show (haltVidmap _).pcbs = _
        rw [haltVidmap_pcbs, setUpPaging_pcbs])

variable (env k regs) in
lemma halt_tables (status : Byte) :
    EndsIn (KeepsTables k) ((k.halt env status regs).map Prod.snd) := by
  have hcount : KeepsTables k k.haltCount := .of_pcbs rfl
  have hparent := hcount.endsIn (haltToParent_tables k.haltCount status)
  rw [halt]
  cases hc : k.haltCount.currPcb with
  | none => exact hcount
  | some c =>
    simp only
    split
    · have hend : KeepsTables k (k.haltCount.haltInactive c) :=
        hcount.trans (.haltInactive fun _ _ => rfl)
      have hexec := hend.endsIn (execute_tables env (k.haltCount.haltInactive c) regs
        (some shellCommand.text))
      cases hres : (k.haltCount.haltInactive c).execute env (some shellCommand.text) regs with
      | error k' =>
        rw [hres] at hexec
        exact hexec
      | ok r =>
        obtain ⟨result, k'⟩ := r
        rw [hres] at hexec
        cases result with
        | started s eip => exact hexec
        | returned w => exact KeepsTables.endsIn hexec (haltToParent_tables k' status)
    · exact hparent

/-! ### The other steps -/

variable (k regs) in
lemma saveContext_tables : EndsIn (KeepsTables k) (k.saveContext regs) := by
  rw [saveContext]
  split
  · exact .refl k
  · split
    · exact .refl k
    · exact (KeepsTables.refl k).updatePcb rfl rfl

variable (env k regs) in
lemma scheduler_tables : EndsIn (KeepsTables k) ((k.scheduler env regs).map Prod.snd) := by
  have hstore : KeepsTables k k.storePcbPtr := .of_pcbs rfl
  have hsave := hstore.endsIn (saveContext_tables k.storePcbPtr regs)
  rw [scheduler]
  cases hk' : k.storePcbPtr.saveContext regs with
  | error k' =>
    rw [hk'] at hsave
    exact hsave
  | ok k' =>
    rw [hk'] at hsave
    have hsave : KeepsTables k k' := hsave
    simp only
    cases hn : k'.scheduled.nextTerminal with
    | none => exact hsave
    | some next =>
      have hset : KeepsTables k (k'.setScheduled next) := hsave.congr (setScheduled_pcbs next k')
      simp only
      split
      · have hexec := hset.endsIn (execute_tables env (k'.setScheduled next) regs
          (some shellCommand.text))
        cases hres : (k'.setScheduled next).execute env (some shellCommand.text) regs with
        | error k'' =>
          rw [hres] at hexec
          exact hexec
        | ok r =>
          obtain ⟨result, k''⟩ := r
          rw [hres] at hexec
          cases result with
          | started s eip => exact hexec
          | returned w => exact hexec
      · cases hq : (k'.setScheduled next).scheduled.pcbPtr with
        | none => exact hset
        | some q => exact hset.congr rfl

variable (env k regs) in
lemma pit_tables : EndsIn (KeepsTables k) ((k.pitIntrHandler env regs).map Prod.snd) := by
  have hswitch : KeepsTables k k.cli.memorySwitch := .of_pcbs (memorySwitch_pcbs k.cli)
  exact hswitch.endsIn (scheduler_tables env k.cli.memorySwitch regs)

variable (env k) in
lemma vidmap_tables (screenStart : Word) :
    EndsIn (KeepsTables k) ((k.vidmap env screenStart).map Prod.snd) := by
  rw [vidmap]
  split_ifs
  · exact .refl k
  · exact .refl k
  · simp only
    split
    · exact .of_pcbs rfl
    · exact .of_pcbs rfl

/-- The halt in the page fault handler. -/
lemma pageFault_tables {r : HaltResult × Kernel} (h : KeepsTables k k')
    (hfault : k'.pageFault env regs = some r) : KeepsTables k r.2 := by
  have hhalt := h.endsIn (halt_tables env k' regs 0#8)
  rw [pageFault] at hfault
  cases hres : k'.halt env 0#8 regs with
  | error k'' =>
    rw [hres] at hfault
    cases hfault
  | ok r' =>
    rw [hres] at hfault hhalt
    cases hfault
    exact hhalt

end

end Kernel

/-- A step of the system leaves the tables of the processes that go on alone. -/
lemma System.step_tables {env : Env} {s s' : System} {a : Action} (h : s.step env a = some s') :
    s.kernel.KeepsTables s'.kernel := by
  have hafter : ∀ {k : Kernel} {regs : Regs}, s.kernel.KeepsTables k →
      (k.pageFault env regs).map System.afterHalt = some s' → s.kernel.KeepsTables s'.kernel := by
    intro k regs hk hfault
    obtain ⟨r, hr, rfl⟩ := Option.map_eq_some_iff.mp hfault
    exact (Kernel.pageFault_tables hk hr).congr rfl
  cases a with
  | execute command regs =>
    have hexec := Kernel.execute_tables env s.kernel regs (command.map Command.text)
    cases hres : s.kernel.execute env (command.map Command.text) regs with
    | error k =>
      rw [hres] at hexec
      simp only [System.step, hres] at h
      exact hafter hexec h
    | ok r =>
      obtain ⟨result, k⟩ := r
      rw [hres] at hexec
      cases result with
      | returned w =>
        simp only [System.step, hres] at h
        cases h
        exact Kernel.KeepsTables.congr hexec rfl
      | started q eip =>
        simp only [System.step, hres] at h
        cases h
        exact Kernel.KeepsTables.congr hexec rfl
  | halt status regs =>
    have hhalt := Kernel.halt_tables env s.kernel regs status
    cases hres : s.kernel.halt env status regs with
    | error k =>
      rw [hres] at hhalt
      simp only [System.step, hres] at h
      exact hafter hhalt h
    | ok r =>
      rw [hres] at hhalt
      simp only [System.step, hres] at h
      cases h
      exact Kernel.KeepsTables.congr hhalt rfl
  | tick regs =>
    have htick := Kernel.pit_tables env s.kernel regs
    cases hres : s.kernel.pitIntrHandler env regs with
    | error k =>
      rw [hres] at htick
      simp only [System.step, hres] at h
      exact hafter htick h
    | ok r =>
      obtain ⟨result, k⟩ := r
      rw [hres] at htick
      have hk : s.kernel.KeepsTables k.sti := Kernel.KeepsTables.congr htick rfl
      cases result with
      | returned =>
        simp only [System.step, hres] at h
        cases h
        exact hk
      | resumed q regs =>
        simp only [System.step, hres] at h
        cases h
        exact hk
      | launched q eip =>
        simp only [System.step, hres] at h
        cases h
        exact hk
  | vidmap screenStart =>
    have hvidmap := Kernel.vidmap_tables env s.kernel screenStart
    cases hres : s.kernel.vidmap env screenStart with
    | error k =>
      rw [hres] at hvidmap
      simp only [System.step, hres] at h
      exact hafter hvidmap h
    | ok r =>
      rw [hres] at hvidmap
      simp only [System.step, hres] at h
      cases h
      exact Kernel.KeepsTables.congr hvidmap rfl

end Osgods
