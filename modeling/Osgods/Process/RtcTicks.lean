import Osgods.Process.Tables
import Osgods.Syscall.Directory

/-!
# Counting RTC interrupts

All processes that have the RTC open count its interrupts in the positions of their descriptors.
A ghost counter keeps, for each descriptor, how many interrupts there have been since its `open` or
its last `rtc_read`; `rtc_intr_handler` stops at a process's first RTC descriptor, so the two agree
as long as no process has a second one.
-/

namespace Osgods

open Transition

/-- The descriptor is open on the RTC. -/
def FileObject.RtcOpen (o : FileObject) : Prop := o.flag ≠ 0#32 ∧ o.fileOpTb = rtcTable

instance : DecidablePred FileObject.RtcOpen := fun _ => inferInstanceAs (Decidable (_ ∧ _))

namespace Kernel

/-- The handler's loop over the processes. -/
def rtcIntrHandler (k : Kernel) : Kernel :=
  let pcbs := fun p =>
    if (k.pcbs p).active = 0#32 then k.pcbs p
    else { k.pcbs p with fileDescriptor := rtcTick (k.pcbs p).fileDescriptor }
  { k.cli with pcbs := pcbs }.sti

def setTable (c : Slot) (t : FileTable) (k : Kernel) : Kernel :=
  k.updatePcb c fun p => { p with fileDescriptor := t }

/-- What the calls of the process in slot `c` depend on. -/
def fileEnv (env : Env) (c : Slot) (k : Kernel) : FileEnv := ⟨env.img, c, k.mapped env⟩

end Kernel

/-- The whole system, and the interrupts that each descriptor should have counted. -/
structure RtcState where
  system : System
  since  : Slot → Fd → ℕ

/-- The counts of a process when one of its descriptors starts anew. -/
def restart (since : Fd → ℕ) : Option Fd → Fd → ℕ
  | some i => Function.update since i 0
  | none   => since

inductive RtcAction where
  | whole (a : Action)
  | open (filename : Option (List Byte))
  | close (fd : Word)
  | read (fd buf nbytes : Word) (keys : KeyBuffer) (mem : Word → Byte)
  | interrupt

namespace RtcState

def table (s : RtcState) (p : Slot) : FileTable := (s.system.kernel.pcbs p).fileDescriptor

def Active (s : RtcState) (p : Slot) : Prop := (s.system.kernel.pcbs p).Active

instance (s : RtcState) : DecidablePred s.Active := fun p =>
  inferInstanceAs (Decidable (s.system.kernel.pcbs p).Active)

/-- A call of the process in slot `c` has replaced its table. -/
def afterCall (s : RtcState) (c : Slot) (t : FileTable) (started : Option Fd) : RtcState where
  system := { s.system with kernel := s.system.kernel.setTable c t }
  since  := Function.update s.since c (restart (s.since c) started)

end RtcState

/-- A descriptor that is not open on anything but the RTC. -/
def OnRtc (t : FileTable) (fd : Word) : Prop :=
  ∀ i, fdOf fd = some i → (t i).flag ≠ 0#32 → (t i).fileOpTb.readFn = .rtcRead

instance (t : FileTable) (fd : Word) : Decidable (OnRtc t fd) :=
  inferInstanceAs (Decidable (∀ _, _ → _ → _))

/-- A step: a step of the whole system, a call of the process in `curr_pcb`, or an interrupt. Reads
are those that come to `rtc_read`, or fail; one that would wait is none. -/
def rtcStep (env : Env) (s : RtcState) : RtcAction → Option RtcState
  | .whole a => (s.system.step env a).map fun t => ⟨t, s.since⟩
  | .open filename => s.system.kernel.currPcb.map fun c =>
    let r := openCall env.img filename (s.table c)
    s.afterCall c r.2 (fdOf r.1)
  | .close fd => s.system.kernel.currPcb.map fun c =>
    s.afterCall c (closeCall fd (s.table c)).2 none
  | .read fd buf nbytes keys mem => s.system.kernel.currPcb.bind fun c =>
    if OnRtc (s.table c) fd then
      (readCall (s.system.kernel.fileEnv env c) keys fd buf nbytes ⟨s.table c, mem⟩).map fun r =>
        s.afterCall c r.2.table (if r.1 = 0#32 then fdOf fd else none)
    else none
  | .interrupt => some
    { system := { s.system with kernel := s.system.kernel.rtcIntrHandler }
      since  := fun p i => s.since p i + 1 }

/-- Every descriptor that is open on the RTC has counted the interrupts. -/
def RtcState.Counts (s : RtcState) : Prop :=
  ∀ p, s.Active p → ∀ i, (s.table p i).RtcOpen →
    (s.table p i).filePosition = BitVec.ofNat 32 (s.since p i)

/-- At an interrupt, no process has the RTC open twice. -/
def OneRtc (s : RtcState) : RtcAction → Prop
  | .interrupt => ∀ p, s.Active p → ∀ i j, (s.table p i).RtcOpen → (s.table p j).RtcOpen → i = j
  | _          => True

instance (s : RtcState) (a : RtcAction) : Decidable (OneRtc s a) :=
  match a with
  | .interrupt      => inferInstanceAs (Decidable (∀ _, _ → ∀ _ _, _ → _ → _))
  | .whole _        => .isTrue trivial
  | .open _         => .isTrue trivial
  | .close _        => .isTrue trivial
  | .read _ _ _ _ _ => .isTrue trivial

/-! ### One table -/

/-- An open descriptor is marked with the inode number -1 if it is one of the RTC. -/
structure FileObject.Marked (o : FileObject) : Prop where
  flag : o.flag = 0#32 ∨ o.flag = 1#32
  rtc  : o.flag = 1#32 → (o.inode = -1#32 ↔ o.fileOpTb = rtcTable)

/-- A table whose RTC descriptors have counted right. -/
structure RtcOk (t : FileTable) (since : Fd → ℕ) : Prop where
  marked : ∀ i, (t i).Marked
  counts : ∀ i, (t i).RtcOpen → (t i).filePosition = BitVec.ofNat 32 (since i)

section

variable {t t' : FileTable} {since : Fd → ℕ} {i j : Fd} {o : FileObject} {r fd : Word}

lemma FileObject.Marked.rtcOpen_iff (h : o.Marked) :
    o.RtcOpen ↔ o.inode = -1#32 ∧ o.flag = 1#32 := by
  rcases h.flag with hflag | hflag
  · simp [RtcOpen, hflag]
  · rw [h.rtc hflag]
    simp [RtcOpen, hflag]

lemma closeObject_marked : closeObject.Marked := ⟨Or.inl rfl, fun h => absurd h (by decide)⟩

lemma typeTable_rtc {type : Word} : typeTable type = some rtcTable ↔ type = rtcType := by
  constructor
  · intro h
    rw [typeTable] at h
    split_ifs at h with hrtc hdir hfile
    · exact hrtc
    · exact absurd h (by decide)
    · exact absurd h (by decide)
  · rintro rfl
    rfl

lemma openObject_marked {d : Dentry} (htype : ¬ (d.fileType.slt rtcType ∨ fileType.slt d.fileType))
    (hinode : d.inodeId.slt 0#32 = false) : (openObject d).Marked := by
  obtain ⟨htable, hmark⟩ := openObject_openOn htype hinode
  refine ⟨Or.inr rfl, fun _ => ?_⟩
  rw [hmark, ← typeTable_rtc, htable, Option.some.injEq]

namespace RtcOk

lemma createTable (since : Fd → ℕ) : RtcOk createTable since := by
  have hmarked : ∀ i, ((Osgods.createTable i).flag = 0#32 ∨ (Osgods.createTable i).flag = 1#32) ∧
      (Osgods.createTable i).inode ≠ -1#32 ∧ (Osgods.createTable i).fileOpTb ≠ rtcTable := by
    decide
  refine ⟨fun i => ⟨(hmarked i).1, fun _ => ?_⟩, fun i hopen => ?_⟩
  · exact iff_of_false (hmarked i).2.1 (hmarked i).2.2
  · exact absurd hopen.2 (hmarked i).2.2

/-- One descriptor is replaced, with its count. -/
lemma update (h : RtcOk t since) {n : ℕ} (ho : o.Marked)
    (hcount : o.RtcOpen → o.filePosition = BitVec.ofNat 32 n) :
    RtcOk (Function.update t i o) (Function.update since i n) := by
  refine ⟨fun j => ?_, fun j hopen => ?_⟩
  · by_cases hji : j = i
    · subst hji
      rwa [Function.update_self]
    · rw [Function.update_of_ne hji]
      exact h.marked j
  · by_cases hji : j = i
    · subst hji
      rw [Function.update_self] at hopen ⊢
      rw [Function.update_self]
      exact hcount hopen
    · rw [Function.update_of_ne hji] at hopen ⊢
      rw [Function.update_of_ne hji]
      exact h.counts j hopen

lemma openCall (h : RtcOk t since) {img : Image} (himg : img.InodesNonneg)
    {filename : Option (List Byte)} (hcall : openCall img filename t = (r, t')) :
    RtcOk t' (restart since (fdOf r)) := by
  rcases openCall_cases hcall with ⟨rfl, rfl⟩ | ⟨i, fname, d, -, -, hd, htype, rfl, rfl⟩
  · rw [fdOf_neg_one]
    exact h
  · rw [fdOf_ofNat]
    obtain ⟨k, hk, rfl⟩ := readDentryByName_eq_some hd
    exact h.update (openObject_marked htype (himg k hk)) fun _ => rfl

lemma closeCall (h : RtcOk t since) (hcall : closeCall fd t = (r, t')) : RtcOk t' since := by
  rcases closeCall_cases hcall with ⟨-, rfl, -⟩ | ⟨i, -, -, -, -, rfl⟩
  · exact h
  · have hclosed : ¬ closeObject.RtcOpen := fun hopen => hopen.1 rfl
    have hupdate := h.update (i := i) (n := since i) closeObject_marked
      fun hopen => absurd hopen hclosed
    rwa [Function.update_eq_self] at hupdate

/-- A read that comes to `rtc_read` leaves a count of 0, and one that fails leaves the table. -/
lemma readCall {E : FileEnv} {keys : KeyBuffer} {buf nbytes : Word} {τ τ' : Task}
    (h : RtcOk τ.table since) (hrtc : OnRtc τ.table fd)
    (hcall : readCall E keys fd buf nbytes τ = some (r, τ')) :
    RtcOk τ'.table (restart since (if r = 0#32 then fdOf fd else none)) := by
  rcases readCall_cases hcall with ⟨rfl, rfl⟩ | ⟨i, hfd, -, -, hflag, hcall⟩
  · rw [if_neg (by decide)]
    exact h
  · rw [callRead, hrtc i hfd hflag] at hcall
    by_cases hwait : (τ.table i).filePosition = 0#32
    · simp only [rtcRead, if_pos hwait] at hcall
      cases hcall
    · simp only [rtcRead, if_neg hwait] at hcall
      cases hcall
      rw [if_pos rfl, hfd, setPosition_table]
      have hmarked := h.marked i
      exact h.update ⟨hmarked.flag, hmarked.rtc⟩ fun _ => rfl

/-- The handler changes positions only. -/
lemma rtcTick_apply (h : RtcOk t since) (i : Fd) :
    rtcTick t i = t i ∨ (t i).RtcOpen ∧
      rtcTick t i = { t i with filePosition := (t i).filePosition + 1#32 } := by
  rcases rtcTick_cases t with heq | ⟨k, hinode, hflag, heq⟩
  · rw [heq]
    exact Or.inl rfl
  · rw [heq]
    by_cases hik : i = k
    · subst hik
      rw [Function.update_self]
      exact Or.inr ⟨(h.marked i).rtcOpen_iff.mpr ⟨hinode, hflag⟩, rfl⟩
    · rw [Function.update_of_ne hik]
      exact Or.inl rfl

lemma rtcOpen_rtcTick (h : RtcOk t since) : (rtcTick t i).RtcOpen ↔ (t i).RtcOpen := by
  rcases h.rtcTick_apply i with heq | ⟨-, heq⟩
  · rw [heq]
  · rw [heq]
    rfl

/-- The only RTC descriptor of a table is the one that the handler finds. -/
lemma rtcTick_one (h : RtcOk t since) (hopen : (t i).RtcOpen)
    (hone : ∀ j, (t j).RtcOpen → j = i) :
    rtcTick t i = { t i with filePosition := (t i).filePosition + 1#32 } := by
  have hi := (h.marked i).rtcOpen_iff.mp hopen
  cases hfind : (List.finRange 8).find? fun fd => (t fd).inode = -1#32 ∧ (t fd).flag = 1#32 with
  | none =>
    have hnot := List.find?_eq_none.mp hfind i (List.mem_finRange i)
    exact absurd (decide_eq_true hi) hnot
  | some k =>
    have hk := List.find?_some hfind
    rw [decide_eq_true_eq] at hk
    obtain rfl := hone k ((h.marked k).rtcOpen_iff.mpr hk)
    rw [rtcTick, hfind]
    simp only [Function.update_self]

/-- An interrupt counts on every RTC descriptor if there is one at most. -/
lemma rtcTick (h : RtcOk t since) (hone : ∀ i j, (t i).RtcOpen → (t j).RtcOpen → i = j) :
    RtcOk (rtcTick t) (fun i => since i + 1) := by
  refine ⟨fun i => ?_, fun i hopen => ?_⟩
  · rcases h.rtcTick_apply i with heq | ⟨-, heq⟩
    · rw [heq]
      exact h.marked i
    · rw [heq]
      exact ⟨(h.marked i).flag, (h.marked i).rtc⟩
  · have hopen' := h.rtcOpen_rtcTick.mp hopen
    rw [h.rtcTick_one hopen' fun j hj => hone j i hj hopen']
    show (t i).filePosition + 1#32 = _
    rw [h.counts i hopen', BitVec.ofNat_add]

end RtcOk

/-- Of two RTC descriptors, one is not counted on. -/
lemma exists_uncounted (hne : i ≠ j) (hi : (t i).RtcOpen)
    (hj : (t j).RtcOpen) : ∃ k, (t k).RtcOpen ∧ rtcTick t k = t k := by
  rcases rtcTick_cases t with heq | ⟨k, -, -, heq⟩
  · exact ⟨i, hi, by rw [heq]⟩
  · rw [heq]
    by_cases hik : i = k
    · subst hik
      exact ⟨j, hj, Function.update_of_ne hne.symm _ _⟩
    · exact ⟨i, hi, Function.update_of_ne hik _ _⟩

end

/-! ### The system -/

/-- All active processes have counted right. -/
def RtcState.Ok (s : RtcState) : Prop := ∀ p, s.Active p → RtcOk (s.table p) (s.since p)

section

variable {env : Env} {s s' : RtcState} {c p : Slot} {t : FileTable} {started : Option Fd}
  {k : Kernel}

namespace RtcState

lemma Ok.counts (h : s.Ok) : s.Counts := fun p hp i hopen => (h p hp).counts i hopen

/-- A call replaces the table of its process. -/
lemma Ok.afterCall (h : s.Ok)
    (ht : RtcOk (s.table c) (s.since c) → RtcOk t (restart (s.since c) started)) :
    (s.afterCall c t started).Ok := by
  intro p hp
  have hsince : (s.afterCall c t started).since =
      Function.update s.since c (restart (s.since c) started) := rfl
  by_cases hpc : p = c
  · subst hpc
    have hactive : s.Active p := by
      simpa [Active, RtcState.afterCall, Kernel.setTable, Pcb.Active] using hp
    have htable : (s.afterCall p t started).table p = t := by
      simp [table, RtcState.afterCall, Kernel.setTable]
    rw [htable, hsince, Function.update_self]
    exact ht (h p hactive)
  · have hpcb : (s.afterCall c t started).system.kernel.pcbs p = s.system.kernel.pcbs p :=
      Function.update_of_ne hpc _ _
    rw [Active, hpcb] at hp
    rw [table, hpcb, hsince, Function.update_of_ne hpc]
    exact h p hp

/-- A step of the whole system starts a process with no RTC descriptor, or leaves the tables. -/
lemma Ok.whole {a : Action} {system : System} (h : s.Ok)
    (hstep : s.system.step env a = some system) : RtcState.Ok ⟨system, s.since⟩ := by
  intro p hp
  rcases System.step_tables hstep p hp with ⟨hactive, htable⟩ | htable
  · have hok := h p hactive
    rw [RtcState.table, ← htable] at hok
    exact hok
  · rw [RtcState.table, htable]
    exact .createTable _

end RtcState

namespace Kernel

lemma rtcIntrHandler_active (p : Slot) :
    (k.rtcIntrHandler.pcbs p).Active ↔ (k.pcbs p).Active := by
  show (if _ then _ else _ : Pcb).Active ↔ _
  split_ifs <;> rfl

/-- The handler counts on the table of an active process. -/
lemma rtcIntrHandler_table (h : (k.pcbs p).Active) :
    k.rtcIntrHandler.pcbs p =
      { k.pcbs p with fileDescriptor := rtcTick (k.pcbs p).fileDescriptor } := if_neg h

end Kernel

lemma RtcState.Ok.interrupt (h : s.Ok) (hone : OneRtc s .interrupt)
    (hstep : rtcStep env s .interrupt = some s') : s'.Ok := by
  cases hstep
  intro p hp
  have hactive : s.Active p := Kernel.rtcIntrHandler_active p |>.mp hp
  rw [RtcState.table, Kernel.rtcIntrHandler_table hactive]
  exact (h p hactive).rtcTick (hone p hactive)

/-- One step keeps the counts right, if it is none of an interrupt that finds two RTC descriptors
in one table. -/
lemma RtcState.Ok.step (himg : env.img.InodesNonneg) (h : s.Ok) {a : RtcAction}
    (hstep : rtcStep env s a = some s') (hone : OneRtc s a) : s'.Ok := by
  cases a with
  | whole a =>
    obtain ⟨system, hsystem, rfl⟩ := Option.map_eq_some_iff.mp hstep
    exact h.whole hsystem
  | «open» filename =>
    obtain ⟨c, -, rfl⟩ := Option.map_eq_some_iff.mp hstep
    exact h.afterCall fun hc => hc.openCall himg rfl
  | close fd =>
    obtain ⟨c, -, rfl⟩ := Option.map_eq_some_iff.mp hstep
    exact h.afterCall fun hc => hc.closeCall rfl
  | read fd buf nbytes keys mem =>
    obtain ⟨c, -, hcall⟩ := Option.bind_eq_some_iff.mp hstep
    split_ifs at hcall with hrtc
    obtain ⟨⟨r, τ⟩, hread, rfl⟩ := Option.map_eq_some_iff.mp hcall
    exact h.afterCall fun hc => hc.readCall hrtc hread
  | interrupt => exact h.interrupt hone hstep

/-- Exactly the interrupts that find two RTC descriptors in one table spoil the counts. -/
lemma RtcState.Ok.counts_iff (himg : env.img.InodesNonneg) (h : s.Ok) {a : RtcAction}
    (hstep : rtcStep env s a = some s') : s'.Counts ↔ OneRtc s a := by
  refine ⟨fun hcounts => ?_, fun hone => (h.step himg hstep hone).counts⟩
  cases a with
  | interrupt =>
    cases hstep
    intro p hp i j hi hj
    by_contra hne
    obtain ⟨x, hopen, hsame⟩ := exists_uncounted hne hi hj
    have htable : RtcState.table ⟨⟨s.system.kernel.rtcIntrHandler, s.system.running⟩,
        fun p i => s.since p i + 1⟩ p x = s.table p x := by
      rw [RtcState.table, Kernel.rtcIntrHandler_table hp]
      exact hsame
    have hactive := (Kernel.rtcIntrHandler_active p).mpr hp
    have hcount := hcounts p hactive x (by rw [htable]; exact hopen)
    rw [htable, (h p hp).counts x hopen, BitVec.ofNat_add] at hcount
    exact absurd hcount (by simp)
  | whole a => trivial
  | «open» filename => trivial
  | close fd => trivial
  | read fd buf nbytes keys mem => trivial

/-- A read of an RTC descriptor goes on once there has been an interrupt. -/
lemma RtcState.Ok.read_isSome (h : s.Ok) {i : Fd} {buf nbytes : Word} {keys : KeyBuffer}
    {mem : Word → Byte} (hc : s.system.kernel.currPcb = some c) (hactive : s.Active c)
    (hopen : (s.table c i).RtcOpen) (hbuf : buf ≠ 0#32) (hn : nbytes.slt 0#32 = false) :
    (rtcStep env s (.read (BitVec.ofNat 32 i) buf nbytes keys mem)).isSome ↔
      s.since c i % 2 ^ 32 ≠ 0 := by
  have hrtc : OnRtc (s.table c) (BitVec.ofNat 32 i) := by
    intro j hj _
    rw [fdOf_ofNat, Option.some.injEq] at hj
    rw [← hj, hopen.2]
    rfl
  have hread : (s.table c i).fileOpTb.readFn = .rtcRead := by
    rw [hopen.2]
    rfl
  have hzero : (s.table c i).filePosition = 0#32 ↔ s.since c i % 2 ^ 32 = 0 := by
    rw [(h c hactive).counts i hopen, ← BitVec.toNat_inj, BitVec.toNat_ofNat, BitVec.toNat_ofNat,
      Nat.zero_mod]
  have hcall : readCall (s.system.kernel.fileEnv env c) keys (BitVec.ofNat 32 i) buf nbytes
      ⟨s.table c, mem⟩ = callRead (s.system.kernel.fileEnv env c) keys i buf nbytes
        ⟨s.table c, mem⟩ := readCall_of_open (fdOf_ofNat i) hbuf hn hopen.1
  simp only [rtcStep, hc, Option.bind_some, if_pos hrtc, Option.isSome_map, hcall, callRead, hread,
    rtcRead, hzero]
  split_ifs with hwait
  · exact iff_of_false (by simp) (not_not.mpr hwait)
  · exact iff_of_true rfl hwait

/-- An interrupt changes nothing of a PCB but the positions of RTC descriptors. -/
lemma RtcState.Ok.interrupt_frame (h : s.Ok) (p : Slot) :
    ∃ pos : Fd → Word, s.system.kernel.rtcIntrHandler.pcbs p =
        { s.system.kernel.pcbs p with
          fileDescriptor := fun i => { s.table p i with filePosition := pos i } } ∧
      ∀ i, pos i ≠ (s.table p i).filePosition → s.Active p ∧ (s.table p i).RtcOpen := by
  by_cases hp : s.Active p
  · refine ⟨fun i => (rtcTick (s.table p) i).filePosition, ?_, fun i hne => ⟨hp, ?_⟩⟩
    · rw [Kernel.rtcIntrHandler_table hp]
      have htable : rtcTick (s.table p) =
          fun i => { s.table p i with filePosition := (rtcTick (s.table p) i).filePosition } := by
        funext i
        rcases (h p hp).rtcTick_apply i with heq | ⟨-, heq⟩
        · rw [heq]
        · rw [heq]
      exact congrArg (fun t : FileTable => { s.system.kernel.pcbs p with fileDescriptor := t })
        htable
    · rcases (h p hp).rtcTick_apply i with heq | ⟨hopen, -⟩
      · exact absurd (congrArg FileObject.filePosition heq) hne
      · exact hopen
  · exact ⟨fun i => (s.table p i).filePosition, if_pos (not_not.mp hp),
      fun i hne => absurd rfl hne⟩

/-- The first shell has no RTC descriptor. -/
lemma ok_firstShell {regs : Regs} {system : System} (since : Slot → Fd → ℕ)
    (h : firstShell env regs = some system) : RtcState.Ok ⟨system, since⟩ := by
  intro p hp
  have htables := Kernel.execute_tables env (bootKernel env.layout) regs (some shellCommand.text)
  rw [firstShell] at h
  cases hres : (bootKernel env.layout).execute env (some shellCommand.text) regs with
  | error k =>
    rw [hres] at h
    cases h
  | ok r =>
    obtain ⟨result, k⟩ := r
    rw [hres] at h htables
    cases result with
    | returned w => cases h
    | started q eip =>
      cases h
      rcases htables p hp with ⟨hactive, -⟩ | htable
      · exact absurd rfl hactive
      · rw [RtcState.table]
        show RtcOk (k.pcbs p).fileDescriptor _
        have htable : (k.pcbs p).fileDescriptor = createTable := htable
        rw [htable]
        exact .createTable _

end

/-- From the first shell on, as long as no interrupt finds two RTC descriptors in one table, each
has counted the interrupts since its `open` or its last `rtc_read`, which is what lets a read go on;
and an interrupt changes nothing else of a process. The next interrupt keeps the counts right
exactly if it meets that condition too. -/
theorem rtc_ticks (env : Env) (himg : env.img.InodesNonneg) {regs : Regs} {system : System}
    (since : Slot → Fd → ℕ) (hs₀ : firstShell env regs = some system) {as : List RtcAction}
    {s : RtcState} (hrun : Run (Guarded (Graph (rtcStep env)) OneRtc) ⟨system, since⟩ as s) :
    s.Counts ∧
    (∀ a s', rtcStep env s a = some s' → (s'.Counts ↔ OneRtc s a)) ∧
    (∀ c i buf nbytes keys mem, s.system.kernel.currPcb = some c → s.Active c →
      (s.table c i).RtcOpen → buf ≠ 0#32 → nbytes.slt 0#32 = false →
        ((rtcStep env s (.read (BitVec.ofNat 32 i) buf nbytes keys mem)).isSome ↔
          s.since c i % 2 ^ 32 ≠ 0)) ∧
    ∀ p, ∃ pos : Fd → Word, s.system.kernel.rtcIntrHandler.pcbs p =
        { s.system.kernel.pcbs p with
          fileDescriptor := fun i => { s.table p i with filePosition := pos i } } ∧
      ∀ i, pos i ≠ (s.table p i).filePosition → s.Active p ∧ (s.table p i).RtcOpen := by
  have hs : s.Ok := hrun.invariant (I := RtcState.Ok)
    (fun _ _ _ h hstep => h.step himg hstep.1 hstep.2) (ok_firstShell since hs₀)
  exact ⟨hs.counts, fun a s' => hs.counts_iff himg,
    fun c i buf nbytes keys mem hc hactive hopen hbuf hn => hs.read_isSome hc hactive hopen hbuf hn,
    hs.interrupt_frame⟩

/-- The first shell opens the RTC, waits for an interrupt, reads and is interrupted again. -/
theorem rtc_ticks_small : ∃ s : RtcState, (s.table 0 2).RtcOpen ∧ s.since 0 2 = 1 ∧ s.Counts := by
  have has : ((firstShell smallKernel ⟨0#32, 0#32⟩).bind fun system =>
      runFrom (guardedStep (rtcStep smallKernel) fun s a => OneRtc s a) ⟨system, fun _ _ => 0⟩
        [.open (some rtcName), .interrupt, .interrupt,
          .read 2 0x8000000 4 ⟨fun _ => 0#8, 0⟩ fun _ => 0#8, .interrupt]).any
            (fun s => (s.table 0 2).RtcOpen ∧ s.since 0 2 = 1) = true := by
    decide
  obtain ⟨system, s, hsystem, hrun, hs⟩ := exists_guarded_run_of_any has
  obtain ⟨hopen, hsince⟩ := of_decide_eq_true hs
  exact ⟨s, hopen, hsince, (rtc_ticks smallKernel smallImage_inodesNonneg _ hsystem hrun).1⟩

/-- The first shell opens the RTC twice, and is interrupted: the second descriptor has not counted.
-/
theorem not_rtc_ticks_twice : ¬ ∀ (regs : Regs) (system : System) (since : Slot → Fd → ℕ)
    (as : List RtcAction) (s : RtcState), firstShell smallKernel regs = some system →
      Run (Graph (rtcStep smallKernel)) ⟨system, since⟩ as s → s.Counts := by
  intro hall
  have has : ((firstShell smallKernel ⟨0#32, 0#32⟩).bind fun system =>
      runFrom (guardedStep (rtcStep smallKernel) fun _ _ => True) ⟨system, fun _ _ => 0⟩
        [.open (some rtcName), .open (some rtcName), .interrupt]).any
          (fun s => s.Active 0 ∧ (s.table 0 3).RtcOpen ∧ s.since 0 3 = 1 ∧
            (s.table 0 3).filePosition = 0#32) = true := by
    decide
  obtain ⟨system, s, hsystem, hrun, hs⟩ := exists_guarded_run_of_any (P := fun _ _ => True) has
  obtain ⟨hactive, hopen, hsince, hposition⟩ := of_decide_eq_true hs
  have hcount := hall _ system _ _ s hsystem hrun.of_guarded 0 hactive 3 hopen
  rw [hposition, hsince] at hcount
  exact absurd hcount (by decide)

end Osgods
