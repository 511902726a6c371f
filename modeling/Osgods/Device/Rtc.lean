import Mathlib.Tactic.FinCases
import Mathlib.Tactic.IntervalCases
import Osgods.Device.I8259
import Osgods.Syscall.Basic

/-!
# The real time clock (`rtc.c`)

The clock's registers lie behind an index port and a data port, so that a call that sets the rate
is two `outb`s. System calls run with interrupts on: between the two another process may be
scheduled, or `rtc_intr_handler` may run, which moves the index to register C. `RtcMachine` is the
clock, its line at the interrupt controllers, the handler, and any number of processes each between
its two `outb`s.
-/

namespace Osgods

open Pic Transition

/-! ### The clock -/

/-- The byte last sent to the index port, and the registers. -/
structure Cmos where
  index     : Byte
  registers : BitVec 7 → Byte

def statusRegA : BitVec 7 := 0x0A
def statusRegB : BitVec 7 := 0x0B
def statusRegC : BitVec 7 := 0x0C
def statusRegD : BitVec 7 := 0x0D

namespace Cmos

def selected (c : Cmos) : BitVec 7 := c.index.setWidth 7

/-- `outb(data, RTC_REG_PORT)`; the high bit is the one that turns NMIs off. -/
def outbIndex (data : Byte) (c : Cmos) : Cmos := { c with index := data }

/-- `outb(data, CMOS_PORT)`. The high bit of register A and the registers C and D can only be
read. -/
def outbData (data : Byte) (c : Cmos) : Cmos :=
  let r := c.selected
  if r = statusRegC ∨ r = statusRegD then c
  else if r = statusRegA then
    { c with
      registers := Function.update c.registers r (c.registers r &&& 0x80 ||| data &&& 0x7F) }
  else { c with registers := Function.update c.registers r data }

/-- `inb(CMOS_PORT)`. Reading register C clears it. -/
def inbData (c : Cmos) : Byte × Cmos :=
  let r := c.selected
  (c.registers r,
    if r = statusRegC then { c with registers := Function.update c.registers r 0 } else c)

/-- The end of a period is marked in register C. -/
def period (c : Cmos) : Cmos :=
  { c with
    registers := Function.update c.registers statusRegC (c.registers statusRegC ||| 0x40) }

/-- The clock's interrupt output: the end of a period has been marked, and register B asks for
it. -/
def output (c : Cmos) : Bool :=
  (c.registers statusRegC).getLsbD 6 && (c.registers statusRegB).getLsbD 6

/-- The rate that register A selects. -/
def rate (c : Cmos) : Byte := c.registers statusRegA &&& 0x0F

variable {c : Cmos} {r : BitVec 7} {d : Byte}

@[simp] lemma selected_outbIndex : (c.outbIndex d).selected = d.setWidth 7 := rfl
@[simp] lemma registers_outbIndex : (c.outbIndex d).registers = c.registers := rfl

lemma registers_period (h : r ≠ statusRegC) : c.period.registers r = c.registers r := by
  simp [period, h]

lemma registers_inbData (h : r ≠ statusRegC) : c.inbData.2.registers r = c.registers r := by
  by_cases hc : c.selected = statusRegC <;> simp [inbData, hc, h]

lemma selected_inbData : c.inbData.2.selected = c.selected := by
  simp only [inbData]
  split_ifs <;> rfl

lemma selected_outbData : (c.outbData d).selected = c.selected := by
  simp only [outbData]
  split_ifs <;> rfl

/-- A read of register C takes the output back. -/
lemma output_inbData (h : c.selected = statusRegC) : c.inbData.2.output = false := by
  simp [inbData, output, h]

lemma outbData_of_statusRegC (h : c.selected = statusRegC) : c.outbData d = c := by
  simp [outbData, h]

lemma registers_outbData (h : c.selected = statusRegA) (hr : r ≠ statusRegA) :
    (c.outbData d).registers r = c.registers r := by
  have hc : statusRegA ≠ statusRegC := by decide
  have hd : statusRegA ≠ statusRegD := by decide
  simp [outbData, h, hc, hd, hr]

/-- A rate sent to register A is the one selected. -/
lemma rate_outbData (h : c.selected = statusRegA) (hd : d ≤ 15#8) : (c.outbData d).rate = d := by
  have hc : statusRegA ≠ statusRegC := by decide
  have hregD : statusRegA ≠ statusRegD := by decide
  have hlow : ∀ n : Fin 16, (BitVec.ofNat 8 n &&& 0x7F#8) &&& 0x0F#8 = BitVec.ofNat 8 n := by
    decide
  have hd' : (d &&& 0x7F#8) &&& 0x0F#8 = d := by
    simpa using hlow ⟨d.toNat, by have := BitVec.le_def.mp hd; simp at this; omega⟩
  have hhigh (x : Byte) : (x &&& 0x80#8 ||| d &&& 0x7F#8) &&& 0x0F#8 =
      (d &&& 0x7F#8) &&& 0x0F#8 := by
    apply BitVec.eq_of_getLsbD_eq
    intro i hi
    interval_cases i <;> simp
  simp only [rate, outbData, h, hc, hregD, or_self, if_false, if_true, Function.update_self]
  exact (hhigh _).trans hd'

end Cmos

/-! ### The driver -/

/-- The checks of `rtc_write`. -/
def rtcAccepts (rtcFrequency : Word) : Bool :=
  !rtcFrequency.slt 2#32 && !(1024#32).slt rtcFrequency &&
    (rtcFrequency &&& (rtcFrequency - 1#32) == 0#32)

/-- The loop of `rtc_write` that finds the rate; `rate` is not initialised. -/
def rtcRate (rate : Byte) (rtcFrequency : Word) : Byte :=
  (List.range 15).foldl (fun rate i =>
    if rtcFrequency <<< i = 32768#32 then BitVec.ofNat 8 (i + 1) else rate) rate &&& 0x0F

/-- The frequency of a rate. -/
def rateFrequency (rate : Byte) : Word := 32768#32 >>> (rate - 1#8).toNat

/-- `init_rtc` at the ports of the clock. -/
def Cmos.initRtc (c : Cmos) : Cmos :=
  let c := c.outbIndex 0x8B
  let (prev, c) := c.inbData
  let c := c.outbIndex 0x8B
  let c := c.outbData (prev ||| 0x40)
  let c := c.outbIndex 0x8A
  c.outbData 0x0F

lemma initRtc_eq (c : Cmos) : c.initRtc =
    ⟨0x8A, Function.update
      (Function.update c.registers statusRegB (c.registers statusRegB ||| 0x40))
      statusRegA (c.registers statusRegA &&& 0x80 ||| 0x0F &&& 0x7F)⟩ := by
  have hA : (0x8A#8).setWidth 7 = statusRegA := by decide
  have hB : (0x8B#8).setWidth 7 = statusRegB := by decide
  have hBC : statusRegB ≠ statusRegC := by decide
  have hBD : statusRegB ≠ statusRegD := by decide
  have hBA : statusRegB ≠ statusRegA := by decide
  have hAC : statusRegA ≠ statusRegC := by decide
  have hAD : statusRegA ≠ statusRegD := by decide
  simp only [Cmos.initRtc, Cmos.outbIndex, Cmos.inbData, Cmos.outbData, Cmos.selected,
    BitVec.ofNat_eq_ofNat, hA, hB, hBC, hBD, hBA, hAC, hAD, or_self, if_false, if_true,
    Function.update_of_ne hBA.symm]

/-- The frequencies that pass the checks. -/
lemma eq_two_pow_of_rtcAccepts {f : Word} (h : rtcAccepts f) :
    ∃ k : Fin 11, 1 ≤ k ∧ f = 1#32 <<< k.val := by
  have hsmall : ∀ n : Fin 1025, rtcAccepts (BitVec.ofNat 32 n) →
      ∃ k : Fin 11, 1 ≤ k ∧ BitVec.ofNat 32 n = 1#32 <<< k.val := by
    decide +kernel
  have hbound : f.toNat < 1025 := by
    have hrange := h
    simp only [rtcAccepts, Bool.and_eq_true, Bool.not_eq_true', BitVec.slt_eq_decide,
      decide_eq_false_iff_not, BitVec.toInt_eq_toNat_cond, BitVec.toNat_ofNat] at hrange
    have hlt := f.isLt
    omega
  obtain ⟨k, hk, hf⟩ := hsmall ⟨f.toNat, hbound⟩ (by simpa using h)
  exact ⟨k, hk, by simpa using hf⟩

lemma rtcRate_two_pow (rate : Byte) (k : Fin 11) (hk : 1 ≤ k) :
    rtcRate rate (1#32 <<< k.val) = BitVec.ofNat 8 (16 - k) := by
  fin_cases k
  · cases hk
  all_goals simp [rtcRate, List.range, List.range.loop]

/-- The rate that the loop finds is that of the frequency. -/
lemma rtcRate_spec {f : Word} (h : rtcAccepts f) (rate : Byte) :
    rateFrequency (rtcRate rate f) = f ∧ 6#8 ≤ rtcRate rate f ∧ rtcRate rate f ≤ 15#8 := by
  have hrates : ∀ k : Fin 11, 1 ≤ k → rateFrequency (BitVec.ofNat 8 (16 - k)) = 1#32 <<< k.val ∧
      6#8 ≤ BitVec.ofNat 8 (16 - k) ∧ BitVec.ofNat 8 (16 - k) ≤ 15#8 := by
    decide
  obtain ⟨k, hk, rfl⟩ := eq_two_pow_of_rtcAccepts h
  rw [rtcRate_two_pow rate k hk]
  exact hrates k hk

/-! ### The clock among processes and devices -/

/-- Where `rtc_intr_handler` is: before its `outb`, before its `inb`, before its `send_eoi`.
Interrupts are off up to there. -/
inductive RtcHandler where
  | entered
  | selected
  | read
deriving DecidableEq

/-- The clock, the interrupt lines, the handler if it runs, and for each process the byte that it
has still to send. -/
structure RtcMachine (ι : Type) where
  cmos    : Cmos
  lines   : Controller
  handler : Option RtcHandler
  calls   : ι → Option Byte

inductive RtcEvent (ι : Type) where
  | period
  | line (e : Controller.Event) (l : Option Line)
  | enter
  | selectC
  | readC
  | eoi
  | openRate (p : ι)
  | writeRate (p : ι) (rtcFrequency : Word)
  | send (p : ι)
deriving DecidableEq

/-- The line of the clock. -/
def rtcLine : Line := .slave 0

namespace RtcMachine

variable {ι : Type}

/-- The clock changes; its line is raised when its output goes on. -/
def withCmos (c : Cmos) (s : RtcMachine ι) : RtcMachine ι :=
  { s with
    cmos  := c
    lines :=
      if s.cmos.output = false ∧ c.output = true then
        { s.lines with pending := insert rtcLine s.lines.pending }
      else s.lines }

section

variable {c : Cmos} {s : RtcMachine ι}

@[simp] lemma withCmos_cmos : (s.withCmos c).cmos = c := rfl
@[simp] lemma withCmos_handler : (s.withCmos c).handler = s.handler := rfl
@[simp] lemma withCmos_calls : (s.withCmos c).calls = s.calls := rfl

@[simp] lemma withCmos_inService : (s.withCmos c).lines.inService = s.lines.inService := by
  unfold withCmos
  split_ifs <;> rfl

/-- What was pending stays so. -/
lemma mem_pending_withCmos {l : Line} (h : l ∈ s.lines.pending) :
    l ∈ (s.withCmos c).lines.pending := by
  unfold withCmos
  split_ifs
  · exact .inr h
  · exact h

/-- An output that is on was on before, or has just raised the line. -/
lemma output_withCmos (h : c.output = true) :
    s.cmos.output = true ∨ rtcLine ∈ (s.withCmos c).lines.pending := by
  unfold withCmos
  cases hold : s.cmos.output with
  | true => exact .inl rfl
  | false => exact .inr (by simp [h])

end

variable [DecidableEq ι]

/-- The first `outb` of a call that is going to send `rate`. -/
def choose (p : ι) (rate : Byte) (s : RtcMachine ι) : RtcMachine ι :=
  { s with cmos := s.cmos.outbIndex 0x8A, calls := Function.update s.calls p (some rate) }

/-- A step of the clock, of another device or handler, of `rtc_intr_handler`, or of a process that
sets the rate. While the handler has interrupts off, only devices go on. -/
inductive Step : RtcMachine ι → RtcEvent ι → RtcMachine ι → Prop where
  | period (s : RtcMachine ι) : Step s .period (s.withCmos s.cmos.period)
  | line (s : RtcMachine ι) (e : Controller.Event) (l : Option Line) (lines : Controller)
      (h : Controller.Step 2 s.lines e l lines) (hl : l ≠ some rtcLine)
      (he : e ≠ .request rtcLine ∧ e ≠ .finish rtcLine)
      (hoff : s.handler = none ∨ ∃ l', e = .request l') :
      Step s (.line e l) { s with lines := lines }
  | enter (s : RtcMachine ι) (h : s.handler = none) (ha : s.lines.Accepts 2 rtcLine) :
      Step s .enter { s with handler := some .entered, lines := s.lines.accept rtcLine }
  | selectC (s : RtcMachine ι) (h : s.handler = some .entered) :
      Step s .selectC { s with handler := some .selected, cmos := s.cmos.outbIndex 0x0C }
  | readC (s : RtcMachine ι) (h : s.handler = some .selected) :
      Step s .readC { s.withCmos s.cmos.inbData.2 with handler := some .read }
  | eoi (s : RtcMachine ι) (lines : Controller) (h : s.handler = some .read)
      (hfinish : Controller.Step 2 s.lines (.finish rtcLine) none lines) :
      Step s .eoi { s with handler := none, lines := lines }
  | openRate (s : RtcMachine ι) (p : ι) (h : s.handler = none) (hp : s.calls p = none) :
      Step s (.openRate p) (s.choose p 0x0F)
  | writeRate (s : RtcMachine ι) (p : ι) (f : Word) (rate : Byte) (h : s.handler = none)
      (hp : s.calls p = none) (hf : rtcAccepts f) :
      Step s (.writeRate p f) (s.choose p (rtcRate rate f))
  | send (s : RtcMachine ι) (p : ι) (rate : Byte) (h : s.handler = none)
      (hp : s.calls p = some rate) :
      Step s (.send p)
        { s.withCmos (s.cmos.outbData rate) with calls := Function.update s.calls p none }

abbrev Run : RtcMachine ι → List (RtcEvent ι) → RtcMachine ι → Prop := Transition.Run Step

/-- The clock as `init_rtc` leaves it, which may raise its line at once. -/
def boot (c : Cmos) (lines : Controller) : RtcMachine ι :=
  withCmos c.initRtc ⟨c, lines, none, fun _ => none⟩

/-- A rate that belongs to a frequency between 2 Hz and 1024 Hz. -/
def ValidRate (rate : Byte) : Prop := 6#8 ≤ rate ∧ rate ≤ 15#8

/-- What holds between any two steps; `c` is the clock after `init_rtc`. -/
structure Sound (c : Cmos) (s : RtcMachine ι) : Prop where
  asks      : (s.cmos.registers statusRegB).getLsbD 6 = true
  others    : ∀ r, r ≠ statusRegA → r ≠ statusRegC → s.cmos.registers r = c.registers r
  rate      : ValidRate s.cmos.rate
  calls     : ∀ p d, s.calls p = some d → ValidRate d
  index     : s.cmos.selected = statusRegA ∨ s.cmos.selected = statusRegC
  selected  : s.handler = some .selected → s.cmos.selected = statusRegC
  signalled : s.cmos.output = true →
    rtcLine ∈ s.lines.pending ∨ s.handler = some .entered ∨ s.handler = some .selected
  serving   : s.handler ≠ none → rtcLine ∈ s.lines.inService

variable {c : Cmos} {s s' : RtcMachine ι} {e : RtcEvent ι} {es : List (RtcEvent ι)}
  {p : ι} {f : Word}

namespace Sound

omit [DecidableEq ι] in
/-- A change of the clock while the handler and the calls stay. -/
lemma withCmos {c' : Cmos} (h : s.Sound c)
    (hB : c'.registers statusRegB = s.cmos.registers statusRegB)
    (hothers : ∀ r, r ≠ statusRegA → r ≠ statusRegC → c'.registers r = s.cmos.registers r)
    (hrate : ValidRate c'.rate) (hsel : c'.selected = s.cmos.selected) :
    (s.withCmos c').Sound c where
  asks := by
    rw [withCmos_cmos, hB]
    exact h.asks
  others r hA hC := (hothers r hA hC).trans (h.others r hA hC)
  rate := hrate
  calls := h.calls
  index := by
    rw [withCmos_cmos, hsel]
    exact h.index
  selected hh := hsel.trans (h.selected hh)
  signalled hout := by
    rcases output_withCmos hout with hold | hnew
    · exact (h.signalled hold).imp mem_pending_withCmos id
    · exact .inl hnew
  serving hh := by
    rw [withCmos_inService]
    exact h.serving hh

/-- The first `outb` of a call. -/
lemma choose {rate : Byte} (h : s.Sound c) (hh : s.handler = none) (hrate : ValidRate rate) :
    (s.choose p rate).Sound c where
  asks := h.asks
  others := h.others
  rate := h.rate
  calls q d hq := by
    change Function.update s.calls p (some rate) q = some d at hq
    rw [Function.update_apply] at hq
    split_ifs at hq
    · cases hq
      exact hrate
    · exact h.calls q d hq
  index := .inl (by simp only [RtcMachine.choose, Cmos.selected_outbIndex]; decide)
  selected hsel := absurd (hh.symm.trans hsel) (by simp)
  signalled := h.signalled
  serving := h.serving

/-- What one step preserves. -/
theorem step (h : s.Sound c) (hstep : Step s e s') : s'.Sound c := by
  have hAC : statusRegA ≠ statusRegC := by decide
  have hBC : statusRegB ≠ statusRegC := by decide
  cases hstep with
  | period =>
    refine h.withCmos (Cmos.registers_period hBC) (fun r _ hr => Cmos.registers_period hr) ?_ rfl
    rw [Cmos.rate, Cmos.registers_period hAC]
    exact h.rate
  | line e l lines hline hl he hoff =>
    obtain ⟨hpending, hserving⟩ := hline.of_line hl he.2
    exact ⟨h.asks, h.others, h.rate, h.calls, h.index, h.selected,
      fun hout => (h.signalled hout).imp_left hpending, fun hh => hserving (h.serving hh)⟩
  | enter hh ha =>
    exact ⟨h.asks, h.others, h.rate, h.calls, h.index, by simp, fun _ => .inr (.inl rfl),
      fun _ => .inl rfl⟩
  | selectC hh =>
    exact ⟨h.asks, h.others, h.rate, h.calls, .inr rfl, fun _ => rfl, fun _ => .inr (.inr rfl),
      fun _ => h.serving (by simp [hh])⟩
  | readC hh =>
    have hsel := h.selected hh
    have hread := h.withCmos (Cmos.registers_inbData hBC)
      (fun r _ hr => Cmos.registers_inbData hr)
      (by rw [Cmos.rate, Cmos.registers_inbData hAC]; exact h.rate) Cmos.selected_inbData
    have hoff := Cmos.output_inbData hsel
    exact ⟨hread.asks, hread.others, hread.rate, hread.calls, hread.index, by simp,
      fun hout => absurd hout (by simp [hoff]), fun _ => by
        simpa using h.serving (by simp [hh])⟩
  | eoi lines hh hfinish =>
    have hpending := hfinish.of_finish
    exact ⟨h.asks, h.others, h.rate, h.calls, h.index, by simp, fun hout => by
      simpa [hpending, hh] using h.signalled hout, by simp⟩
  | openRate p hh hp => exact h.choose hh ⟨by decide, by decide⟩
  | writeRate p f rate hh hp hf => exact h.choose hh (rtcRate_spec hf rate).2
  | send p rate hh hp =>
    have hsent : (s.withCmos (s.cmos.outbData rate)).Sound c := by
      rcases h.index with hA | hC
      · refine h.withCmos (Cmos.registers_outbData hA (by decide))
          (fun r hr _ => Cmos.registers_outbData hA hr) ?_ Cmos.selected_outbData
        rw [Cmos.rate_outbData hA (h.calls p rate hp).2]
        exact h.calls p rate hp
      · rw [Cmos.outbData_of_statusRegC hC]
        exact h.withCmos rfl (fun r _ _ => rfl) h.rate rfl
    refine ⟨hsent.asks, hsent.others, hsent.rate, fun q d hq => ?_, hsent.index,
      hsent.selected, hsent.signalled, hsent.serving⟩
    change Function.update s.calls p none q = some d at hq
    rw [Function.update_apply] at hq
    split_ifs at hq
    exact h.calls q d hq

omit [DecidableEq ι] in
/-- `init_rtc` establishes it, if nothing was on the clock's output before. -/
lemma boot {lines : Controller} (hoff : c.output = false) :
    (RtcMachine.boot c lines : RtcMachine ι).Sound c.initRtc where
  asks := by
    have hBA : statusRegB ≠ statusRegA := by decide
    simp [RtcMachine.boot, initRtc_eq, hBA]
  others _ _ _ := rfl
  rate := by
    have hlow (x : Byte) : (x &&& 0x80#8 ||| 0x0F#8 &&& 0x7F#8) &&& 0x0F#8 = 0x0F#8 := by
      apply BitVec.eq_of_getLsbD_eq
      intro i hi
      interval_cases i <;> simp
    have hrate : (RtcMachine.boot c lines : RtcMachine ι).cmos.rate = 0x0F#8 := by
      simp only [RtcMachine.boot, withCmos_cmos, initRtc_eq, Cmos.rate, Function.update_self]
      exact hlow _
    rw [hrate]
    exact ⟨by decide, by decide⟩
  calls p d hd := absurd hd (by simp [RtcMachine.boot])
  index := .inl (by
    rw [RtcMachine.boot, withCmos_cmos, initRtc_eq]
    exact (by decide : (0x8A#8).setWidth 7 = statusRegA))
  selected hh := absurd hh (by simp [RtcMachine.boot])
  signalled hout := by
    rcases output_withCmos (s := ⟨c, lines, none, fun _ : ι => none⟩) hout with hold | hnew
    · exact absurd hold (by simp [hoff])
    · exact .inl hnew
  serving hh := absurd rfl hh

end Sound

/-- Whatever the processes and the devices do, register A holds the rate of a frequency between
2 Hz and 1024 Hz, register B keeps asking for interrupts, no other register changes, and the clock
does not fall silent: while its output is on, its line is pending or the handler is about to read
register C. -/
theorem rtc_safe {lines : Controller} (hoff : c.output = false)
    (hrun : Run (boot c lines) es s) :
    ValidRate s.cmos.rate ∧ (s.cmos.registers statusRegB).getLsbD 6 = true ∧
      (∀ r, r ≠ statusRegA → r ≠ statusRegC →
        s.cmos.registers r = c.initRtc.registers r) ∧
      (s.cmos.output = true → rtcLine ∈ s.lines.pending ∨ s.handler = some .entered ∨
        s.handler = some .selected) := by
  have hsound : s.Sound c.initRtc :=
    Transition.Run.invariant (fun _ _ _ h hstep => h.step hstep) hrun (Sound.boot hoff)
  exact ⟨hsound.rate, hsound.asks, hsound.others, hsound.signalled⟩

/-! ### What becomes of a rate -/

end RtcMachine

/-- The register that an event selects. -/
def RtcEvent.selects {ι : Type} : RtcEvent ι → Option (BitVec 7)
  | .openRate _    => some statusRegA
  | .writeRate _ _ => some statusRegA
  | .selectC       => some statusRegC
  | _              => none

/-- The register selected last, if `r` was before. -/
def lastSelected {ι : Type} (r : BitVec 7) (es : List (RtcEvent ι)) : BitVec 7 :=
  es.foldl (fun r e => e.selects.getD r) r

lemma lastSelected_cases {ι : Type} {es : List (RtcEvent ι)} {r : BitVec 7}
    (hr : r = statusRegA ∨ r = statusRegC) :
    lastSelected r es = statusRegA ∨ lastSelected r es = statusRegC := by
  induction es generalizing r with
  | nil => exact hr
  | cons e es ih =>
    refine ih ?_
    cases e with
    | openRate | writeRate => exact .inl rfl
    | selectC => exact .inr rfl
    | period | line | enter | readC | eoi | send => exact hr

namespace RtcMachine

variable {ι : Type} [DecidableEq ι] {s s' : RtcMachine ι} {e : RtcEvent ι}
  {es : List (RtcEvent ι)} {p : ι} {f : Word}

lemma Step.selected (h : Step s e s') : s'.cmos.selected = e.selects.getD s.cmos.selected := by
  cases h with
  | openRate | writeRate => exact (by decide : (0x8A#8).setWidth 7 = statusRegA)
  | selectC => exact (by decide : (0x0C#8).setWidth 7 = statusRegC)
  | readC => exact Cmos.selected_inbData
  | send => exact Cmos.selected_outbData
  | period | line | enter | eoi => rfl

lemma Run.selected (h : Run s es s') : s'.cmos.selected = lastSelected s.cmos.selected es := by
  induction h with
  | refl => rfl
  | cons hstep _ ih => rw [ih, hstep.selected, lastSelected, lastSelected, List.foldl_cons]

/-- A process that has still to send its byte keeps it until it sends. -/
lemma Step.calls {d : Byte} (h : Step s e s') (hd : s.calls p = some d) (he : e ≠ .send p) :
    s'.calls p = some d := by
  cases h with
  | openRate q hh hq | writeRate q f rate hh hq hf =>
    have hne : p ≠ q := by
      rintro rfl
      rw [hq] at hd
      cases hd
    exact (Function.update_of_ne hne _ _).trans hd
  | send q rate hh hq =>
    have hne : p ≠ q := fun heq => he (by rw [heq])
    exact (Function.update_of_ne hne _ _).trans hd
  | period | line | enter | selectC | readC | eoi => exact hd

lemma Run.calls {d : Byte} (h : Run s es s') (hd : s.calls p = some d) (hes : .send p ∉ es) :
    s'.calls p = some d := by
  induction h with
  | refl => exact hd
  | cons hstep _ ih =>
    rw [List.mem_cons, not_or] at hes
    exact ih (hstep.calls hd (fun heq => hes.1 heq.symm)) hes.2

/-- `rtc_write` returns 4 in any case; the clock takes the frequency if register A is still
selected when the rate is sent, and not a bit of it if `rtc_intr_handler` has selected register C
since, with no other call after it. -/
theorem rtc_write_effect (mid : List (RtcEvent ι)) (hmid : .send p ∉ mid)
    (hrun : Run s (.writeRate p f :: (mid ++ [.send p])) s') :
    ∃ t, Run s (.writeRate p f :: mid) t ∧ Step t (.send p) s' ∧
      (lastSelected statusRegA mid = statusRegA → rateFrequency s'.cmos.rate = f) ∧
      (lastSelected statusRegA mid ≠ statusRegA → s'.cmos = t.cmos) := by
  rw [← List.cons_append] at hrun
  obtain ⟨t, hbefore, hlast⟩ := run_append.mp hrun
  obtain ⟨s₁, hfirst, hrest⟩ := run_cons.mp hbefore
  obtain ⟨s₂, hsend, hend⟩ := run_cons.mp hlast
  rw [run_nil] at hend
  subst hend
  refine ⟨t, hbefore, hsend, ?_⟩
  have hsel₁ : s₁.cmos.selected = statusRegA := hfirst.selected
  have hsel : t.cmos.selected = lastSelected statusRegA mid := by
    rw [Run.selected hrest, hsel₁]
  cases hfirst with
  | writeRate _ _ rate₀ hh hp hf =>
    obtain ⟨hfreq, -, hle⟩ := rtcRate_spec hf rate₀
    have hcall : t.calls p = some (rtcRate rate₀ f) :=
      Run.calls hrest (Function.update_self ..) hmid
    cases hsend with
    | send _ rate hh' hp' =>
      obtain rfl : rtcRate rate₀ f = rate := Option.some.inj (hcall.symm.trans hp')
      constructor
      · intro hA
        change rateFrequency (t.cmos.outbData _).rate = f
        rw [Cmos.rate_outbData (hsel.trans hA) hle, hfreq]
      · intro hA
        have hC := (lastSelected_cases (.inl rfl)).resolve_left hA
        exact Cmos.outbData_of_statusRegC (hsel.trans hC)

/-- A clock with nothing marked and no interrupts asked for. -/
def quietCmos : Cmos := ⟨0, fun _ => 0⟩

/-- A period ends and a process opens the clock. -/
theorem rtc_safe_open :
    ∃ s, Run (boot quietCmos ⟨∅, ∅, ∅⟩) [.period, .openRate (0 : Slot), .send 0] s ∧
      ValidRate s.cmos.rate := by
  have hrun : ∃ s, Run (boot quietCmos ⟨∅, ∅, ∅⟩) [.period, .openRate (0 : Slot), .send 0] s :=
    ⟨_, .cons (.period _) (.cons (.openRate _ _ rfl rfl)
      (.cons (.send _ _ 0x0F rfl rfl) (.refl _)))⟩
  obtain ⟨s, hrun⟩ := hrun
  exact ⟨s, hrun, (rtc_safe (by decide) hrun).1⟩

/-- A process sets 1024 Hz and is interrupted by the clock between its two `outb`s: its rate is
lost. -/
theorem rtc_write_effect_lost :
    ∃ t s', Run ⟨quietCmos, ⟨{.slave 0, .master 2}, {.slave 0}, ∅⟩, none, fun _ => none⟩
        [.writeRate (0 : Slot) 1024#32, .enter, .selectC, .readC, .eoi] t ∧
      Step t (.send 0) s' ∧ s'.cmos = t.cmos := by
  have hrun : ∃ s', Run ⟨quietCmos, ⟨{.slave 0, .master 2}, {.slave 0}, ∅⟩, none, fun _ => none⟩
      [.writeRate (0 : Slot) 1024#32, .enter, .selectC, .readC, .eoi, .send 0] s' :=
    ⟨_, .cons (.writeRate _ _ _ 0 rfl rfl (by decide)) (.cons (.enter _ rfl Board.accepts_rtc)
      (.cons (.selectC _ rfl) (.cons (.readC _ rfl) (.cons
        (.eoi _ _ rfl (.finish _ _ (by rw [withCmos_inService]; exact .inl rfl)))
        (.cons (.send _ _ (rtcRate 0 1024#32) rfl rfl) (.refl _))))))⟩
  obtain ⟨s', hrun⟩ := hrun
  obtain ⟨t, hbefore, hsend, -, hlost⟩ :=
    rtc_write_effect [.enter, .selectC, .readC, .eoi] (by decide) hrun
  exact ⟨t, s', hbefore, hsend, hlost (by decide)⟩

end RtcMachine

end Osgods
