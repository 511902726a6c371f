import Mathlib.Tactic.Common
import Mathlib.Data.Set.Insert
import Mathlib.Data.Fin.Tuple.Basic
import Mathlib.Order.Fin.Basic
import Osgods.Library.Transition

/-!
# Cascaded interrupt controllers

`Controller` says what a pair of cascaded priority controllers is for: a line that a device has
raised reaches the processor when it is enabled, nothing raised is before it in the order of
priorities, and nothing at its level or above it is in service.

`Chip` is the 8259A as its command words program it: the initialisation sequence that the
processor walks through with writes to the data port, the mask, the registers of requested and of
in-service lines. `Pair` is two of them, the output of the second wired to input `k` of the first.
`Pair.Sound` is what the initialisation establishes and every later operation keeps, and on a
sound pair each operation is the controller's own.
-/

namespace Pic

/-- The sixteen inputs of a pair. -/
inductive Line where
  | master (n : Fin 8)
  | slave (n : Fin 8)
deriving DecidableEq, Repr

/-- The input of the first chip through which a line reaches the processor. -/
def Line.level (k : Fin 8) : Line → Fin 8
  | .master n => n
  | .slave _ => k

def Line.index : Line → Fin 8
  | .master n => n
  | .slave n => n

/-- The order of priorities. -/
def Line.Before (k : Fin 8) (l l' : Line) : Prop :=
  l.level k < l'.level k ∨ l.level k = l'.level k ∧ l.index < l'.index

/-! ## What the pair is for -/

@[ext]
structure Controller where
  enabled : Set Line
  pending : Set Line
  inService : Set Line

namespace Controller

/-- A pending line that no mask stops on its way to the processor. -/
def Asks (k : Fin 8) (c : Controller) (l : Line) : Prop :=
  l ∈ c.pending ∧ l ∈ c.enabled ∧ .master (l.level k) ∈ c.enabled

/-- The line that the processor gets when it acknowledges. -/
structure Accepts (k : Fin 8) (c : Controller) (l : Line) : Prop where
  asks : c.Asks k l
  first : ∀ l', c.Asks k l' → ¬ l'.Before k l
  above : ∀ l' ∈ c.inService, l.level k < l'.level k

def accept (c : Controller) (l : Line) : Controller :=
  { c with pending := c.pending \ {l}, inService := insert l c.inService }

/-- What reaches the controller: the calls of its driver, the devices and the processor. -/
inductive Event where
  | enable (l : Line)
  | disable (l : Line)
  | request (l : Line)
  | acknowledge
  | finish (l : Line)
deriving DecidableEq

/-- An event that changes a mask. -/
def Event.Masks : Event → Prop
  | .enable _ => True
  | .disable _ => True
  | _ => False

/-- One event, and the line the processor gets by it. No device drives the input that carries the
second chip, and a line is finished only when it is in service. -/
inductive Step (k : Fin 8) : Controller → Event → Option Line → Controller → Prop where
  | enable (c : Controller) (l : Line) :
      Step k c (.enable l) none { c with enabled := insert l c.enabled }
  | disable (c : Controller) (l : Line) :
      Step k c (.disable l) none { c with enabled := c.enabled \ {l} }
  | request (c : Controller) (l : Line) (h : l ≠ .master k) :
      Step k c (.request l) none { c with pending := insert l c.pending }
  | accept (c : Controller) (l : Line) (h : c.Accepts k l) :
      Step k c .acknowledge (some l) (c.accept l)
  | idle (c : Controller) (h : ∀ l, ¬ c.Accepts k l) : Step k c .acknowledge none c
  | finish (c : Controller) (l : Line) (h : l ∈ c.inService) :
      Step k c (.finish l) none { c with inService := c.inService \ {l} }

/-- A run with what each of its events gave the processor. -/
abbrev Run (k : Fin 8) : Controller → List (Event × Option Line) → Controller → Prop :=
  Transition.Run fun c e c' => Step k c e.1 e.2 c'

lemma eq_of_not_before {k : Fin 8} {l l' : Line} (h : ¬ l.Before k l')
    (h' : ¬ l'.Before k l) (hl : l ≠ .master k) (hl' : l' ≠ .master k) : l = l' := by
  simp only [Line.Before, Fin.ext_iff, Fin.lt_def] at h h'
  cases l with
  | master n =>
    have hn : n.val ≠ k := fun heq => hl (by rw [Fin.ext heq])
    cases l' with
    | master n' =>
      have heq : n.val = n' := by
        simp only [Line.level, Line.index] at h h'
        omega
      rw [Fin.ext heq]
    | slave n' =>
      simp only [Line.level, Line.index] at h h'
      omega
  | slave n =>
    cases l' with
    | master n' =>
      have hn : n'.val ≠ k := fun heq => hl' (by rw [Fin.ext heq])
      simp only [Line.level, Line.index] at h h'
      omega
    | slave n' =>
      have heq : n.val = n' := by
        simp only [Line.level, Line.index, lt_irrefl, true_and, false_or] at h h'
        omega
      rw [Fin.ext heq]

/-- The processor never has a choice. -/
theorem Accepts.unique {k : Fin 8} {c : Controller} {l l' : Line} (hk : .master k ∉ c.pending)
    (h : c.Accepts k l) (h' : c.Accepts k l') : l = l' := by
  have hl : l ≠ .master k := fun heq => hk (heq ▸ h.asks.1)
  have hl' : l' ≠ .master k := fun heq => hk (heq ▸ h'.asks.1)
  exact eq_of_not_before (h'.first l h.asks) (h.first l' h'.asks) hl hl'

/-- Another line stays pending and in service. -/
lemma Step.of_line {k : Fin 8} {c c' : Controller} {e : Event} {o : Option Line} {l : Line}
    (h : Step k c e o c') (ho : o ≠ some l) (he : e ≠ .finish l) :
    (l ∈ c.pending → l ∈ c'.pending) ∧ (l ∈ c.inService → l ∈ c'.inService) := by
  cases h with
  | enable | disable | idle => exact ⟨id, id⟩
  | request l' hl' => exact ⟨.inr, id⟩
  | accept l' hl' =>
    have hne : l ≠ l' := fun heq => ho (by rw [heq])
    exact ⟨fun hmem => ⟨hmem, hne⟩, .inr⟩
  | finish l' hl' =>
    have hne : l ≠ l' := fun heq => he (by rw [heq])
    exact ⟨id, fun hmem => ⟨hmem, hne⟩⟩

/-- The end of a line leaves what is pending. -/
lemma Step.of_finish {k : Fin 8} {c c' : Controller} {o : Option Line} {l : Line}
    (h : Step k c (.finish l) o c') : c'.pending = c.pending := by
  cases h
  rfl

/-- An event that changes no mask delivers an enabled line at most, never the one that carries the
second chip. -/
lemma Step.of_not_masks {k : Fin 8} {c c' : Controller} {e : Event} {o : Option Line}
    (h : Step k c e o c') (he : ¬ e.Masks) (hk : .master k ∉ c.pending) :
    c'.enabled = c.enabled ∧ .master k ∉ c'.pending ∧
      ∀ l, o = some l → l ∈ c.enabled ∧ l ≠ .master k := by
  cases h with
  | enable l => exact absurd trivial he
  | disable l => exact absurd trivial he
  | request l hl => exact ⟨rfl, by simp [hl.symm, hk], by simp⟩
  | accept l hl =>
    refine ⟨rfl, fun hmem => hk hmem.1, fun l' hl' => ?_⟩
    cases hl'
    exact ⟨hl.asks.2.1, fun heq => hk (heq ▸ hl.asks.1)⟩
  | idle hnone => exact ⟨rfl, hk, by simp⟩
  | finish l hl => exact ⟨rfl, hk, by simp⟩

/-- A run without a change of the masks delivers enabled lines only. -/
theorem accepted_mem_enabled {k : Fin 8} {c c' : Controller}
    {es : List (Event × Option Line)} (hrun : Run k c es c') (hk : .master k ∉ c.pending)
    (hes : ∀ e ∈ es, ¬ e.1.Masks) :
    ∀ e ∈ es, ∀ l, e.2 = some l → l ∈ c.enabled ∧ l ≠ .master k := by
  induction hrun with
  | refl => simp
  | cons hstep _ ih =>
    obtain ⟨henabled, hk', hhead⟩ := hstep.of_not_masks (hes _ (List.mem_cons_self ..)) hk
    intro e he l hl
    rcases List.mem_cons.mp he with rfl | he
    · exact hhead l hl
    · rw [← henabled]
      exact ih hk' (fun e he => hes e (List.mem_cons_of_mem _ he)) e he l hl

end Controller

/-! ## The chip -/

/-- The word a chip waits for at its data port. -/
inductive Stage where
  | icw2
  | icw3
  | icw4
  | ready
deriving DecidableEq, Repr

structure Chip where
  stage : Stage
  needIcw4 : Bool
  single : Bool
  base : BitVec 8
  cascade : BitVec 8
  mode8086 : Bool
  autoEoi : Bool
  irr : BitVec 8
  imr : BitVec 8
  isr : BitVec 8
deriving DecidableEq, Repr

/-- The word with bit `n` on. -/
def up (m : BitVec 8) (n : ℕ) : BitVec 8 := m ||| 1#8 <<< n

/-- The word with bit `n` off. -/
def down (m : BitVec 8) (n : ℕ) : BitVec 8 := m &&& ~~~ (1#8 <<< n)

lemma getLsbD_one_shiftLeft (n i : Fin 8) : (1#8 <<< n.val).getLsbD i = decide (i = n) := by
  revert n i
  decide

@[simp] lemma getLsbD_up (m : BitVec 8) (n i : Fin 8) :
    (up m n).getLsbD i = (decide (i = n) || m.getLsbD i) := by
  rw [up, BitVec.getLsbD_or, getLsbD_one_shiftLeft, Bool.or_comm]

@[simp] lemma getLsbD_down (m : BitVec 8) (n i : Fin 8) :
    (down m n).getLsbD i = (!decide (i = n) && m.getLsbD i) := by
  have hi : decide (i.val < 8) = true := decide_eq_true i.isLt
  rw [down, BitVec.getLsbD_and, BitVec.getLsbD_not, getLsbD_one_shiftLeft, hi, Bool.true_and,
    Bool.and_comm]

lemma toNat_extract_number (n : Fin 8) : ((BitVec.ofNat 8 n).extractLsb' 0 3).toNat = n := by
  revert n
  decide

namespace Chip

/-- A write to the command port: the first initialisation word, or a specific end of interrupt.
The words that rotate priorities, select registers or ask for level triggering are not
described. -/
def command (c : Chip) (d : BitVec 8) : Option Chip :=
  if d.getLsbD 4 then
    if d.getLsbD 3 then
      none
    else
      some { c with
        stage := .icw2, needIcw4 := d.getLsbD 0, single := d.getLsbD 1,
        mode8086 := false, autoEoi := false, irr := 0, imr := 0, isr := 0 }
  else if c.stage = .ready ∧ d.extractLsb' 3 5 = 0b01100#5 then
    some { c with isr := down c.isr (d.extractLsb' 0 3).toNat }
  else
    none

/-- What follows the second or third initialisation word. -/
def fourth (c : Chip) : Stage :=
  if c.needIcw4 then .icw4 else .ready

/-- A write to the data port. The fourth word's buffered and specially nested modes are not
described. -/
def data (c : Chip) (d : BitVec 8) : Option Chip :=
  match c.stage with
  | .icw2 =>
    some { c with base := d &&& 0xF8, stage := if c.single then c.fourth else .icw3 }
  | .icw3 => some { c with cascade := d, stage := c.fourth }
  | .icw4 =>
    if d.extractLsb' 2 6 = 0 then
      some { c with mode8086 := d.getLsbD 0, autoEoi := d.getLsbD 1, stage := .ready }
    else
      none
  | .ready => some { c with imr := d }

/-- The unmasked request of the highest priority. -/
def wants (c : Chip) : Option (Fin 8) :=
  Fin.find? fun n : Fin 8 => c.irr.getLsbD n && !c.imr.getLsbD n

/-- The request on the chip's output: no line at its level or above it is in service. -/
def output (c : Chip) : Option (Fin 8) :=
  if c.stage = .ready then
    c.wants.filter fun n => (List.finRange 8).all fun m => decide (m ≤ n) → !c.isr.getLsbD m
  else
    none

/-- The chip's part in an acknowledge cycle for its line `n`. -/
def acknowledge (c : Chip) (n : Fin 8) : Chip :=
  { c with irr := down c.irr n, isr := if c.autoEoi then c.isr else up c.isr n }

/-- A line with a request that is not masked. -/
def Requests (c : Chip) (n : Fin 8) : Prop := c.irr.getLsbD n = true ∧ c.imr.getLsbD n = false

/-- What a chip is once it is programmed: in the 8086 mode, with explicit ends of interrupt. -/
structure Configured (c : Chip) (base cascade : BitVec 8) : Prop where
  stage : c.stage = .ready
  base : c.base = base
  cascade : c.cascade = cascade
  mode8086 : c.mode8086 = true
  autoEoi : c.autoEoi = false

variable {c : Chip} {n : Fin 8}

lemma wants_eq_some : c.wants = some n ↔ c.Requests n ∧ ∀ m < n, ¬ c.Requests m := by
  simp only [wants, Fin.find?_eq_some_iff, Requests, Bool.and_eq_true, Bool.not_eq_true',
    Bool.and_eq_false_iff, Bool.not_eq_false', not_and, Bool.not_eq_false, and_congr_right_iff]
  intro _
  refine forall_congr' fun m => imp_congr_right fun _ => ?_
  cases c.irr.getLsbD m <;> simp

lemma wants_eq_none : c.wants = none ↔ ∀ n, ¬ c.Requests n := by
  simp [wants, Requests]

/-- The output carries the first request, unless a line at its level or above it is in
service. -/
lemma output_eq_some (hr : c.stage = .ready) :
    c.output = some n ↔
      c.Requests n ∧ (∀ m < n, ¬ c.Requests m) ∧ ∀ m ≤ n, c.isr.getLsbD m = false := by
  simp only [output, hr, if_true, Option.filter_eq_some_iff, wants_eq_some, List.all_eq_true,
    List.mem_finRange, true_imp_iff, and_assoc, decide_eq_true_eq, Bool.not_eq_true']

lemma output_eq_none (hr : c.stage = .ready) :
    c.output = none ↔ ∀ n, c.Requests n → ∃ m ≤ n, c.isr.getLsbD m = true := by
  constructor
  · intro h n hn
    by_contra hfree
    push Not at hfree
    cases hw : c.wants with
    | none => exact wants_eq_none.mp hw n hn
    | some n' =>
      obtain ⟨hn', hfirst⟩ := wants_eq_some.mp hw
      have hle : n' ≤ n := not_lt.mp fun hlt => hfirst n hlt hn
      have hsome : c.output = some n' :=
        (output_eq_some hr).mpr ⟨hn', hfirst, fun m hm => by
          simpa using hfree m (hm.trans hle)⟩
      rw [h] at hsome
      cases hsome
  · intro h
    cases hw : c.output with
    | none => rfl
    | some n =>
      obtain ⟨hn, -, hfree⟩ := (output_eq_some hr).mp hw
      obtain ⟨m, hm, hbusy⟩ := h n hn
      rw [hfree m hm] at hbusy
      cases hbusy

lemma command_finish (hr : c.stage = .ready) (n : Fin 8) :
    c.command (0x60#8 ||| BitVec.ofNat 8 n) = some { c with isr := down c.isr n } := by
  have hbits : (0x60#8 ||| BitVec.ofNat 8 n).getLsbD 4 = false ∧
      (0x60#8 ||| BitVec.ofNat 8 n).extractLsb' 3 5 = 0b01100#5 ∧
      ((0x60#8 ||| BitVec.ofNat 8 n).extractLsb' 0 3).toNat = n := by
    revert n
    decide
  rw [command, hbits.1, if_neg Bool.false_ne_true, if_pos ⟨hr, hbits.2.1⟩, hbits.2.2]

end Chip

/-! ## The pair -/

structure Pair where
  master : Chip
  slave : Chip
deriving DecidableEq, Repr

namespace Pair

/-- The first chip with its inputs as they are wired: input `k` is the second chip's output. -/
def wired (k : Fin 8) (p : Pair) : Chip :=
  { p.master with
    irr := if p.slave.output.isSome then up p.master.irr k else down p.master.irr k }

/-- A device raises its line. -/
def request (p : Pair) : Line → Pair
  | .master n => { p with master := { p.master with irr := up p.master.irr n } }
  | .slave n => { p with slave := { p.slave with irr := up p.slave.irr n } }

/-- The processor's acknowledge cycle: the vector it reads, if a request was there. For a line
that the first chip has in its cascade word, the second chip supplies the vector, if the number
on the cascade lines is its own. A chip outside the 8086 mode answers with something else, which
is not described. -/
def acknowledge (k : Fin 8) (p : Pair) : Option (Option (BitVec 8) × Pair) :=
  match (p.wired k).output with
  | none => some (none, p)
  | some n =>
    if p.master.mode8086 = false then
      none
    else if p.master.cascade.getLsbD n then
      match p.slave.output with
      | none => none
      | some m =>
        if n = k ∧ (p.slave.cascade.extractLsb' 0 3).toNat = n ∧ p.slave.mode8086 then
          some (some (p.slave.base + BitVec.ofNat 8 m),
            { master := p.master.acknowledge n, slave := p.slave.acknowledge m })
        else
          none
    else
      some (some (p.master.base + BitVec.ofNat 8 n),
        { p with master := p.master.acknowledge n })

/-- The controller a pair implements. -/
def controller (k : Fin 8) (p : Pair) : Controller where
  enabled
    | .master n => p.master.imr.getLsbD n = false
    | .slave n => p.slave.imr.getLsbD n = false
  pending
    | .master n => n ≠ k ∧ p.master.irr.getLsbD n = true
    | .slave n => p.slave.irr.getLsbD n = true
  inService
    | .master n => n ≠ k ∧ p.master.isr.getLsbD n = true
    | .slave n => p.slave.isr.getLsbD n = true

variable {k : Fin 8} {bm bs : BitVec 8} {p p' : Pair} {l l' : Line} {n m : Fin 8}

/-- What the initialisation establishes and every operation keeps: the chips know of each other,
and the first has its input `k` in service exactly while a line of the second is, of which there
is never more than one. -/
structure Sound (k : Fin 8) (bm bs : BitVec 8) (p : Pair) : Prop where
  master : p.master.Configured bm (1#8 <<< k.val)
  slave : p.slave.Configured bs (BitVec.ofNat 8 k)
  cascade : p.master.isr.getLsbD k = true ↔ ∃ n : Fin 8, p.slave.isr.getLsbD n = true
  one : ∀ n m : Fin 8, p.slave.isr.getLsbD n = true → p.slave.isr.getLsbD m = true → n = m

/-- The vector of a line. -/
def vector (bm bs : BitVec 8) : Line → BitVec 8
  | .master n => bm + BitVec.ofNat 8 n
  | .slave n => bs + BitVec.ofNat 8 n

@[simp] lemma master_mem_enabled :
    .master n ∈ (p.controller k).enabled ↔ p.master.imr.getLsbD n = false := Iff.rfl

@[simp] lemma slave_mem_enabled :
    .slave n ∈ (p.controller k).enabled ↔ p.slave.imr.getLsbD n = false := Iff.rfl

@[simp] lemma master_mem_pending :
    .master n ∈ (p.controller k).pending ↔ n ≠ k ∧ p.master.irr.getLsbD n = true := Iff.rfl

@[simp] lemma slave_mem_pending :
    .slave n ∈ (p.controller k).pending ↔ p.slave.irr.getLsbD n = true := Iff.rfl

@[simp] lemma master_mem_inService :
    .master n ∈ (p.controller k).inService ↔ n ≠ k ∧ p.master.isr.getLsbD n = true := Iff.rfl

@[simp] lemma slave_mem_inService :
    .slave n ∈ (p.controller k).inService ↔ p.slave.isr.getLsbD n = true := Iff.rfl

lemma wired_requests :
    (p.wired k).Requests n ↔
      (if n = k then p.slave.output.isSome = true else p.master.irr.getLsbD n = true) ∧
        p.master.imr.getLsbD n = false := by
  simp only [Chip.Requests, wired]
  by_cases hn : n = k <;> cases p.slave.output.isSome <;>
    simp [hn, -BitVec.getLsbD_eq_getElem]

/-- While no line of the second chip is in service, its output is on when any of its lines asks. -/
lemma slave_output_isSome (hs : p.slave.stage = .ready)
    (hfree : ∀ m : Fin 8, p.slave.isr.getLsbD m = false) :
    p.slave.output.isSome = true ↔ ∃ m, p.slave.Requests m := by
  constructor
  · intro h
    obtain ⟨m, hm⟩ := Option.isSome_iff_exists.mp h
    exact ⟨m, ((Chip.output_eq_some hs).mp hm).1⟩
  · rintro ⟨m, hm⟩
    by_contra hnone
    rw [Bool.not_eq_true, Option.isSome_eq_false_iff, Option.isNone_iff_eq_none,
      Chip.output_eq_none hs] at hnone
    obtain ⟨m', -, hbusy⟩ := hnone m hm
    rw [hfree m'] at hbusy
    cases hbusy

/-- The mask that a line is in. -/
def mask (p : Pair) : Line → BitVec 8
  | .master _ => p.master.imr
  | .slave _ => p.slave.imr

/-- Another mask for the chip that a line is on. -/
def withMask (p : Pair) (l : Line) (d : BitVec 8) : Pair :=
  match l with
  | .master _ => { p with master := { p.master with imr := d } }
  | .slave _ => { p with slave := { p.slave with imr := d } }

lemma controller_withMask (l : Line) (d : BitVec 8) :
    ((p.withMask l d).controller k).pending = (p.controller k).pending ∧
      ((p.withMask l d).controller k).inService = (p.controller k).inService := by
  cases l <;> exact ⟨rfl, rfl⟩

namespace Sound

lemma withMask (h : p.Sound k bm bs) (l : Line) (d : BitVec 8) :
    (p.withMask l d).Sound k bm bs := by
  obtain ⟨hm, hs, hcascade, hone⟩ := h
  cases l with
  | master n =>
    exact ⟨⟨hm.stage, hm.base, hm.cascade, hm.mode8086, hm.autoEoi⟩, hs, hcascade, hone⟩
  | slave n =>
    exact ⟨hm, ⟨hs.stage, hs.base, hs.cascade, hs.mode8086, hs.autoEoi⟩, hcascade, hone⟩

/-- A free input `k` means that the second chip has nothing in service. -/
lemma slave_free (h : p.Sound k bm bs) (hk : p.master.isr.getLsbD k = false) (m : Fin 8) :
    p.slave.isr.getLsbD m = false := by
  by_contra hbusy
  rw [h.cascade.mpr ⟨m, by simpa using hbusy⟩] at hk
  cases hk

/-- What is in service has its level in service at the first chip. -/
lemma level_busy (h : p.Sound k bm bs) (hl : l ∈ (p.controller k).inService) :
    p.master.isr.getLsbD (l.level k) = true := by
  cases l with
  | master n => exact hl.2
  | slave n => exact h.cascade.mpr ⟨n, hl⟩

lemma above_of_free (h : p.Sound k bm bs) (hfree : ∀ m ≤ n, p.master.isr.getLsbD m = false)
    (hl : l ∈ (p.controller k).inService) : n < l.level k := by
  by_contra hle
  have hbusy := h.level_busy hl
  rw [hfree _ (not_lt.mp hle)] at hbusy
  cases hbusy

/-- With nothing in service at a line's level or above it, those inputs of the first chip are
free. -/
lemma free_of_above (h : p.Sound k bm bs)
    (habove : ∀ l' ∈ (p.controller k).inService, l.level k < l'.level k) (hm : m ≤ l.level k) :
    p.master.isr.getLsbD m = false := by
  by_contra hbusy
  rw [Bool.not_eq_false] at hbusy
  by_cases hmk : m = k
  · rw [hmk] at hbusy hm
    obtain ⟨n, hn⟩ := h.cascade.mp hbusy
    exact absurd (habove (.slave n) hn) (not_lt.mpr hm)
  · exact absurd (habove (.master m) ⟨hmk, hbusy⟩) (not_lt.mpr hm)

/-- A line that asks puts a request on its level, while that level is free. -/
lemma requests_of_asks (h : p.Sound k bm bs) (hl : (p.controller k).Asks k l)
    (hfree : p.master.isr.getLsbD (l.level k) = false) :
    (p.wired k).Requests (l.level k) := by
  rw [wired_requests]
  cases l with
  | master n =>
    obtain ⟨hpend, hen, -⟩ := hl
    exact ⟨by rw [Line.level, if_neg hpend.1]; exact hpend.2, hen⟩
  | slave n =>
    obtain ⟨hpend, hen, hmaster⟩ := hl
    refine ⟨?_, hmaster⟩
    rw [Line.level, if_pos rfl, slave_output_isSome h.slave.stage (h.slave_free hfree)]
    exact ⟨n, hpend, hen⟩

/-- With no request on the first chip's output the controller has nothing to deliver. -/
lemma not_accepts (h : p.Sound k bm bs) (ho : (p.wired k).output = none) :
    ¬ (p.controller k).Accepts k l := by
  intro ha
  have hreq := h.requests_of_asks ha.asks (h.free_of_above ha.above le_rfl)
  obtain ⟨m, hm, hbusy⟩ := (Chip.output_eq_none (c := p.wired k) h.master.stage).mp ho _ hreq
  have hfree := h.free_of_above ha.above hm
  exact Bool.false_ne_true (hfree.symm.trans hbusy)

/-- The request on the first chip's output, when it is one of its own lines. -/
lemma accepts_master (h : p.Sound k bm bs) (ho : (p.wired k).output = some n) (hn : n ≠ k) :
    (p.controller k).Accepts k (.master n) := by
  obtain ⟨hreq, hfirst, hfree⟩ := (Chip.output_eq_some (c := p.wired k) h.master.stage).mp ho
  rw [wired_requests, if_neg hn] at hreq
  refine ⟨⟨⟨hn, hreq.1⟩, hreq.2, hreq.2⟩, fun l' hl' hbefore => ?_,
    fun l' hl' => h.above_of_free hfree hl'⟩
  have hlt : l'.level k < n := by
    rcases hbefore with hlt | ⟨heq, hidx⟩
    · exact hlt
    · cases l' with
      | master n' => exact hidx
      | slave n' => exact absurd heq.symm hn
  exact hfirst _ hlt (h.requests_of_asks hl' (hfree _ hlt.le))

/-- The request on the first chip's output, when it is the second chip's. -/
lemma accepts_slave (h : p.Sound k bm bs) (ho : (p.wired k).output = some k) :
    ∃ m, p.slave.output = some m ∧ (∀ m' : Fin 8, p.slave.isr.getLsbD m' = false) ∧
      (p.controller k).Accepts k (.slave m) := by
  obtain ⟨hreq, hfirst, hfree⟩ := (Chip.output_eq_some (c := p.wired k) h.master.stage).mp ho
  rw [wired_requests, if_pos rfl] at hreq
  obtain ⟨m, hm⟩ := Option.isSome_iff_exists.mp hreq.1
  have hslave := h.slave_free (hfree k le_rfl)
  obtain ⟨hmreq, hmfirst, -⟩ := (Chip.output_eq_some h.slave.stage).mp hm
  refine ⟨m, hm, hslave, ⟨hmreq.1, hmreq.2, hreq.2⟩, fun l' hl' hbefore => ?_,
    fun l' hl' => h.above_of_free hfree hl'⟩
  rcases hbefore with hlt | ⟨heq, hidx⟩
  · exact hfirst _ hlt (h.requests_of_asks hl' (hfree _ (le_of_lt hlt)))
  · cases l' with
    | master n' => exact hl'.1.1 heq
    | slave m' => exact hmfirst m' hidx ⟨hl'.1, hl'.2.1⟩

/-! ### The events -/

lemma acknowledge_master (h : p.Sound k bm bs) (hn : n ≠ k) :
    ({ p with master := p.master.acknowledge n } : Pair).Sound k bm bs ∧
      ({ p with master := p.master.acknowledge n } : Pair).controller k =
        (p.controller k).accept (.master n) := by
  have hisr : (p.master.acknowledge n).isr = up p.master.isr n := by
    simp [Chip.acknowledge, h.master.autoEoi]
  have hirr : (p.master.acknowledge n).irr = down p.master.irr n := rfl
  refine ⟨⟨⟨h.master.stage, h.master.base, h.master.cascade, h.master.mode8086,
    h.master.autoEoi⟩, h.slave, ?_, h.one⟩, ?_⟩
  · rw [hisr, getLsbD_up, decide_eq_false (Ne.symm hn), Bool.false_or]
    exact h.cascade
  · apply Controller.ext
    · rfl
    · ext l
      cases l <;> simp [Controller.accept, hirr, -BitVec.getLsbD_eq_getElem]
      grind
    · ext l
      cases l <;> simp [Controller.accept, hisr, -BitVec.getLsbD_eq_getElem]
      grind

lemma acknowledge_slave (h : p.Sound k bm bs)
    (hfree : ∀ m' : Fin 8, p.slave.isr.getLsbD m' = false) :
    (⟨p.master.acknowledge k, p.slave.acknowledge m⟩ : Pair).Sound k bm bs ∧
      (⟨p.master.acknowledge k, p.slave.acknowledge m⟩ : Pair).controller k =
        (p.controller k).accept (.slave m) := by
  have hmisr : (p.master.acknowledge k).isr = up p.master.isr k := by
    simp [Chip.acknowledge, h.master.autoEoi]
  have hmirr : (p.master.acknowledge k).irr = down p.master.irr k := rfl
  have hisr : (p.slave.acknowledge m).isr = up p.slave.isr m := by
    simp [Chip.acknowledge, h.slave.autoEoi]
  have hirr : (p.slave.acknowledge m).irr = down p.slave.irr m := rfl
  refine ⟨⟨⟨h.master.stage, h.master.base, h.master.cascade, h.master.mode8086,
    h.master.autoEoi⟩, ⟨h.slave.stage, h.slave.base, h.slave.cascade, h.slave.mode8086,
    h.slave.autoEoi⟩, ?_, ?_⟩, ?_⟩
  · simp only [hmisr, hisr, getLsbD_up, decide_true, Bool.true_or, true_iff]
    exact ⟨m, by simp⟩
  · intro n n' hn hn'
    simp only [hisr, getLsbD_up, hfree, Bool.or_false, decide_eq_true_eq] at hn hn'
    rw [hn, hn']
  · apply Controller.ext
    · rfl
    · ext l
      cases l <;> simp [Controller.accept, hmirr, hirr, -BitVec.getLsbD_eq_getElem]
      all_goals grind
    · ext l
      cases l <;> simp [Controller.accept, hmisr, hisr, -BitVec.getLsbD_eq_getElem]
      all_goals grind

/-- An acknowledge cycle gives the processor the vector of the line that the controller
accepts, and nothing when it accepts none. -/
theorem acknowledge_spec (h : p.Sound k bm bs) :
    (∃ l p', p.acknowledge k = some (some (vector bm bs l), p') ∧ (p.controller k).Accepts k l ∧
      p'.controller k = (p.controller k).accept l ∧ p'.Sound k bm bs) ∨
    (p.acknowledge k = some (none, p) ∧ ∀ l, ¬ (p.controller k).Accepts k l) := by
  have hcascade (n : Fin 8) : p.master.cascade.getLsbD n = decide (n = k) := by
    rw [h.master.cascade, getLsbD_one_shiftLeft]
  have hown : (p.slave.cascade.extractLsb' 0 3).toNat = k := by
    rw [h.slave.cascade, toNat_extract_number]
  cases ho : (p.wired k).output with
  | none =>
    exact .inr ⟨by simp [acknowledge, ho], fun l => h.not_accepts ho⟩
  | some n =>
    refine .inl ?_
    by_cases hn : n = k
    · subst hn
      obtain ⟨m, hm, hfree, ha⟩ := h.accepts_slave ho
      obtain ⟨hsound, hcontroller⟩ := h.acknowledge_slave (m := m) hfree
      refine ⟨.slave m, _, ?_, ha, hcontroller, hsound⟩
      simp [acknowledge, ho, hm, hcascade, hown, h.master.mode8086, h.slave.mode8086,
        h.slave.base, vector, -BitVec.getLsbD_eq_getElem]
    · obtain ⟨hsound, hcontroller⟩ := h.acknowledge_master hn
      refine ⟨.master n, _, ?_, h.accepts_master ho hn, hcontroller, hsound⟩
      simp [acknowledge, ho, hcascade, hn, h.master.mode8086, h.master.base, vector,
        -BitVec.getLsbD_eq_getElem]

/-- A device raises a line. -/
lemma request (h : p.Sound k bm bs) (hl : l ≠ .master k) :
    (p.request l).Sound k bm bs ∧
      (p.request l).controller k =
        { p.controller k with pending := insert l (p.controller k).pending } := by
  cases l with
  | master n =>
    have hn : n ≠ k := fun heq => hl (by rw [heq])
    refine ⟨⟨⟨h.master.stage, h.master.base, h.master.cascade, h.master.mode8086,
      h.master.autoEoi⟩, h.slave, h.cascade, h.one⟩, ?_⟩
    apply Controller.ext
    · rfl
    · ext l'
      cases l' <;> simp [Pair.request, -BitVec.getLsbD_eq_getElem]
      grind
    · rfl
  | slave n =>
    refine ⟨⟨h.master, ⟨h.slave.stage, h.slave.base, h.slave.cascade, h.slave.mode8086,
      h.slave.autoEoi⟩, h.cascade, h.one⟩, ?_⟩
    apply Controller.ext
    · rfl
    · ext l'
      cases l' <;> simp [Pair.request, -BitVec.getLsbD_eq_getElem]
    · rfl

/-- The first chip is told that one of its own lines is finished. -/
lemma finish_master (h : p.Sound k bm bs) (hl : .master n ∈ (p.controller k).inService) :
    ({ p with master := { p.master with isr := down p.master.isr n } } : Pair).Sound k bm bs ∧
      ({ p with master := { p.master with isr := down p.master.isr n } } : Pair).controller k =
        { p.controller k with
          inService := (p.controller k).inService \ {.master n} } := by
  refine ⟨⟨⟨h.master.stage, h.master.base, h.master.cascade, h.master.mode8086,
    h.master.autoEoi⟩, h.slave, ?_, h.one⟩, ?_⟩
  · rw [getLsbD_down, decide_eq_false (Ne.symm hl.1), Bool.not_false, Bool.true_and]
    exact h.cascade
  · apply Controller.ext
    · rfl
    · rfl
    · ext l'
      cases l' <;> simp [-BitVec.getLsbD_eq_getElem]
      grind

/-- Both chips are told that a line of the second is finished. -/
lemma finish_slave (h : p.Sound k bm bs) (hl : .slave n ∈ (p.controller k).inService) :
    (⟨{ p.master with isr := down p.master.isr k },
      { p.slave with isr := down p.slave.isr n }⟩ : Pair).Sound k bm bs ∧
      (⟨{ p.master with isr := down p.master.isr k },
        { p.slave with isr := down p.slave.isr n }⟩ : Pair).controller k =
        { p.controller k with
          inService := (p.controller k).inService \ {.slave n} } := by
  have hnone (m : Fin 8) : (down p.slave.isr n).getLsbD m = false := by
    rw [getLsbD_down]
    by_cases hm : p.slave.isr.getLsbD m = true
    · simp [h.one m n hm hl]
    · rw [Bool.not_eq_true] at hm
      rw [hm, Bool.and_false]
  refine ⟨⟨⟨h.master.stage, h.master.base, h.master.cascade, h.master.mode8086,
    h.master.autoEoi⟩, ⟨h.slave.stage, h.slave.base, h.slave.cascade, h.slave.mode8086,
    h.slave.autoEoi⟩, ?_, ?_⟩, ?_⟩
  · simp [hnone, -BitVec.getLsbD_eq_getElem]
  · intro m m' hm
    rw [hnone] at hm
    cases hm
  · apply Controller.ext
    · rfl
    · rfl
    · ext l'
      cases l' <;> simp [-BitVec.getLsbD_eq_getElem]
      all_goals grind

/-- A line is unmasked. -/
lemma enable (h : p.Sound k bm bs) (l : Line) :
    (p.withMask l (down (p.mask l) l.index)).Sound k bm bs ∧
      (p.withMask l (down (p.mask l) l.index)).controller k =
        { p.controller k with enabled := insert l (p.controller k).enabled } := by
  refine ⟨h.withMask l _, Controller.ext ?_ (controller_withMask l _).1
    (controller_withMask l _).2⟩
  ext l'
  cases l <;> cases l' <;> simp [Pair.withMask, mask, Line.index, -BitVec.getLsbD_eq_getElem]
  all_goals grind

/-- A line is masked. -/
lemma disable (h : p.Sound k bm bs) (l : Line) :
    (p.withMask l (up (p.mask l) l.index)).Sound k bm bs ∧
      (p.withMask l (up (p.mask l) l.index)).controller k =
        { p.controller k with enabled := (p.controller k).enabled \ {l} } := by
  refine ⟨h.withMask l _, Controller.ext ?_ (controller_withMask l _).1
    (controller_withMask l _).2⟩
  ext l'
  cases l <;> cases l' <;> simp [Pair.withMask, mask, Line.index, -BitVec.getLsbD_eq_getElem]
  all_goals grind

end Sound

/-- An acknowledge cycle leaves the masks. -/
lemma acknowledge_masks {v : Option (BitVec 8)} (h : p.acknowledge k = some (v, p')) :
    p'.master.imr = p.master.imr ∧ p'.slave.imr = p.slave.imr := by
  unfold acknowledge at h
  split at h
  · cases h
    exact ⟨rfl, rfl⟩
  · split at h
    · cases h
    · split at h
      · split at h
        · cases h
        · split at h
          · cases h
            exact ⟨rfl, rfl⟩
          · cases h
      · cases h
        exact ⟨rfl, rfl⟩

end Pair
end Pic
