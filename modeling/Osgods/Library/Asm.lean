import Osgods.Library.Loop
import Mathlib.Data.List.Basic

/-!
# Labelled code over any operations

Code is a list of labels, operations and jumps; what an operation does to a state and when a
condition holds in one are parameters. `Text.WP` is total correctness of a run to the end of the
code, with one rule for each kind of line.
-/

namespace Asm

open Loop

variable {L O C σ : Type*}

inductive Line (L O C : Type*) where
  | label (l : L)
  | op (o : O)
  | jmp (l : L)
  | jcc (cond : C) (l : L)

/-- Code, and the meaning of its operations and conditions. -/
structure Text (L O C σ : Type*) where
  code  : List (Line L O C)
  exec  : O → σ → σ
  holds : C → σ → Bool

/-- The place in the code, and the state. -/
structure Point (σ : Type*) where
  pc    : ℕ
  state : σ

namespace Text

variable [DecidableEq L] (p : Text L O C σ)

def labelIndex (l : L) : ℕ := p.code.findIdx fun i => match i with
  | .label l' => decide (l' = l)
  | _         => false

/-- One line. -/
def step (s : Point σ) : Option (Point σ) :=
  (p.code[s.pc]?).map fun i => match i with
    | .label _     => { s with pc := s.pc + 1 }
    | .op o        => ⟨s.pc + 1, p.exec o s.state⟩
    | .jmp l       => { s with pc := p.labelIndex l }
    | .jcc cond l  => { s with pc := if p.holds cond s.state then p.labelIndex l else s.pc + 1 }

/-- The code is executed until it comes to its end. -/
def run (fuel : ℕ) (s : Point σ) : Option (Point σ) :=
  loop (fun s => s.pc < p.code.length) p.step fuel s

/-- Total correctness: from `s` on, the code runs to its end, in a state with `Q`. -/
def WP (Q : σ → Prop) (s : Point σ) : Prop :=
  ∃ t, Turns (fun s => s.pc < p.code.length) (fun _ => p.step) s t ∧ Q t.state

namespace WP

variable {p : Text L O C σ} {Q : σ → Prop} {s s' : Point σ} {pc : ℕ} {c : σ} {o : O} {l : L}
  {cond : C}

theorem ends (h : p.WP Q s) : ∃ t, Ends (fun n => p.run n s) t ∧ Q t.state := by
  obtain ⟨t, ht, hQ⟩ := h
  exact ⟨t, Turns.ends ht, hQ⟩

lemma mono {Q' : σ → Prop} (h : p.WP Q s) (hQ : ∀ t, Q t → Q' t) : p.WP Q' s := by
  obtain ⟨t, ht, hQt⟩ := h
  exact ⟨t, ht, hQ t.state hQt⟩

lemma fallOff (h : p.code.length ≤ pc) (hQ : Q c) : p.WP Q ⟨pc, c⟩ :=
  ⟨_, .done (Nat.not_lt.mpr h), hQ⟩

lemma of_step (hpc : s.pc < p.code.length) (hstep : p.step s = some s') (h : p.WP Q s') :
    p.WP Q s := by
  obtain ⟨t, ht, hQ⟩ := h
  exact ⟨t, .turn hpc (by rw [hstep]; exact .pure s') ht, hQ⟩

omit [DecidableEq L] in
lemma lt_length {i : Line L O C} (h : p.code[pc]? = some i) : pc < p.code.length :=
  (List.getElem?_eq_some_iff.mp h).1

lemma label (hcode : p.code[pc]? = some (.label l)) (h : p.WP Q ⟨pc + 1, c⟩) :
    p.WP Q ⟨pc, c⟩ :=
  of_step (lt_length hcode) (by rw [step, hcode]; rfl) h

lemma op (hcode : p.code[pc]? = some (.op o)) (h : p.WP Q ⟨pc + 1, p.exec o c⟩) :
    p.WP Q ⟨pc, c⟩ :=
  of_step (lt_length hcode) (by rw [step, hcode]; rfl) h

lemma jmp (hcode : p.code[pc]? = some (.jmp l)) (h : p.WP Q ⟨p.labelIndex l, c⟩) :
    p.WP Q ⟨pc, c⟩ :=
  of_step (lt_length hcode) (by rw [step, hcode]; rfl) h

lemma jcc (hcode : p.code[pc]? = some (.jcc cond l))
    (htaken : p.holds cond c = true → p.WP Q ⟨p.labelIndex l, c⟩)
    (hnot : p.holds cond c = false → p.WP Q ⟨pc + 1, c⟩) : p.WP Q ⟨pc, c⟩ := by
  have hstep : p.step ⟨pc, c⟩ =
      some ⟨if p.holds cond c then p.labelIndex l else pc + 1, c⟩ := by
    rw [step, hcode]
    rfl
  refine of_step (lt_length hcode) hstep ?_
  split_ifs with h
  · exact htaken h
  · exact hnot (eq_false_of_ne_true h)

/-- A block of operations. -/
theorem ops (os : List O) (hcode : os.map Line.op <+: p.code.drop pc)
    (h : p.WP Q ⟨pc + os.length, os.foldl (fun c o => p.exec o c) c⟩) : p.WP Q ⟨pc, c⟩ := by
  induction os generalizing pc c with
  | nil => exact h
  | cons o os ih =>
    obtain ⟨rest, hrest⟩ := hcode
    have ho : p.code[pc]? = some (.op o) := by
      rw [← List.head?_drop, ← hrest]
      rfl
    refine op ho (ih ⟨rest, ?_⟩ ?_)
    · rw [← List.tail_drop, ← hrest]
      rfl
    · rw [List.length_cons, ← Nat.add_assoc, Nat.add_right_comm] at h
      exact h

end WP

end Text

end Asm
