import Mathlib.Tactic.Common
import Mathlib.Logic.Function.Iterate

/-!
# Loops with fuel

`loop guard body` is a `while` loop whose body may itself loop; its fuel bounds the number of times
that the guard is tested. `Ends f a` says that a computation returns `a` with any amount of fuel
from some amount on, and `Turns` is a loop turn by turn, each turn of which ends.
-/

namespace Loop

variable {σ α β : Type*}

def loop (guard : σ → Prop) [DecidablePred guard] (body : σ → Option σ) : ℕ → σ → Option σ
  | 0, _     => none
  | n + 1, s => if guard s then (body s).bind (loop guard body n) else some s

/-- The computation returns `a`, given enough fuel. -/
def Ends (f : ℕ → Option α) (a : α) : Prop := ∃ n, ∀ m ≥ n, f m = some a

namespace Ends

variable {f : ℕ → Option α} {a b : α}

protected lemma pure (a : α) : Ends (fun _ => some a) a := ⟨0, fun _ _ => rfl⟩

protected lemma bind {g : α → ℕ → Option β} {b : β} (hf : Ends f a) (hg : Ends (g a) b) :
    Ends (fun n => (f n).bind fun x => g x n) b := by
  obtain ⟨m, hm⟩ := hf
  obtain ⟨n, hn⟩ := hg
  refine ⟨max m n, fun k hk => ?_⟩
  have hfk := hm k (by omega)
  have hgk := hn k (by omega)
  simp [hfk, hgk]

protected lemma map (g : α → β) (hf : Ends f a) : Ends (fun n => (f n).map g) (g a) := by
  obtain ⟨m, hm⟩ := hf
  exact ⟨m, fun k hk => by simp [hm k hk]⟩

lemma congr {g : ℕ → Option α} (hg : Ends g a) (h : ∀ n, f n = g n) : Ends f a := by
  rwa [funext h]

lemma unique (h : Ends f a) (h' : Ends f b) : a = b := by
  obtain ⟨m, hm⟩ := h
  obtain ⟨n, hn⟩ := h'
  have hfa := hm (max m n) (by omega)
  have hfb := hn (max m n) (by omega)
  exact Option.some.inj (hfa.symm.trans hfb)

/-- Any run that returns is one of those that have enough fuel. -/
lemma exists_fuel (h : Ends f a) : ∃ n, f n = some a := by
  obtain ⟨n, hn⟩ := h
  exact ⟨n, hn n (Nat.le_refl n)⟩

end Ends

/-! ### The turns of a loop -/

inductive Turns (guard : σ → Prop) (body : ℕ → σ → Option σ) : σ → σ → Prop
  | done {s} (h : ¬ guard s) : Turns guard body s s
  | turn {s s' t} (h : guard s) (hbody : Ends (fun n => body n s) s')
      (hrest : Turns guard body s' t) : Turns guard body s t

section

variable {guard : σ → Prop} [DecidablePred guard] {body : ℕ → σ → Option σ} {s t : σ} {n : ℕ}

/-- A loop that is turned to its end returns. -/
theorem Turns.ends (h : Turns guard body s t) : Ends (fun n => loop guard (body n) n s) t := by
  -- the fuel of the loop goes down by one with every turn, that of its body does not
  have htwo : ∃ k, ∀ n ≥ k, ∀ m ≥ k, loop guard (body n) m s = some t := by
    induction h with
    | @done s h =>
      refine ⟨1, fun n _ m hm => ?_⟩
      obtain ⟨m, rfl⟩ := Nat.exists_eq_add_of_le' hm
      simp [loop, h]
    | @turn s s' t h hbody _ ih =>
      obtain ⟨i, hi⟩ := hbody
      obtain ⟨j, hj⟩ := ih
      refine ⟨max i j + 1, fun n hn m hm => ?_⟩
      obtain ⟨m, rfl⟩ := Nat.exists_eq_add_of_le' (Nat.le_of_add_left_le hm)
      have hbody := hi n (by omega)
      have hrest := hj n (by omega) m (by omega)
      simp [loop, h, hbody, hrest]
  obtain ⟨k, hk⟩ := htwo
  exact ⟨k, fun n hn => hk n hn n hn⟩

/-- What every turn keeps holds at the end, if there is one. -/
theorem loop_invariant {body : σ → Option σ} {motive : σ → Prop}
    (step : ∀ s s', guard s → body s = some s' → motive s → motive s')
    (h : loop guard body n s = some t) (hs : motive s) : motive t := by
  induction n generalizing s with
  | zero => cases h
  | succ n ih =>
    rw [loop] at h
    split_ifs at h with hguard
    · obtain ⟨s', hs', ht⟩ := Option.bind_eq_some_iff.mp h
      exact ih ht (step s s' hguard hs' hs)
    · obtain rfl := Option.some.inj h
      exact hs

omit [DecidablePred guard] in
/-- A loop whose body is a plain assignment. -/
lemma Turns.of_iterate {f : σ → σ} (k : ℕ) (hguard : ∀ i < k, guard (f^[i] s))
    (hend : ¬ guard (f^[k] s)) : Turns guard (fun _ s => some (f s)) s (f^[k] s) := by
  induction k generalizing s with
  | zero => exact .done hend
  | succ k ih =>
    refine .turn (hguard 0 (Nat.zero_lt_succ k)) (.pure (f s)) ?_
    rw [Function.iterate_succ_apply] at hend ⊢
    exact ih (fun i hi => hguard (i + 1) (Nat.succ_lt_succ hi)) hend

variable (guard) in
/-- A counting loop, given by the state after each turn. -/
lemma ends_loop_of_seq (f : σ → σ) (state : ℕ → σ) (k : ℕ)
    (hstep : ∀ i < k, guard (state i) ∧ f (state i) = state (i + 1)) (hend : ¬ guard (state k)) :
    Ends (fun n => loop guard (fun s => some (f s)) n (state 0)) (state k) := by
  have hiter : ∀ i ≤ k, f^[i] (state 0) = state i := by
    intro i hi
    induction i with
    | zero => rfl
    | succ i ih => rw [Function.iterate_succ_apply', ih (Nat.le_of_succ_le hi), (hstep i hi).2]
  rw [← hiter k (Nat.le_refl k)] at hend ⊢
  refine (Turns.of_iterate k (fun i hi => ?_) hend).ends
  rw [hiter i (Nat.le_of_lt hi)]
  exact (hstep i hi).1

end

end Loop
