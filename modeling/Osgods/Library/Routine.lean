import Osgods.Library.Loop

/-!
# Routines

A routine takes fuel and a state to a value and a state, unless it fails or the fuel runs out.
`WP p Q s` is total correctness: given enough fuel, the routine returns from `s`, and `Q` holds of
what it returns and of the state then. There is one rule for each way to build a routine; a loop
has an invariant and a variant.
-/

abbrev Routine (σ α : Type) : Type := ReaderT ℕ (StateT σ Option) α

namespace Routine

open Loop

variable {σ α β : Type}

def WP (p : Routine σ α) (Q : α → σ → Prop) (s : σ) : Prop :=
  ∃ a t, Ends (fun n => p n s) (a, t) ∧ Q a t

/-- What a computation with fuel makes of the state, which stays as it is. -/
def compute (f : σ → ℕ → Option α) : Routine σ α := fun n s => (f s n).map fun a => (a, s)

/-- A change of the state that may fail. -/
def change (f : σ → Option (α × σ)) : Routine σ α := fun _ s => f s

/-- A loop: a turn either goes on with its variables, or leaves the loop with a value. -/
def loop (body : β → Routine σ (β ⊕ α)) (b : β) : Routine σ α := fun n s =>
  (Loop.loop (fun p : (β ⊕ α) × σ => p.1.isLeft = true)
    (fun p => p.1.elim (fun b => body b n p.2) fun _ => none) n (.inl b, s)).bind fun p =>
      p.1.elim (fun _ => none) fun a => some (a, p.2)

namespace WP

variable {p : Routine σ α} {f : α → Routine σ β} {Q R : α → σ → Prop} {s t : σ} {a : α}

protected lemma pure (h : Q a s) : WP (pure a) Q s := ⟨a, s, .pure _, h⟩

protected lemma bind {Q : β → σ → Prop} (h : WP p (fun a t => WP (f a) Q t) s) :
    WP (p >>= f) Q s := by
  obtain ⟨a, t, hp, b, t', hf, hQ⟩ := h
  exact ⟨b, t', hp.bind hf, hQ⟩

protected lemma mono (h : WP p Q s) (hQR : ∀ a t, Q a t → R a t) : WP p R s := by
  obtain ⟨a, t, hp, hQ⟩ := h
  exact ⟨a, t, hp, hQR a t hQ⟩

protected lemma get {Q : σ → σ → Prop} (h : Q s s) : WP get Q s := ⟨s, s, .pure _, h⟩

protected lemma compute {g : σ → ℕ → Option α} (h : Ends (g s) a) (hQ : Q a s) :
    WP (compute g) Q s :=
  ⟨a, s, h.map fun a => (a, s), hQ⟩

protected lemma change {g : σ → Option (α × σ)} (h : g s = some (a, t)) (hQ : Q a t) :
    WP (change g) Q s :=
  ⟨a, t, ⟨0, fun _ _ => h⟩, hQ⟩

protected lemma ite {c : Prop} [Decidable c] {q : Routine σ α} (hp : c → WP p Q s)
    (hq : ¬ c → WP q Q s) : WP (if c then p else q) Q s := by
  split_ifs with hc
  · exact hp hc
  · exact hq hc

/-- What is known of every result. -/
lemma and_of_ends (h : WP p Q s) (hR : ∀ a t, Ends (fun n => p n s) (a, t) → R a t) :
    WP p (fun a t => Q a t ∧ R a t) s := by
  obtain ⟨a, t, hp, hQ⟩ := h
  exact ⟨a, t, hp, hQ, hR a t hp⟩

/-- Every turn of a loop keeps the invariant with a smaller variant, or ends the loop with what is
wanted. -/
protected theorem loop {body : β → Routine σ (β ⊕ α)} {b : β} (inv : ℕ → β → σ → Prop) {k : ℕ}
    (hinv : inv k b s)
    (hturn : ∀ k b s, inv k b s → WP (body b) (fun r t =>
      r.elim (fun b' => ∃ m < k, inv m b' t) fun a => Q a t) s) :
    WP (loop body b) Q s := by
  have hturns : ∃ a t, Turns (fun p : (β ⊕ α) × σ => p.1.isLeft = true)
      (fun n p => p.1.elim (fun b => body b n p.2) fun _ => none) (.inl b, s) (.inr a, t) ∧
        Q a t := by
    induction k using Nat.strongRecOn generalizing b s with
    | ind k ih =>
      obtain ⟨r, t, hbody, hr⟩ := hturn k b s hinv
      cases r with
      | inl b' =>
        obtain ⟨m, hlt, hinv'⟩ := hr
        obtain ⟨a, t', hturns, hQ⟩ := ih m hlt hinv'
        exact ⟨a, t', .turn rfl hbody hturns, hQ⟩
      | inr a => exact ⟨a, t, .turn rfl hbody (.done (by simp)), hr⟩
  obtain ⟨a, t, hturns, hQ⟩ := hturns
  refine ⟨a, t, ?_, hQ⟩
  exact hturns.ends.bind (.pure (a, t))

end WP

end Routine
