import Mathlib.Tactic.Common
import Mathlib.Logic.Basic

/-!
# Runs of a labelled transition relation

A run is a finite sequence of labelled steps. The rules below turn what one step preserves into
what a whole run preserves; `Guarded` restricts a relation to the steps that meet a condition, so
that "every run whose steps all meet `P`" is again a run of a relation.
-/

namespace Transition

variable {σ α : Type*}

/-- A finite run of `step` from the first state to the last, with the labels of its steps. -/
inductive Run (step : σ → α → σ → Prop) : σ → List α → σ → Prop where
  | refl (s : σ) : Run step s [] s
  | cons {s s' s'' : σ} {a : α} {as : List α} (h : step s a s') (hrun : Run step s' as s'') :
      Run step s (a :: as) s''

/-- The steps of `step` taken from a state and under a label that meet `P`. -/
def Guarded (step : σ → α → σ → Prop) (P : σ → α → Prop) (s : σ) (a : α) (s' : σ) : Prop :=
  step s a s' ∧ P s a

/-- The relation of a partial step function. -/
def Graph (f : σ → α → Option σ) (s : σ) (a : α) (s' : σ) : Prop :=
  f s a = some s'

variable {step step' : σ → α → σ → Prop} {s s' s'' : σ} {a : α} {as bs : List α}

@[simp] lemma run_nil : Run step s [] s' ↔ s = s' := by
  constructor
  · intro h
    cases h
    rfl
  · rintro rfl
    exact .refl s

@[simp] lemma run_cons : Run step s (a :: as) s'' ↔ ∃ s', step s a s' ∧ Run step s' as s'' := by
  constructor
  · intro h
    cases h with
    | cons h hrun => exact ⟨_, h, hrun⟩
  · rintro ⟨s', h, hrun⟩
    exact .cons h hrun

lemma Run.append (h : Run step s as s') (h' : Run step s' bs s'') : Run step s (as ++ bs) s'' := by
  induction h with
  | refl => exact h'
  | cons hs _ ih => exact .cons hs (ih h')

lemma Run.snoc (h : Run step s as s') (hs : step s' a s'') : Run step s (as ++ [a]) s'' :=
  h.append (.cons hs (.refl s''))

lemma run_append :
    Run step s (as ++ bs) s'' ↔ ∃ s', Run step s as s' ∧ Run step s' bs s'' := by
  constructor
  · intro h
    induction as generalizing s with
    | nil => exact ⟨s, .refl s, h⟩
    | cons a as ih =>
      obtain ⟨s₁, hs, hrun⟩ := run_cons.mp h
      obtain ⟨s', has, hbs⟩ := ih hrun
      exact ⟨s', .cons hs has, hbs⟩
  · rintro ⟨s', has, hbs⟩
    exact has.append hbs

/-- A run survives the weakening of its step relation. -/
lemma Run.mono (hsub : ∀ s a s', step s a s' → step' s a s') (h : Run step s as s') :
    Run step' s as s' := by
  induction h with
  | refl => exact .refl _
  | cons hs _ ih => exact .cons (hsub _ _ _ hs) ih

lemma Run.of_guarded {P : σ → α → Prop} (h : Run (Guarded step P) s as s') : Run step s as s' :=
  h.mono fun _ _ _ hs => hs.1

/-- What every step preserves, every run preserves. -/
theorem Run.invariant {I : σ → Prop} (hstep : ∀ s a s', I s → step s a s' → I s')
    (h : Run step s as s') (hs : I s) : I s' := by
  induction h with
  | refl => exact hs
  | cons ha _ ih => exact ih (hstep _ _ _ hs ha)

/-- A simulation with steps that the other side does not take: those whose label has none there. -/
theorem Run.simulate {τ β : Type*} {other : τ → β → τ → Prop} {R : σ → τ → Prop}
    {label : α → Option β}
    (htaken : ∀ s a b s' t, R s t → step s a s' → label a = some b → ∃ t', other t b t' ∧ R s' t')
    (hskip : ∀ s a s' t, R s t → step s a s' → label a = none → R s' t) {t : τ}
    (h : Run step s as s') (hR : R s t) :
    ∃ t', Run other t (as.filterMap label) t' ∧ R s' t' := by
  induction h generalizing t with
  | refl => exact ⟨t, .refl t, hR⟩
  | @cons s s₁ s' a as ha _ ih =>
    cases hlabel : label a with
    | none =>
      rw [List.filterMap_cons_none hlabel]
      exact ih (hskip _ _ _ _ hR ha hlabel)
    | some b =>
      obtain ⟨t₁, hb, hR₁⟩ := htaken _ _ _ _ _ hR ha hlabel
      obtain ⟨t', hrun, hR'⟩ := ih hR₁
      rw [List.filterMap_cons_some hlabel]
      exact ⟨t', .cons hb hrun, hR'⟩

/-- A projection that every step commutes with takes runs to runs. -/
theorem Run.project {τ : Type*} {other : τ → α → τ → Prop} {I : σ → Prop} {proj : σ → τ}
    (hstep : ∀ s a s', I s → step s a s' → I s' ∧ other (proj s) a (proj s'))
    (h : Run step s as s') (hs : I s) : I s' ∧ Run other (proj s) as (proj s') := by
  induction h with
  | refl => exact ⟨hs, .refl _⟩
  | cons ha _ ih =>
    obtain ⟨hs₁, hother⟩ := hstep _ _ _ hs ha
    obtain ⟨hs', hrun⟩ := ih hs₁
    exact ⟨hs', .cons hother hrun⟩

/-- If each step of the projection has one above it, so has each run. -/
theorem Run.lift {τ : Type*} {other : τ → α → τ → Prop} {I : σ → Prop} {proj : σ → τ}
    (hlift : ∀ s a t, I s → other (proj s) a t → ∃ s', step s a s' ∧ I s' ∧ proj s' = t)
    {t t' : τ} (h : Run other t as t') (hs : I s) (ht : proj s = t) :
    ∃ s', Run step s as s' ∧ I s' ∧ proj s' = t' := by
  induction h generalizing s with
  | refl => exact ⟨s, .refl s, hs, ht⟩
  | cons ha _ ih =>
    obtain ⟨s₁, hstep, hs₁, ht₁⟩ := hlift _ _ _ hs (ht ▸ ha)
    obtain ⟨s', hrun, hs', ht'⟩ := ih hs₁ ht₁
    exact ⟨s', .cons hstep hrun, hs', ht'⟩

/-- A condition on the labels alone. -/
lemma Run.guarded_of_mem {P : α → Prop} (h : Run step s as s') (hP : ∀ a ∈ as, P a) :
    Run (Guarded step fun _ a => P a) s as s' := by
  induction h with
  | refl => exact .refl _
  | cons ha _ ih =>
    have hhead := hP _ (List.mem_cons_self ..)
    exact .cons ⟨ha, hhead⟩ (ih fun a hmem => hP a (List.mem_cons_of_mem _ hmem))

/-- The run of a partial step function along a list of labels. -/
def runFrom (f : σ → α → Option σ) : σ → List α → Option σ
  | s, [] => some s
  | s, a :: as => (f s a).bind fun s' => runFrom f s' as

lemma run_graph_iff {f : σ → α → Option σ} : Run (Graph f) s as s' ↔ runFrom f s as = some s' := by
  induction as generalizing s with
  | nil => simp [runFrom]
  | cons a as ih => simp [runFrom, Graph, Option.bind_eq_some_iff, ih]

/-- The guarded steps of a partial step function, with a decidable guard. -/
def guardedStep (f : σ → α → Option σ) (p : σ → α → Bool) (s : σ) (a : α) : Option σ :=
  if p s a then f s a else none

lemma guarded_graph {f : σ → α → Option σ} {p : σ → α → Bool} {P : σ → α → Prop}
    (hp : ∀ s a, p s a = true → P s a) (h : Run (Graph (guardedStep f p)) s as s') :
    Run (Guarded (Graph f) P) s as s' := by
  refine h.mono fun s a s' hs => ?_
  unfold Graph guardedStep at hs
  split at hs
  · exact ⟨hs, hp s a ‹_›⟩
  · cases hs

/-- A run can be exhibited by evaluating the step function and testing the state it ends in. -/
lemma exists_run_of_any {f : σ → α → Option σ} {l : List α} {q : σ → Bool}
    (h : (runFrom f s l).any q = true) : ∃ s', Run (Graph f) s l s' ∧ q s' = true := by
  cases hs' : runFrom f s l with
  | none => simp [hs'] at h
  | some s' => exact ⟨s', run_graph_iff.mpr hs', by simpa [hs'] using h⟩

/-- The same from what an optional value starts, and with a guard on the steps. -/
lemma exists_guarded_run_of_any {τ : Type*} {f : σ → α → Option σ} {P : σ → α → Prop}
    [∀ s a, Decidable (P s a)] {o : Option τ} {g : τ → σ} {l : List α} {q : σ → Bool}
    (h : (o.bind fun x => runFrom (guardedStep f fun s a => P s a) (g x) l).any q = true) :
    ∃ x s', o = some x ∧ Run (Guarded (Graph f) P) (g x) l s' ∧ q s' = true := by
  cases o with
  | none => simp at h
  | some x =>
    rw [Option.bind_some] at h
    obtain ⟨s', hrun, hs'⟩ := exists_run_of_any h
    exact ⟨x, s', rfl, guarded_graph (fun _ _ hp => of_decide_eq_true hp) hrun, hs'⟩

end Transition
