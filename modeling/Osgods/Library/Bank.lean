import Mathlib.Tactic.Common
import Mathlib.Logic.Function.Basic

/-!
# Banks

A bank is a family of values of which one, the active one, is held in a live cell while the others
are saved. What is saved for the active index is stale. A switch saves the live value and loads
another, so that the family that the bank stands for, its `view`, stays as it was.
-/

structure Bank (ι α : Type*) where
  active : ι
  live   : α
  saved  : ι → α

namespace Bank

variable {ι α : Type*} [DecidableEq ι]

/-- The family that a bank stands for. -/
def view (b : Bank ι α) (i : ι) : α := if i = b.active then b.live else b.saved i

def switch (j : ι) (b : Bank ι α) : Bank ι α where
  active := j
  live   := Function.update b.saved b.active b.live j
  saved  := Function.update b.saved b.active b.live

def modify (f : α → α) (b : Bank ι α) : Bank ι α := { b with live := f b.live }

variable (b : Bank ι α) (i j : ι) (f : α → α)

@[simp] lemma view_active : b.view b.active = b.live := if_pos rfl

lemma view_of_ne {i : ι} (h : i ≠ b.active) : b.view i = b.saved i := if_neg h

lemma view_eq_update : b.view = Function.update b.saved b.active b.live := by
  funext i
  rw [view, Function.update_apply]

@[simp] lemma view_switch : (b.switch j).view = b.view := by
  funext i
  by_cases hi : i = j
  · subst hi
    rw [view_eq_update b]
    exact view_active (b.switch i)
  · rw [view_eq_update b]
    exact view_of_ne (b.switch j) hi

lemma view_modify : (b.modify f).view = Function.update b.view b.active (f b.live) := by
  funext i
  by_cases hi : i = b.active
  · subst hi
    rw [Function.update_self]
    exact view_active (b.modify f)
  · rw [Function.update_of_ne hi, view_of_ne b hi]
    exact view_of_ne (b.modify f) hi

end Bank
