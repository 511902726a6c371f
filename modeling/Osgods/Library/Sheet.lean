import Mathlib.Tactic.Common
import Mathlib.Data.List.Basic

/-!
# Rows of text in a window

A sheet is set row by row, and a window shows its last `h` rows. Cells on which nothing has been set
are blank. Setting a cell changes one cell of the window; a new row either starts below the others
or moves them up.
-/

structure Sheet (α : Type*) where
  done : List (List α)
  row  : List α

namespace Sheet

variable {α : Type*}

/-- All rows, the one that is being set last. -/
def rows (t : Sheet α) : List (List α) := t.done ++ [t.row]

def empty : Sheet α := ⟨[], []⟩

def add (a : α) (t : Sheet α) : Sheet α := { t with row := t.row ++ [a] }

def newRow (t : Sheet α) : Sheet α := ⟨t.done ++ [t.row], []⟩

/-- The rows in the window. -/
def shown (h : ℕ) (t : Sheet α) : List (List α) := t.rows.drop (t.rows.length - h)

/-- The cell in the line `y` and the column `x` of the window. -/
def cell (h : ℕ) (blank : α) (t : Sheet α) (y x : ℕ) : α := (((t.shown h)[y]?).getD []).getD x blank

/-- The line of the window on which the next cell is set; its column is `t.row.length`. -/
def line (h : ℕ) (t : Sheet α) : ℕ := min t.done.length (h - 1)

variable {h x y : ℕ} {blank a : α} {t : Sheet α}

@[simp] lemma row_add : (t.add a).row = t.row ++ [a] := rfl

@[simp] lemma row_newRow : t.newRow.row = [] := rfl

@[simp] lemma line_add : (t.add a).line h = t.line h := rfl

lemma line_lt (hh : 0 < h) : t.line h < h := by
  unfold line
  omega

/-- A line of the window as a row of the sheet. -/
lemma shown_getElem? : (t.shown h)[y]? = t.rows[t.done.length + 1 - h + y]? := by
  rw [shown, List.getElem?_drop, rows, List.length_append, List.length_singleton]

lemma rows_getElem? (i : ℕ) : t.rows[i]? =
    if i < t.done.length then t.done[i]? else if i = t.done.length then some t.row else none := by
  rw [rows, List.getElem?_append]
  split_ifs with hlt heq
  · rfl
  · rw [heq, Nat.sub_self]
    rfl
  · rw [List.getElem?_eq_none]
    rw [List.length_singleton]
    omega

lemma cell_eq : t.cell h blank y x =
    ((t.rows[t.done.length + 1 - h + y]?).getD []).getD x blank := by
  rw [cell, shown_getElem?]

lemma getD_concat (l : List α) (a d : α) (i : ℕ) :
    (l ++ [a]).getD i d = if i = l.length then a else l.getD i d := by
  rw [List.getD_eq_getElem?_getD, List.getD_eq_getElem?_getD, List.getElem?_append]
  split_ifs with hlt heq heq
  · omega
  · rfl
  · rw [heq, Nat.sub_self]
    rfl
  · rw [List.getElem?_eq_none (by rw [List.length_singleton]; omega),
      List.getElem?_eq_none (by omega)]

lemma index_line (hh : 0 < h) : t.done.length + 1 - h + y = t.done.length ↔ y = t.line h := by
  unfold line
  omega

lemma cell_line (hh : 0 < h) : t.cell h blank (t.line h) x = t.row.getD x blank := by
  rw [cell_eq, (index_line hh).mpr rfl, rows_getElem?, if_neg (Nat.lt_irrefl _), if_pos rfl]
  rfl

/-- The line that is being set goes on blank. -/
lemma cell_of_length_le (hh : 0 < h) (hx : t.row.length ≤ x) :
    t.cell h blank (t.line h) x = blank := by
  rw [cell_line hh, List.getD_eq_getElem?_getD, List.getElem?_eq_none hx]
  rfl

lemma cell_empty : (empty : Sheet α).cell h blank y x = blank := by
  simp only [cell_eq, rows_getElem?, empty, List.length_nil, Nat.not_lt_zero, if_false]
  split_ifs <;> rfl

/-- A cell that is set. -/
theorem cell_add (hh : 0 < h) : (t.add a).cell h blank y x =
    if y = t.line h ∧ x = t.row.length then a else t.cell h blank y x := by
  by_cases hline : y = t.line h
  · subst hline
    have hadd : (t.add a).cell h blank (t.line h) x = (t.row ++ [a]).getD x blank :=
      cell_line (t := t.add a) hh
    rw [hadd, cell_line hh, getD_concat]
    simp only [true_and]
  · have hne : t.done.length + 1 - h + y ≠ t.done.length :=
      fun heq => hline ((index_line hh).mp heq)
    have hrow : (t.add a).rows[t.done.length + 1 - h + y]? =
        t.rows[t.done.length + 1 - h + y]? := by
      simp only [rows_getElem?, add, hne, if_false]
    rw [if_neg fun hand => hline hand.1, cell_eq, cell_eq]
    exact congrArg (fun r => (r.getD []).getD x blank) hrow

lemma rows_newRow_getElem? (i : ℕ) : (t.newRow.rows[i]?).getD [] = (t.rows[i]?).getD [] := by
  have happend : t.newRow.rows = t.rows ++ [[]] := rfl
  rw [happend, List.getElem?_append]
  split_ifs with hlt
  · rfl
  · rw [List.getElem?_eq_none (Nat.not_lt.mp hlt)]
    cases i - t.rows.length <;> rfl

/-- A new row below the others. -/
theorem cell_newRow_of_lt (hlt : t.done.length + 1 < h) :
    t.newRow.cell h blank y x = t.cell h blank y x ∧ t.newRow.line h = t.line h + 1 := by
  constructor
  · have hlen : t.newRow.done.length = t.done.length + 1 := List.length_append
    rw [cell_eq, cell_eq, rows_newRow_getElem?, hlen, Nat.sub_eq_zero_of_le (by omega),
      Nat.sub_eq_zero_of_le (by omega)]
  · have hlen : t.newRow.done.length = t.done.length + 1 := List.length_append
    unfold line
    omega

/-- A new row that moves the others up. -/
theorem cell_newRow_of_le (hle : h ≤ t.done.length + 1) (hh : 0 < h) :
    t.newRow.cell h blank y x = t.cell h blank (y + 1) x ∧ t.newRow.line h = t.line h ∧
      t.line h = h - 1 := by
  have hlen : t.newRow.done.length = t.done.length + 1 := List.length_append
  refine ⟨?_, ?_, ?_⟩
  · rw [cell_eq, cell_eq, rows_newRow_getElem?, hlen, Nat.sub_add_comm (by omega),
      Nat.add_right_comm, Nat.add_assoc]
  · unfold line
    omega
  · unfold line
    omega

/-- Below the last row. -/
lemma cell_bottom (hle : h ≤ t.done.length + 1) : t.cell h blank h x = blank := by
  have hlen : t.rows.length = t.done.length + 1 := List.length_append
  rw [cell_eq, List.getElem?_eq_none (by omega)]
  rfl

end Sheet
