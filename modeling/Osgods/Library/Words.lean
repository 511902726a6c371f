import Mathlib.Tactic.Common
import Mathlib.Data.List.GetD
import Mathlib.Data.List.TakeWhile
import Mathlib.Logic.Relation

/-!
# Words

The words of a list are its maximal runs of elements other than a separator. They do not change
when a separator is added next to another one or at either end.
-/

namespace Words

variable {α : Type*} [DecidableEq α] {sep : α} {l l' u v w : List α}

def words (sep : α) (l : List α) : List (List α) := (l.splitOnP (· = sep)).filter (· ≠ [])

/-- One separator is added, next to another one or at an end. -/
inductive Pad (sep : α) : List α → List α → Prop
  | front (l : List α) : Pad sep l (sep :: l)
  | back (l : List α)  : Pad sep l (l ++ [sep])
  | run (u v : List α) : Pad sep (u ++ sep :: v) (u ++ sep :: sep :: v)

/-- Two lists that differ only in the lengths of the runs of separators, where a run at either end
may also be missing. -/
def Respaced (sep : α) : List α → List α → Prop := Relation.EqvGen (Pad sep)

lemma words_append_sep (sep : α) (u v : List α) :
    words sep (u ++ sep :: v) = words sep u ++ words sep v := by
  have hsplit := List.splitOnP_append_cons (p := (· = sep)) u v (decide_eq_true (Eq.refl sep))
  rw [words, hsplit, List.filter_append]
  rfl

@[simp] lemma words_nil (sep : α) : words sep [] = [] := by simp [words]

lemma words_cons_sep (sep : α) (v : List α) : words sep (sep :: v) = words sep v :=
  words_append_sep sep [] v

lemma words_of_not_mem (h : sep ∉ w) (hne : w ≠ []) : words sep w = [w] := by
  have hsplit : w.splitOnP (· = sep) = [w] :=
    List.splitOnP_eq_singleton fun a ha => decide_eq_false fun heq => h (heq ▸ ha)
  rw [words, hsplit, List.filter_cons_of_pos (by simpa using hne), List.filter_nil]

lemma words_of_pad (h : Pad sep l l') : words sep l' = words sep l := by
  cases h with
  | front => exact words_cons_sep sep l
  | back => rw [words_append_sep, words_nil, List.append_nil]
  | run u v => rw [words_append_sep, words_append_sep, words_cons_sep]

/-- Spacing does not matter. -/
theorem words_of_respaced (h : Respaced sep l l') : words sep l' = words sep l := by
  induction h with
  | rel l l' h => exact words_of_pad h
  | refl => rfl
  | symm l l' _ ih => exact ih.symm
  | trans l l' l'' _ _ ih ih' => exact ih'.trans ih

/-! ### Cutting off the first word -/

/-- The first word, and what follows it. -/
def cut (sep : α) (l : List α) : List α × List α :=
  ((l.dropWhile (· = sep)).takeWhile (· ≠ sep), (l.dropWhile (· = sep)).dropWhile (· ≠ sep))

lemma words_dropWhile (sep : α) (l : List α) :
    words sep (l.dropWhile (· = sep)) = words sep l := by
  induction l with
  | nil => rfl
  | cons a l ih =>
    by_cases ha : a = sep
    · subst ha
      rw [List.dropWhile_cons_of_pos (by simp), ih, words_cons_sep]
    · rw [List.dropWhile_cons_of_neg (by simpa using ha)]

lemma sep_not_mem_takeWhile (sep : α) (l : List α) : sep ∉ l.takeWhile (· ≠ sep) := by
  intro hmem
  have hne := List.mem_takeWhile_imp hmem
  simp at hne

/-- What follows a word starts with a separator. -/
lemma dropWhile_ne_cases (sep : α) (l : List α) :
    l.dropWhile (· ≠ sep) = [] ∨ ∃ r, l.dropWhile (· ≠ sep) = sep :: r := by
  cases h : l.dropWhile (· ≠ sep) with
  | nil => exact Or.inl rfl
  | cons a r =>
    have hhead := List.head?_dropWhile_not (fun a => decide (a ≠ sep)) l
    rw [h] at hhead
    have ha : a = sep := by simpa using hhead
    exact Or.inr ⟨r, by rw [ha]⟩

/-- A list without a first word has no words. -/
lemma words_of_cut_eq_nil (h : (cut sep l).1 = []) : words sep l = [] ∧ (cut sep l).2 = [] := by
  rw [← words_dropWhile]
  unfold cut at h ⊢
  dsimp only at h ⊢
  cases hskip : l.dropWhile (· = sep) with
  | nil => exact ⟨words_nil sep, rfl⟩
  | cons a r =>
    have hhead := List.head?_dropWhile_not (fun a => decide (a = sep)) l
    rw [hskip] at hhead
    have ha : a ≠ sep := by simpa using hhead
    rw [hskip, List.takeWhile_cons_of_pos (by simpa using ha)] at h
    cases h

/-- The words of a list, one at a time. -/
lemma words_of_cut_ne_nil (h : (cut sep l).1 ≠ []) :
    words sep l = (cut sep l).1 :: words sep (cut sep l).2 := by
  rw [← words_dropWhile, ← List.takeWhile_append_dropWhile (p := (· ≠ sep)) (l := l.dropWhile _)]
  have hword : words sep (cut sep l).1 = [(cut sep l).1] :=
    words_of_not_mem (sep_not_mem_takeWhile sep _) h
  obtain hnil | ⟨r, hr⟩ := dropWhile_ne_cases sep (l.dropWhile (· = sep))
  · have hrest : (cut sep l).2 = [] := hnil
    rw [hnil, List.append_nil, hrest, words_nil]
    exact hword
  · have hrest : (cut sep l).2 = sep :: r := hr
    rw [hr, words_append_sep, hrest, words_cons_sep]
    exact congrArg (· ++ words sep r) hword

theorem getD_words_zero (sep : α) (l : List α) : (words sep l).getD 0 [] = (cut sep l).1 := by
  by_cases h : (cut sep l).1 = []
  · rw [(words_of_cut_eq_nil h).1, h]
    rfl
  · rw [words_of_cut_ne_nil h]
    rfl

theorem getD_words_one (sep : α) (l : List α) :
    (words sep l).getD 1 [] = (cut sep (cut sep l).2).1 := by
  by_cases h : (cut sep l).1 = []
  · obtain ⟨hwords, hrest⟩ := words_of_cut_eq_nil h
    rw [hwords, hrest]
    rfl
  · rw [words_of_cut_ne_nil h, List.getD_cons_succ, getD_words_zero]

end Words
