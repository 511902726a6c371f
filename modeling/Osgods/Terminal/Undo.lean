import Osgods.Terminal.Bounds

/-!
# A backspace after a character

`putc` keeps three tables for a backspace: the characters it has put, the lines that are full, and
the column in which a line was ended. This module says for which characters a backspace finds the
way back, on a console that has only been printed on and cleared.
-/

namespace Osgods

open Transition

namespace Console

def cursor (c : Console) : ℤ × ℤ := (c.kernel.screenX, c.kernel.screenY)

/-- The cursor is on the grid, and the index of the history in its range. -/
structure Kept (c : Console) : Prop where
  grid  : OnGrid c.kernel.screenX c.kernel.screenY
  index : 0 ≤ c.displayBufIndex ∧ c.displayBufIndex ≤ 2000

instance decidableKept (c : Console) : Decidable c.Kept :=
  decidable_of_iff (OnGrid c.kernel.screenX c.kernel.screenY ∧
      0 ≤ c.displayBufIndex ∧ c.displayBufIndex ≤ 2000)
    ⟨fun h => ⟨h.1, h.2⟩, fun h => ⟨h.grid, h.index⟩⟩

/-- Calls of `putc` and of `clear` that keep to these bounds. -/
inductive Prints : Console → Op → Console → Prop where
  | putc (c : Console) (ch : Byte) (h : (c.putc ch).Kept) : Prints c (.putc ch) (c.putc ch)
  | clear (c : Console) (h : c.clear.Kept) : Prints c .clear c.clear

/-- `putc` of the character moves the lines up. -/
def Scrolls (c : Console) (ch : Byte) : Prop :=
  c.kernel.screenY = 24 ∧ (ch = chNewline ∨ ch = chReturn ∨
    ch ≠ chBackspace ∧ ch ≠ chTab ∧ c.kernel.screenX = 79)

/-- There is a way back: for the end of a line, if that line is not marked as full or ends in its
last column; for a tab, if it is not dropped and is not the last one that the history has room
for. -/
def Undoable (c : Console) (ch : Byte) : Prop :=
  if ch = chNewline ∨ ch = chReturn then
    c.lineIsFull c.kernel.screenY ≠ 1 ∨ c.kernel.screenX = 79
  else if ch = chTab then c.kernel.screenX < 75 ∧ c.ready.displayBufIndex ≠ 1999
  else True

/-- The character that a backspace looks at. -/
def lastChar (c : Console) : Byte := c.ready.displayBuf (c.ready.displayBufIndex - 1)

section

variable {c d : Console} {ch : Byte} {x y : ℤ}

lemma ready_lineIsFull (c : Console) : c.ready.lineIsFull = c.lineIsFull := by
  unfold ready
  dsimp only
  split <;> rfl

lemma ready_prevScreenX (c : Console) : c.ready.prevScreenX = c.prevScreenX := by
  unfold ready
  dsimp only
  split <;> rfl

/-! ### Backwards -/

lemma cursor_backspace : (c.putc chBackspace).cursor =
    if c.lastChar = chTab then (c.kernel.screenX - 4, c.kernel.screenY)
    else if c.kernel.screenX = 0 ∧ c.kernel.screenY ≠ 0 then
      if c.lineIsFull (c.kernel.screenY - 1) = 1 then (79, c.kernel.screenY - 1)
      else (c.prevScreenX (c.kernel.screenY - 1), c.kernel.screenY - 1)
    else if c.kernel.screenX = 0 ∧ c.kernel.screenY = 0 then (c.kernel.screenX, c.kernel.screenY)
    else (c.kernel.screenX - 1, c.kernel.screenY) := by
  rw [lastChar, putc_eq, if_pos rfl, backspace_eq, ready_kernel, ready_lineIsFull,
    ready_prevScreenX]
  have hscreen : ∀ e : Console, (e.drawCursor c.target).cursor = e.cursor := fun _ => rfl
  rw [hscreen]
  split_ifs with hlast hfirst hfull hcorner
  · rfl
  · rfl
  · rfl
  · show (c.ready.kernel.screenX, c.ready.kernel.screenY) = _
    rw [ready_kernel]
  · rfl

/-! ### Forwards -/

/-- What a backspace needs to know about a console that has been printed on. -/
structure Printed (c : Console) : Prop extends Kept c where
  before : c.displayBuf (-1) = 0

lemma Printed.ready_before (h : c.Printed) : c.ready.displayBuf (-1) = 0 := by
  unfold ready
  dsimp only
  split
  · exact h.before
  · exact h.before

lemma Printed.ready_index (h : c.Printed) :
    0 ≤ c.ready.displayBufIndex ∧ c.ready.displayBufIndex < 2000 := by
  have hindex := h.index
  rw [ready_displayBufIndex]
  split_ifs <;> omega

/-- What a character that is not dropped leaves for the next `putc`. -/
lemma Printed.lastChar_of_push (h : c.Printed)
    (hbuf : d.displayBuf = Function.update c.ready.displayBuf c.ready.displayBufIndex ch)
    (hd : d.displayBufIndex = c.ready.displayBufIndex + 1) :
    d.lastChar = if c.ready.displayBufIndex = 1999 then 0 else ch := by
  have hindex := h.ready_index
  unfold lastChar
  split_ifs with hfull
  · -- the history is cleared, and the character before it is looked at
    have hd' : d.displayBufIndex = 2000 := by rw [hd, hfull]; rfl
    have hreset : d.ready = { d with keybPressed := false }.resetDisplay := if_pos hd'
    rw [hreset]
    show d.displayBuf (-1) = 0
    rw [hbuf, Function.update_of_ne (by omega), h.ready_before]
  · have hd' : d.displayBufIndex ≠ 2000 := by omega
    rw [ready_of_ne hd']
    show d.displayBuf (d.displayBufIndex - 1) = ch
    rw [hbuf, hd, Int.add_sub_cancel, Function.update_self]

/-- The character is put in the history, and the cursor goes to `(x, y)`. -/
structure Puts (c d : Console) (ch : Byte) (x y : ℤ) : Prop where
  screenX : d.kernel.screenX = x
  screenY : d.kernel.screenY = y
  buf     : d.displayBuf = Function.update c.displayBuf c.displayBufIndex ch
  index   : d.displayBufIndex = c.displayBufIndex + 1

lemma Puts.drawCursor (h : Puts c d ch x y) (tid : Tid) : Puts c (d.drawCursor tid) ch x y :=
  ⟨h.screenX, h.screenY, h.buf, h.index⟩

lemma enter_puts (ch : Byte) (hrow : c.kernel.screenY ≠ 24) :
    Puts c (c.enter ch) ch 0 (c.kernel.screenY + 1) ∧ (c.enter ch).lineIsFull = c.lineIsFull ∧
      (c.enter ch).prevScreenX c.kernel.screenY = c.kernel.screenX := by
  have heq : c.enter ch = (((c.draw chSpace).pushDisplay ch).setPrevScreenX c.kernel.screenY
      c.kernel.screenX).moveTo 0 (c.kernel.screenY + 1) := if_neg hrow
  rw [heq]
  exact ⟨⟨rfl, rfl, rfl, rfl⟩, rfl, Function.update_self _ _ _⟩

lemma tab_puts : Puts c c.tab chTab (c.kernel.screenX + 4) c.kernel.screenY := by
  refine ⟨?_, rfl, rfl, rfl⟩
  show c.kernel.screenX + 1 + 1 + 1 + 1 = c.kernel.screenX + 4
  omega

lemma character_puts (ch : Byte) (hcol : c.kernel.screenX ≠ 79) :
    Puts c (c.character ch) ch (c.kernel.screenX + 1) c.kernel.screenY := by
  have hcol' : ¬ c.kernel.screenX + 1 = 80 := by omega
  have heq : c.character ch = ((c.draw ch).moveTo (c.kernel.screenX + 1)
      c.kernel.screenY).pushDisplay ch := if_neg hcol'
  rw [heq]
  exact ⟨rfl, rfl, rfl, rfl⟩

lemma character_wrap_puts (ch : Byte) (hcol : c.kernel.screenX = 79)
    (hrow : c.kernel.screenY < 24) : Puts c (c.character ch) ch 0 (c.kernel.screenY + 1) ∧
      (c.character ch).lineIsFull c.kernel.screenY = 1 := by
  have hcol' : c.kernel.screenX + 1 = 80 := by omega
  have heq : c.character ch = ((((c.draw ch).moveTo (c.kernel.screenX + 1)
      c.kernel.screenY).pushDisplay ch).setLineIsFull c.kernel.screenY 1).moveTo 0
        (c.kernel.screenY + 1) := (if_pos hcol').trans (if_pos hrow)
  rw [heq]
  exact ⟨⟨rfl, rfl, rfl, rfl⟩, Function.update_self _ _ _⟩

/-! ### There and back -/

lemma Printed.lastChar_ne (h : c.Printed) (hputs : Puts c.ready d ch x y) (hch : ch ≠ chTab) :
    d.lastChar ≠ chTab := by
  rw [h.lastChar_of_push hputs.buf hputs.index]
  split_ifs
  · decide
  · exact hch

/-- The end of a line. -/
lemma undo_enter (h : c.Printed) (hch : ch = chNewline ∨ ch = chReturn)
    (hrow : c.kernel.screenY ≠ 24) :
    ((c.putc ch).putc chBackspace).cursor = c.cursor ↔
      c.lineIsFull c.kernel.screenY ≠ 1 ∨ c.kernel.screenX = 79 := by
  have hback : ch ≠ chBackspace := by rcases hch with rfl | rfl <;> decide
  have htab : ch ≠ chTab := by rcases hch with rfl | rfl <;> decide
  have hput : c.putc ch = (c.ready.enter ch).drawCursor c.target := by
    rw [putc_eq, if_neg hback, if_pos hch]
  obtain ⟨hputs, hfull, hprev⟩ := enter_puts ch (c := c.ready) (by rwa [ready_kernel])
  have hputs' := hputs.drawCursor c.target
  have hlast := h.lastChar_ne hputs' htab
  rw [← hput] at hputs' hlast
  have hfull' : (c.putc ch).lineIsFull = c.lineIsFull := by
    rw [hput, ← ready_lineIsFull c]
    exact hfull
  have hprev' : (c.putc ch).prevScreenX c.kernel.screenY = c.kernel.screenX := by
    rw [hput, ← ready_kernel c]
    exact hprev
  obtain ⟨-, -, hy, -⟩ := h.grid
  rw [cursor_backspace, if_neg hlast, hputs'.screenX, hputs'.screenY, ready_kernel,
    if_pos ⟨rfl, by omega⟩, Int.add_sub_cancel, hfull', hprev', cursor]
  split_ifs with hline
  · rw [Prod.mk.injEq]
    constructor
    · rintro ⟨hx, -⟩
      exact .inr hx.symm
    · rintro (hne | hx)
      · exact absurd hline hne
      · exact ⟨hx.symm, rfl⟩
  · exact iff_of_true rfl (.inl hline)

/-- A tab that is not dropped. -/
lemma undo_tab (h : c.Printed) (hcol : c.kernel.screenX < 75) :
    ((c.putc chTab).putc chBackspace).cursor = c.cursor ↔ c.ready.displayBufIndex ≠ 1999 := by
  have hput : c.putc chTab = c.ready.tab.drawCursor c.target := by
    rw [putc_eq, if_neg (by decide), if_neg (by decide), if_pos rfl, ready_kernel,
      if_neg (by omega)]
  have hputs := (tab_puts (c := c.ready)).drawCursor c.target
  rw [← hput] at hputs
  have hlast := h.lastChar_of_push hputs.buf hputs.index
  obtain ⟨hx, -, -, -⟩ := h.grid
  rw [cursor_backspace, hlast, hputs.screenX, hputs.screenY, ready_kernel, cursor]
  by_cases hfull : c.ready.displayBufIndex = 1999
  · -- the tab is forgotten before the backspace looks for it
    rw [if_pos hfull, if_neg (by decide : (0 : Byte) ≠ chTab), if_neg (by omega), if_neg (by omega)]
    refine iff_of_false ?_ (not_not.mpr hfull)
    rw [Prod.mk.injEq]
    omega
  · rw [if_neg hfull, if_pos rfl, Int.add_sub_cancel]
    exact iff_of_true rfl hfull

/-- A tab that is dropped: the backspace takes back what stands before it. -/
lemma undo_dropped (hcol : 75 ≤ c.kernel.screenX) :
    (c.putc chTab).cursor = c.cursor ∧
      ((c.putc chTab).putc chBackspace).cursor ≠ c.cursor := by
  have hput : c.putc chTab = c.ready := by
    rw [putc_eq, if_neg (by decide), if_neg (by decide), if_pos rfl, ready_kernel, if_pos hcol]
  rw [hput]
  constructor
  · rw [cursor, ready_kernel, cursor]
  · rw [cursor_backspace, ready_kernel, cursor]
    split_ifs
    all_goals
      simp only [ne_eq, Prod.mk.injEq]
      omega

/-- Any other character. -/
lemma undo_character (h : c.Printed) (hback : ch ≠ chBackspace)
    (hline : ¬ (ch = chNewline ∨ ch = chReturn)) (htab : ch ≠ chTab)
    (hscroll : ¬ (c.kernel.screenY = 24 ∧ c.kernel.screenX = 79)) :
    ((c.putc ch).putc chBackspace).cursor = c.cursor := by
  have hput : c.putc ch = (c.ready.character ch).drawCursor c.target := by
    rw [putc_eq, if_neg hback, if_neg hline, if_neg htab]
  obtain ⟨hx, hx', hy, hy'⟩ := h.grid
  by_cases hcol : c.kernel.screenX = 79
  · obtain ⟨hputs, hfull⟩ := character_wrap_puts ch (c := c.ready) (by rwa [ready_kernel])
      (by rw [ready_kernel]; omega)
    have hputs' := hputs.drawCursor c.target
    have hlast := h.lastChar_ne hputs' htab
    rw [← hput] at hputs' hlast
    have hfull' : (c.putc ch).lineIsFull c.kernel.screenY = 1 := by
      rw [hput, ← ready_kernel c]
      exact hfull
    rw [cursor_backspace, if_neg hlast, hputs'.screenX, hputs'.screenY, ready_kernel,
      if_pos ⟨rfl, by omega⟩, Int.add_sub_cancel, if_pos hfull', cursor, hcol]
  · have hputs := (character_puts ch (c := c.ready) (by rwa [ready_kernel])).drawCursor
      c.target
    have hlast := h.lastChar_ne hputs htab
    rw [← hput] at hputs hlast
    rw [cursor_backspace, if_neg hlast, hputs.screenX, hputs.screenY, ready_kernel,
      if_neg (by omega), if_neg (by omega), Int.add_sub_cancel, cursor]

/-- The condition is exact. -/
theorem undo_iff (h : c.Printed) (hback : ch ≠ chBackspace) (hscroll : ¬ c.Scrolls ch) :
    ((c.putc ch).putc chBackspace).cursor = c.cursor ↔ c.Undoable ch := by
  unfold Undoable
  split_ifs with hline htab
  · refine undo_enter h hline fun hrow => hscroll ⟨hrow, ?_⟩
    exact hline.elim .inl fun hreturn => .inr (.inl hreturn)
  · subst htab
    by_cases hcol : c.kernel.screenX < 75
    · rw [undo_tab h hcol, and_iff_right hcol]
    · exact iff_of_false (undo_dropped (by omega)).2 fun hcol' => hcol hcol'.1
  · refine iff_of_true (undo_character h hback hline htab fun hcorner => ?_) trivial
    exact hscroll ⟨hcorner.1, .inr (.inr ⟨hback, htab, hcorner.2⟩)⟩

/-! ### Runs -/

lemma backspace_displayBuf (c : Console) :
    c.backspace.displayBuf = Function.update c.displayBuf (c.displayBufIndex - 1) 0 := by
  rw [backspace_eq]
  split_ifs <;> rfl

lemma enter_displayBuf (c : Console) (ch : Byte) :
    (c.enter ch).displayBuf = Function.update c.displayBuf c.displayBufIndex ch := by
  unfold enter
  dsimp only
  split_ifs <;> rfl

lemma character_displayBuf (c : Console) (ch : Byte) :
    (c.character ch).displayBuf = Function.update c.displayBuf c.displayBufIndex ch := by
  unfold character
  dsimp only
  split_ifs <;> rfl

lemma Printed.putc_before (h : c.Printed) (ch : Byte) : (c.putc ch).displayBuf (-1) = 0 := by
  have hput : ∀ b : Byte,
      Function.update c.ready.displayBuf c.ready.displayBufIndex b (-1) = 0 := by
    intro b
    have hindex := h.ready_index
    rw [Function.update_of_ne (by omega), h.ready_before]
  have hscreen : ∀ e : Console, (e.drawCursor c.target).displayBuf = e.displayBuf := fun _ => rfl
  rw [putc_eq]
  split_ifs
  · rw [hscreen, backspace_displayBuf, Function.update_apply, h.ready_before, ite_self]
  · rw [hscreen, enter_displayBuf, hput]
  · exact h.ready_before
  · rw [hscreen, tab_puts.buf, hput]
  · rw [hscreen, character_displayBuf, hput]

lemma Printed.step {op : Op} (h : c.Printed) (hstep : Prints c op d) : d.Printed := by
  cases hstep with
  | putc ch hkept => exact ⟨hkept, h.putc_before ch⟩
  | clear hkept => exact ⟨hkept, h.before⟩

/-- `Prints` as a step function. -/
def printStep (c : Console) : Op → Option Console
  | .putc ch => if (c.putc ch).Kept then some (c.putc ch) else none
  | .clear   => if c.clear.Kept then some c.clear else none
  | _        => none

lemma prints_of_printStep {op : Op} (h : c.printStep op = some d) : Prints c op d := by
  cases op <;> simp only [printStep, Option.ite_none_right_eq_some, Option.some.injEq,
    reduceCtorEq] at h
  case putc ch =>
    obtain ⟨hkept, rfl⟩ := h
    exact .putc c ch hkept
  case clear =>
    obtain ⟨hkept, rfl⟩ := h
    exact .clear c hkept

/-- A run that can be evaluated, to a console whose cursor is on the first line. -/
lemma exists_on_first_line {L : Layout} {memory : Word → Byte} {ops : List Op} {ch : Byte} {x : ℤ}
    {p : ℤ × ℤ} (h : ((runFrom printStep (boot L memory) ops).any fun c =>
      decide (c.cursor = (x, 0) ∧ ((c.putc ch).putc chBackspace).cursor = p)) = true) :
    ∃ c, Run Prints (boot L memory) ops c ∧ ¬ c.Scrolls ch ∧ c.cursor = (x, 0) ∧
      ((c.putc ch).putc chBackspace).cursor = p := by
  obtain ⟨c, hrun, hq⟩ := exists_run_of_any h
  obtain ⟨hcursor, hback⟩ := of_decide_eq_true hq
  refine ⟨c, hrun.mono fun _ _ _ => prints_of_printStep, fun hscroll => ?_, hcursor, hback⟩
  have hzero : c.kernel.screenY = 0 := (Prod.mk.inj hcursor).2
  exact absurd (hscroll.1.symm.trans hzero) (by decide)

lemma boot_printed (L : Layout) (memory : Word → Byte) : (boot L memory).Printed :=
  ⟨⟨(boot_bounded L memory).grid, (boot_bounded L memory).index⟩, rfl⟩

/-- As many ends of lines as the history has room for. -/
lemma exists_newlines (L : Layout) (memory : Word → Byte) (n : ℕ) (hn : n < 2000) :
    ∃ c, Run Prints (boot L memory) (List.replicate n (.putc chNewline)) c ∧ c.Bounded ∧
      c.displayBufIndex = n ∧ c.kernel.screenX = 0 := by
  induction n with
  | zero => exact ⟨boot L memory, .refl _, boot_bounded L memory, rfl, rfl⟩
  | succ n ih =>
    obtain ⟨c, hrun, hbounded, hindex, -⟩ := ih (by omega)
    have hput : (c.putc chNewline).Bounded :=
      hbounded.putc fun hback => absurd hback (by decide)
    have hready : c.ready = { c with keybPressed := false } := ready_of_ne (by omega)
    have henter : ∀ e : Console, (e.enter chNewline).displayBufIndex = e.displayBufIndex + 1 ∧
        (e.enter chNewline).kernel.screenX = 0 := by
      intro e
      unfold enter
      dsimp only
      split_ifs <;> exact ⟨rfl, rfl⟩
    refine ⟨c.putc chNewline, ?_, hput, ?_, (henter c.ready).2⟩
    · rw [List.replicate_succ']
      exact hrun.snoc (.putc c chNewline ⟨hput.grid, hput.index⟩)
    · refine (henter c.ready).1.trans ?_
      rw [hready]
      show c.displayBufIndex + 1 = ((n + 1 : ℕ) : ℤ)
      omega

end

end Console

/-- After any calls of `putc` and `clear` that keep to the bounds, a backspace takes the cursor back
over a character that does not scroll: over any character of a line, over the end of a line unless
the line is still marked as full, and over a tab that is not dropped, unless the history has no more
room behind it. A tab that is dropped leaves the cursor where it is. -/
theorem putc_undone {L : Layout} {memory : Word → Byte} {ops : List Console.Op} {c : Console}
    {ch : Byte} (hrun : Run Console.Prints (Console.boot L memory) ops c) (hback : ch ≠ chBackspace)
    (hscroll : ¬ c.Scrolls ch) :
    (c.Undoable ch → ((c.putc ch).putc chBackspace).cursor = c.cursor) ∧
      (ch = chTab → 75 ≤ c.kernel.screenX → (c.putc ch).cursor = c.cursor) := by
  have hprinted : c.Printed :=
    hrun.invariant (fun _ _ _ h hstep => h.step hstep) (Console.boot_printed L memory)
  refine ⟨(Console.undo_iff hprinted hback hscroll).mpr, fun htab hcol => ?_⟩
  subst htab
  exact (Console.undo_dropped hcol).1

theorem putc_undone_newline : ∃ c, Run Console.Prints (Console.boot smallKernel.layout fun _ => 0)
    [.putc 0x61] c ∧ ((c.putc chNewline).putc chBackspace).cursor = c.cursor := by
  have hrun : Run Console.Prints (Console.boot smallKernel.layout fun _ => 0) [.putc 0x61]
      ((Console.boot smallKernel.layout fun _ => 0).putc 0x61) :=
    .cons (.putc _ _ (by decide +kernel)) (.refl _)
  have hback : chNewline ≠ chBackspace := by decide
  have hundone := (putc_undone hrun hback fun hscroll => absurd hscroll.1 (by decide)).1
  refine ⟨_, hrun, hundone ?_⟩
  rw [Console.Undoable, if_pos (.inl rfl)]
  exact .inl (by decide)

/-- A tab that is dropped, the end of a line that `clear` has left marked as full, and a tab that is
the last character the history has room for: a backspace does not take the cursor back. -/
theorem not_putc_undone :
    (∃ c, Run Console.Prints (Console.boot smallKernel.layout fun _ => 0)
      (List.replicate 18 (.putc chTab) ++ List.replicate 3 (.putc 0x61)) c ∧
      ¬ c.Scrolls chTab ∧ c.cursor = (75, 0) ∧
      ((c.putc chTab).putc chBackspace).cursor = (74, 0)) ∧
    (∃ c, Run Console.Prints (Console.boot smallKernel.layout fun _ => 0)
      (List.replicate 19 (.putc chTab) ++ List.replicate 4 (.putc 0x61) ++ [.clear]) c ∧
      ¬ c.Scrolls chNewline ∧ c.cursor = (0, 0) ∧
      ((c.putc chNewline).putc chBackspace).cursor = (79, 0)) ∧
    ∃ c, Run Console.Prints (Console.boot smallKernel.layout fun _ => 0)
      (List.replicate 1999 (.putc chNewline)) c ∧
      ¬ c.Scrolls chTab ∧ c.kernel.screenX < 75 ∧
      ((c.putc chTab).putc chBackspace).cursor ≠ c.cursor := by
  refine ⟨Console.exists_on_first_line (by decide +kernel),
    Console.exists_on_first_line (by decide +kernel), ?_⟩
  · obtain ⟨c, hrun, hbounded, hindex, hx⟩ := Console.exists_newlines smallKernel.layout
      (fun _ => 0) 1999 (by decide)
    have hprinted : c.Printed :=
      hrun.invariant (fun _ _ _ h hstep => h.step hstep) (Console.boot_printed _ _)
    have hscroll : ¬ c.Scrolls chTab := by
      rintro ⟨-, heq | heq | ⟨-, hne, -⟩⟩
      · exact absurd heq (by decide)
      · exact absurd heq (by decide)
      · exact hne rfl
    refine ⟨c, hrun, hscroll, by omega, fun hcursor => ?_⟩
    have hundoable := (Console.undo_iff hprinted (by decide) hscroll).mp hcursor
    rw [Console.Undoable, if_neg (by decide), if_pos rfl, Console.ready_displayBufIndex, hindex]
      at hundoable
    exact hundoable.2 rfl

end Osgods
