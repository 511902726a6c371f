import Osgods.Terminal.Console
import Osgods.Process.System

/-!
# Bounds of the console

The cursor stays on the grid and every access stays in its array, along every run in which a
backspace finds a character to go back over: one that `putc` has recorded, and, if it is a tab, one
that lies on the cursor's own line.
-/

namespace Osgods

open Transition

/-- A position on the 80 by 25 grid. -/
def OnGrid (x y : ℤ) : Prop := 0 ≤ x ∧ x < 80 ∧ 0 ≤ y ∧ y < 25

instance (x y : ℤ) : Decidable (OnGrid x y) := inferInstanceAs (Decidable (_ ∧ _))

namespace Console

/-- The history is within its arrays, and so has been every access. -/
structure Tidy (c : Console) : Prop where
  index  : 0 ≤ c.displayBufIndex ∧ c.displayBufIndex ≤ 2000
  prev   : ∀ i, 0 ≤ i → i < 25 → 0 ≤ c.prevScreenX i ∧ c.prevScreenX i < 80
  cursor : ∀ t, OnGrid (c.kernel.terminalList t).xCursor (c.kernel.terminalList t).yCursor
  inside : c.stray = false

structure Bounded (c : Console) : Prop extends Tidy c where
  grid : OnGrid c.kernel.screenX c.kernel.screenY

/-- A backspace finds a recorded character; if that is a tab, there is room to go back. -/
def PutcOk (c : Console) (ch : Byte) : Prop :=
  ch = chBackspace → c.displayBufIndex ≠ 0 ∧ c.displayBufIndex ≠ 2000 ∧
    (c.displayBuf (c.displayBufIndex - 1) = chTab → 4 ≤ c.kernel.screenX)

instance (c : Console) (ch : Byte) : Decidable (c.PutcOk ch) := inferInstanceAs (Decidable (_ → _))

section

variable {c : Console} {b ch : Byte} {x y i v : ℤ} {tid : Tid}

lemma within_iff {n : ℤ} : within i n = true ↔ 0 ≤ i ∧ i < n := by
  rw [within, decide_eq_true_eq]

lemma within_cells : within i (numCols * numRows) = true ↔ 0 ≤ i ∧ i < 2000 := within_iff

lemma within_rows : within i numRows = true ↔ 0 ≤ i ∧ i < 25 := within_iff

lemma within_cell (h : OnGrid c.kernel.screenX c.kernel.screenY) :
    within c.cell (numCols * numRows) = true := by
  obtain ⟨hx, hx', hy, hy'⟩ := h
  have hcell : c.cell = 80 * c.kernel.screenY + c.kernel.screenX := rfl
  rw [within_cells, hcell]
  constructor <;> omega

/-! ### Single assignments -/

namespace Tidy

lemma touch {ok : Bool} (h : c.Tidy) (hok : ok = true) : (c.touch ok).Tidy where
  index  := h.index
  prev   := h.prev
  cursor := h.cursor
  inside := by rw [touch_stray, h.inside, hok]; rfl

lemma moveTo (h : c.Tidy) (x y : ℤ) : (c.moveTo x y).Tidy := ⟨h.index, h.prev, h.cursor, h.inside⟩

lemma draw (h : c.Tidy) (b : Byte) (hgrid : OnGrid c.kernel.screenX c.kernel.screenY) :
    (c.draw b).Tidy :=
  touch ⟨h.index, h.prev, h.cursor, h.inside⟩ (within_cell hgrid)

lemma pushDisplay (h : c.Tidy) (b : Byte) (hlt : c.displayBufIndex < 2000) :
    (c.pushDisplay b).Tidy := by
  refine touch ⟨?_, h.prev, h.cursor, h.inside⟩ (within_cells.mpr ⟨h.index.1, hlt⟩)
  have hindex := h.index
  constructor <;> dsimp only <;> omega

lemma popDisplay (h : c.Tidy) (hpos : 0 < c.displayBufIndex) : c.popDisplay.Tidy := by
  have hindex := h.index
  refine touch ⟨?_, h.prev, h.cursor, h.inside⟩ (within_cells.mpr ?_)
  · constructor <;> dsimp only <;> omega
  · constructor <;> omega

lemma resetDisplay (h : c.Tidy) : c.resetDisplay.Tidy :=
  ⟨⟨le_refl (0 : ℤ), (by decide : (0 : ℤ) ≤ 2000)⟩, h.prev, h.cursor, h.inside⟩

lemma setLineIsFull (h : c.Tidy) (v : ℤ) (hi : 0 ≤ i) (hi' : i < 25) :
    (c.setLineIsFull i v).Tidy :=
  touch ⟨h.index, h.prev, h.cursor, h.inside⟩ (within_rows.mpr ⟨hi, hi'⟩)

lemma setPrevScreenX (h : c.Tidy) (hv : 0 ≤ v ∧ v < 80) (hi : 0 ≤ i) (hi' : i < 25) :
    (c.setPrevScreenX i v).Tidy := by
  refine touch ⟨h.index, fun j hj hj' => ?_, h.cursor, h.inside⟩ (within_rows.mpr ⟨hi, hi'⟩)
  dsimp only
  rw [Function.update_apply]
  split_ifs
  · exact hv
  · exact h.prev j hj hj'

lemma blankCells (h : c.Tidy) (lo hi : ℕ) : (c.blankCells lo hi).Tidy :=
  ⟨h.index, h.prev, h.cursor, h.inside⟩

lemma scroll (h : c.Tidy) : c.scroll.Tidy := by
  refine ⟨h.index, fun j hj hj' => ?_, h.cursor, h.inside⟩
  dsimp only [Console.scroll]
  split_ifs with hlast
  · have hj'' := (within_iff.mp hlast).2
    have hrows : numRows - 1 = 24 := rfl
    exact h.prev (j + 1) (by omega) (by omega)
  · exact h.prev j hj hj'

end Tidy

lemma Bounded.touch {ok : Bool} (h : c.Bounded) (hok : ok = true) : (c.touch ok).Bounded :=
  ⟨h.toTidy.touch hok, h.grid⟩

lemma Bounded.draw (h : c.Bounded) (b : Byte) : (c.draw b).Bounded :=
  ⟨h.toTidy.draw b h.grid, h.grid⟩

lemma Tidy.moveTo_bounded (h : c.Tidy) (hgrid : OnGrid x y) : (c.moveTo x y).Bounded :=
  ⟨h.moveTo x y, hgrid⟩

lemma Bounded.drawCursor (h : c.Bounded) (tid : Tid) : (c.drawCursor tid).Bounded := by
  have hdraw := h.draw chUnderscore
  refine ⟨⟨hdraw.index, hdraw.prev, fun t => ?_, hdraw.inside⟩, hdraw.grid⟩
  rw [drawCursor_kernel, Kernel.storeCursor, Kernel.updateTerminal_terminalList,
    Function.update_apply]
  split_ifs
  · exact h.grid
  · exact h.cursor t

/-! ### The branches of `putc` -/

lemma Bounded.erased (h : c.Bounded) (hpos : 0 < c.displayBufIndex) : c.erased.Bounded := by
  obtain ⟨hindex, hindex'⟩ := h.index
  refine (h.draw chSpace).touch (within_cells.mpr ?_)
  constructor <;> omega

lemma Bounded.backspace (h : c.Bounded) (hpos : 0 < c.displayBufIndex)
    (htab : c.displayBuf (c.displayBufIndex - 1) = chTab → 4 ≤ c.kernel.screenX) :
    c.backspace.Bounded := by
  obtain ⟨hx, hx', hy, hy'⟩ := h.grid
  have herased := h.erased hpos
  rw [backspace_eq]
  split_ifs with hlast hfirst hfull hcorner
  · have hroom := htab hlast
    exact (herased.popDisplay hpos).moveTo_bounded ⟨by omega, by omega, hy, hy'⟩
  · have hrow : within (c.kernel.screenY - 1) numRows = true := by
      rw [within_rows]
      constructor <;> omega
    have hline := ((herased.touch hrow).toTidy.moveTo 79 (c.kernel.screenY - 1)).setLineIsFull
      0 (i := c.kernel.screenY - 1) (by omega) (by omega)
    refine ⟨hline.popDisplay hpos, ?_⟩
    show OnGrid 79 (c.kernel.screenY - 1)
    exact ⟨by decide, by decide, by omega, by omega⟩
  · have hrow : within (c.kernel.screenY - 1) numRows = true := by
      rw [within_rows]
      constructor <;> omega
    have hprev := h.prev (c.kernel.screenY - 1) (by omega) (by omega)
    have hline := (((herased.touch hrow).toTidy.popDisplay hpos).touch hrow)
    exact hline.moveTo_bounded ⟨hprev.1, hprev.2, by omega, by omega⟩
  · exact ⟨herased.popDisplay hpos, h.grid⟩
  · refine ⟨(herased.toTidy.moveTo _ _).popDisplay hpos, ?_⟩
    show OnGrid (c.kernel.screenX - 1) c.kernel.screenY
    exact ⟨by omega, by omega, hy, hy'⟩

lemma Bounded.enter (h : c.Bounded) (ch : Byte) (hlt : c.displayBufIndex < 2000) :
    (c.enter ch).Bounded := by
  obtain ⟨hx, hx', hy, hy'⟩ := h.grid
  have hline : (((c.draw chSpace).pushDisplay ch).setPrevScreenX c.kernel.screenY
      c.kernel.screenX).Tidy :=
    (((h.draw chSpace).pushDisplay ch hlt).setPrevScreenX ⟨hx, hx'⟩ hy hy')
  unfold Console.enter
  dsimp only
  split_ifs with hlast
  · refine ⟨((hline.moveTo 0 _).scroll).blankCells 3840 4000, ?_⟩
    exact ⟨le_refl (0 : ℤ), (by decide : (0 : ℤ) < 80), hy, hy'⟩
  · refine hline.moveTo_bounded ⟨le_refl 0, by decide, ?_, ?_⟩
    · exact Int.add_nonneg hy (by decide)
    · have hlast' : c.kernel.screenY ≠ 24 := hlast
      show c.kernel.screenY + 1 < 25
      omega

lemma Bounded.drawSpace (h : c.Bounded) (hroom : c.kernel.screenX < 79) : c.drawSpace.Bounded := by
  obtain ⟨hx, hx', hy, hy'⟩ := h.grid
  exact (h.draw chSpace).toTidy.moveTo_bounded ⟨by omega, by omega, hy, hy'⟩

lemma Bounded.tab (h : c.Bounded) (hlt : c.displayBufIndex < 2000) (hroom : c.kernel.screenX < 75) :
    c.tab.Bounded := by
  have hpush : (c.pushDisplay chTab).Bounded := ⟨h.toTidy.pushDisplay chTab hlt, h.grid⟩
  have hstart : (c.pushDisplay chTab).kernel.screenX < 75 := hroom
  have hfirst := hpush.drawSpace (by omega)
  have hsecond := hfirst.drawSpace (by rw [drawSpace_screenX]; omega)
  have hthird := hsecond.drawSpace (by rw [drawSpace_screenX, drawSpace_screenX]; omega)
  exact hthird.drawSpace (by rw [drawSpace_screenX, drawSpace_screenX, drawSpace_screenX]; omega)

lemma Bounded.character (h : c.Bounded) (ch : Byte) (hlt : c.displayBufIndex < 2000) :
    (c.character ch).Bounded := by
  obtain ⟨hx, hx', hy, hy'⟩ := h.grid
  have hdrawn :
      (((c.draw ch).moveTo (c.kernel.screenX + 1) c.kernel.screenY).pushDisplay ch).Tidy :=
    ((h.draw ch).toTidy.moveTo _ _).pushDisplay ch hlt
  unfold Console.character
  dsimp only
  split_ifs with hwrap hbottom
  · have hbottom' : c.kernel.screenY < 24 := hbottom
    refine (hdrawn.setLineIsFull 1 hy hy').moveTo_bounded ⟨le_refl 0, by decide, ?_, ?_⟩
    · show 0 ≤ c.kernel.screenY + 1
      omega
    · show c.kernel.screenY + 1 < 25
      omega
  · refine ⟨(((hdrawn.moveTo 0 _).scroll).setLineIsFull 1 (by decide) (by decide)).blankCells
      3840 4000, ?_⟩
    show OnGrid 0 24
    decide
  · refine ⟨hdrawn, ?_⟩
    have hwrap' : c.kernel.screenX + 1 ≠ 80 := hwrap
    show OnGrid (c.kernel.screenX + 1) c.kernel.screenY
    exact ⟨by omega, by omega, hy, hy'⟩

/-! ### `putc` and `clear` -/

lemma Bounded.ready (h : c.Bounded) : c.ready.Bounded := by
  have hkeyb : { c with keybPressed := false }.Bounded :=
    ⟨⟨h.index, h.prev, h.cursor, h.inside⟩, h.grid⟩
  unfold Console.ready
  dsimp only
  split
  · exact ⟨hkeyb.resetDisplay, h.grid⟩
  · exact hkeyb

lemma Bounded.ready_lt (h : c.Bounded) : c.ready.displayBufIndex < 2000 := by
  have hindex := h.index
  rw [ready_displayBufIndex]
  split_ifs <;> omega

lemma Bounded.putc (h : c.Bounded) (hok : c.PutcOk ch) : (c.putc ch).Bounded := by
  have hready := h.ready
  have hlt := h.ready_lt
  rw [putc_eq]
  split_ifs with hback henter htab hroom
  · obtain ⟨hzero, hfull, hlast⟩ := hok hback
    refine Bounded.drawCursor (hready.backspace ?_ ?_) _
    · have hindex := h.index
      rw [ready_displayBufIndex, if_neg hfull]
      omega
    · rw [ready_kernel, ready_of_ne hfull]
      exact hlast
  · exact (hready.enter ch hlt).drawCursor _
  · exact hready
  · exact (hready.tab hlt (by omega)).drawCursor _
  · exact (hready.character ch hlt).drawCursor _

/-- What has gone astray stays astray. -/
lemma stray_backspace (h : c.erased.stray = true) (tid : Tid) :
    (c.backspace.drawCursor tid).stray = true := by
  have hdraw : ∀ d : Console, d.stray = true → (d.drawCursor tid).stray = true := by
    intro d hd
    show (d.stray || _) = true
    rw [hd, Bool.true_or]
  apply hdraw
  rw [backspace_eq]
  split_ifs <;> simp [h]

/-- Any other backspace leads out of the bounds. -/
lemma putcOk_of_bounded (hput : (c.putc ch).Bounded) : c.PutcOk ch := by
  intro hback
  rw [putc_eq, if_pos hback] at hput
  have hpos : 0 < c.ready.displayBufIndex := by
    by_contra hzero
    have hstray : c.ready.erased.stray = true := by
      have hout : within (c.ready.displayBufIndex - 1) (numCols * numRows) = false := by
        rw [within, decide_eq_false_iff_not]
        omega
      show (_ || !within (c.ready.displayBufIndex - 1) (numCols * numRows)) = true
      rw [hout, Bool.not_false, Bool.or_true]
    have hinside := hput.inside
    rw [stray_backspace hstray] at hinside
    cases hinside
  rw [ready_displayBufIndex] at hpos
  split_ifs at hpos with hfull
  · cases hpos
  · refine ⟨hpos.ne', hfull, fun hlast => ?_⟩
    have hgrid := hput.grid.1
    rw [ready_of_ne hfull, backspace_eq, if_pos hlast] at hgrid
    have hback : 0 ≤ c.kernel.screenX - 4 := hgrid
    omega

/-- The condition is exact. -/
lemma Bounded.putc_iff (h : c.Bounded) : (c.putc ch).Bounded ↔ c.PutcOk ch :=
  ⟨putcOk_of_bounded, h.putc⟩

lemma Bounded.clear (h : c.Bounded) : c.clear.Bounded := by
  refine ⟨⟨h.index, h.prev, fun t => ?_, h.inside⟩, ?_⟩
  · show OnGrid (Function.update c.kernel.terminalList _ _ t).xCursor
      (Function.update c.kernel.terminalList _ _ t).yCursor
    rw [Function.update_apply]
    split_ifs
    · show OnGrid 0 0
      decide
    · exact h.cursor t
  · show OnGrid 0 0
    decide

end

/-! ### Runs -/

/-- What the kernel does with the console. An echo is a `putc` right after `set_keyb_pressed`;
`select` is all that a tick or a terminal switch does between two of the others. -/
inductive Op where
  | putc (ch : Byte)
  | echo (ch : Byte)
  | clear
  | updateScreenXY (t : Tid)
  | select (display scheduled : Tid) (target : Word)

def step (c : Console) : Op → Console
  | .putc ch          => c.putc ch
  | .echo ch          => c.setKeybPressed.putc ch
  | .clear            => c.clear
  | .updateScreenXY t =>
    c.moveTo (c.kernel.terminalList t).xCursor (c.kernel.terminalList t).yCursor
  | .select display scheduled target =>
    { c with
      kernel := { c.kernel with
        currTerminalNum := display, scheduledTerminal := scheduled, videoMem := target } }

def OpOk (c : Console) : Op → Prop
  | .putc ch => c.PutcOk ch
  | .echo ch => c.PutcOk ch
  | _        => True

instance (c : Console) (op : Op) : Decidable (c.OpOk op) :=
  match op with
  | .putc ch          => inferInstanceAs (Decidable (c.PutcOk ch))
  | .echo ch          => inferInstanceAs (Decidable (c.PutcOk ch))
  | .clear            => inferInstanceAs (Decidable True)
  | .updateScreenXY _ => inferInstanceAs (Decidable True)
  | .select _ _ _     => inferInstanceAs (Decidable True)

/-- The console before anything is printed, over any content of the video pages. -/
def boot (L : Layout) (memory : Word → Byte) : Console where
  kernel          := bootKernel L
  memory          := memory
  keybPressed     := false
  displayBuf      := fun _ => 0
  displayBufIndex := 0
  prevScreenX     := fun _ => 0
  lineIsFull      := fun _ => 0
  stray           := false

lemma boot_bounded (L : Layout) (memory : Word → Byte) : (boot L memory).Bounded where
  index  := ⟨le_refl (0 : ℤ), (by decide : (0 : ℤ) ≤ 2000)⟩
  prev   := fun _ _ _ => ⟨le_refl (0 : ℤ), (by decide : (0 : ℤ) < 80)⟩
  cursor := fun _ => (by decide : OnGrid 0 0)
  inside := rfl
  grid   := (by decide : OnGrid 0 0)

lemma Bounded.step {c : Console} {op : Op} (h : c.Bounded) (hok : c.OpOk op) :
    (c.step op).Bounded := by
  cases op with
  | putc ch => exact h.putc hok
  | echo ch =>
    have hkeyb : c.setKeybPressed.Bounded := ⟨⟨h.index, h.prev, h.cursor, h.inside⟩, h.grid⟩
    exact hkeyb.putc hok
  | clear => exact h.clear
  | updateScreenXY t => exact h.moveTo_bounded (h.cursor t)
  | select display scheduled target => exact ⟨⟨h.index, h.prev, h.cursor, h.inside⟩, h.grid⟩

end Console

/-- Along every run in which each backspace finds a character to go back over, the cursor stays on
the grid and every access in its array. -/
theorem console_bounds {L : Layout} {memory : Word → Byte} {ops : List Console.Op} {c : Console}
    (hrun : Run (Guarded (Graph fun c op => some (Console.step c op)) Console.OpOk)
      (Console.boot L memory) ops c) :
    0 ≤ c.kernel.screenX ∧ c.kernel.screenX < 80 ∧ 0 ≤ c.kernel.screenY ∧ c.kernel.screenY < 25 ∧
      0 ≤ c.displayBufIndex ∧ c.displayBufIndex ≤ 2000 ∧ c.stray = false ∧
      ∀ ch, (c.putc ch).Bounded ↔ c.PutcOk ch := by
  have hbounded : c.Bounded := by
    refine hrun.invariant ?_ (Console.boot_bounded L memory)
    intro c op c' hc hstep
    obtain ⟨heq, hok⟩ := hstep
    obtain rfl := Option.some.inj heq
    exact hc.step hok
  obtain ⟨hx, hx', hy, hy'⟩ := hbounded.grid
  exact ⟨hx, hx', hy, hy', hbounded.index.1, hbounded.index.2, hbounded.inside,
    fun _ => hbounded.putc_iff⟩

/-- An `a` that is taken back. -/
theorem console_bounds_small : ∃ c,
    Run (Graph fun c op => some (Console.step c op)) (Console.boot smallKernel.layout fun _ => 0)
      [.putc 0x61, .putc chBackspace] c ∧ 0 ≤ c.kernel.screenX ∧ c.stray = false := by
  have h : (runFrom (guardedStep (fun c op => some (Console.step c op)) fun c op => c.OpOk op)
      (Console.boot smallKernel.layout fun _ => 0)
      [.putc 0x61, .putc chBackspace]).any (fun _ => true) = true := by
    decide +kernel
  obtain ⟨c, hrun, -⟩ := exists_run_of_any h
  have hguarded := guarded_graph (fun _ _ hp => of_decide_eq_true hp) hrun
  have hbounds := console_bounds hguarded
  exact ⟨c, hguarded.of_guarded, hbounds.1, hbounds.2.2.2.2.2.2.1⟩

/-- A tab on the first terminal's screen is taken back on the second one's. -/
theorem console_bounds_tab : ∃ c,
    Run (Graph fun c op => some (Console.step c op)) (Console.boot smallKernel.layout fun _ => 0)
      [.putc chTab, .select 0 1 (videoPage 1), .updateScreenXY 1, .putc chBackspace] c ∧
      c.kernel.screenX = -4 ∧ c.stray = true := by
  have h : (runFrom (fun c op => some (Console.step c op))
      (Console.boot smallKernel.layout fun _ => 0)
      [.putc chTab, .select 0 1 (videoPage 1), .updateScreenXY 1, .putc chBackspace]).any
        (fun c => decide (c.kernel.screenX = -4 ∧ c.stray = true)) = true := by
    decide +kernel
  obtain ⟨c, hrun, hq⟩ := exists_run_of_any h
  exact ⟨c, hrun, of_decide_eq_true hq⟩

end Osgods
