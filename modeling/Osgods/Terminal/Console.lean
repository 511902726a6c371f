import Osgods.Process.Kernel

/-!
# The console (`putc` and `clear` of `lib.c`)

`putc` writes where `video_mem` points, at the cursor, and keeps a history of what it has written,
which a backspace goes back through. There is one history for all terminals.

Indices are integers. An access outside the 80 by 25 cells or outside its array is made beside them,
on memory that nothing else uses, and is remembered in `stray`.
-/

namespace Osgods

abbrev numCols : ℤ := 80
abbrev numRows : ℤ := 25
abbrev spacesNum : ℤ := 4

def attrib : Byte := 0x7

def chBackspace : Byte := 0x8
def chTab : Byte := 0x9
def chNewline : Byte := 0xA
def chReturn : Byte := 0xD
def chSpace : Byte := 0x20
def chUnderscore : Byte := 0x5F

/-- The characters of a string of the source. -/
def text (s : String) : List Byte := s.toList.map fun c => BitVec.ofNat 8 c.toNat

namespace Kernel

def updateScreenXY (x y : ℤ) (k : Kernel) : Kernel := { k with screenX := x, screenY := y }

def updateVideoMem (target : Word) (k : Kernel) : Kernel := { k with videoMem := target }

/-- `terminal_list[t].x_cursor = screen_x` and `terminal_list[t].y_cursor = screen_y`. -/
def storeCursor (t : Tid) (k : Kernel) : Kernel :=
  k.updateTerminal t fun u => { u with xCursor := k.screenX, yCursor := k.screenY }

end Kernel

/-- `memory` is what the addresses of the four video pages hold. -/
structure Console where
  kernel          : Kernel
  memory          : Word → Byte
  keybPressed     : Bool
  displayBuf      : ℤ → Byte
  displayBufIndex : ℤ
  prevScreenX     : ℤ → ℤ
  lineIsFull      : ℤ → ℤ
  stray           : Bool

/-- An index of an array of `n` elements. -/
def within (i n : ℤ) : Bool := decide (0 ≤ i ∧ i < n)

namespace Console

/-! ### Accesses -/

/-- An access that is in bounds when `ok` holds. -/
def touch (ok : Bool) (c : Console) : Console := { c with stray := c.stray || !ok }

def moveTo (x y : ℤ) (c : Console) : Console := { c with kernel := c.kernel.updateScreenXY x y }

/-- The cell at the cursor. -/
def cell (c : Console) : ℤ := numCols * c.kernel.screenY + c.kernel.screenX

/-- Writes a character and its attribute at the cursor. -/
def draw (b : Byte) (c : Console) : Console :=
  let a := c.kernel.videoMem + BitVec.ofInt 32 (2 * c.cell)
  { c with memory := Function.update (Function.update c.memory a b) (a + 1#32) attrib }.touch
    (within c.cell (numCols * numRows))

/-- `display_buf[display_buf_index++] = b`. -/
def pushDisplay (b : Byte) (c : Console) : Console :=
  { c with
    displayBuf      := Function.update c.displayBuf c.displayBufIndex b
    displayBufIndex := c.displayBufIndex + 1 }.touch (within c.displayBufIndex (numCols * numRows))

/-- `display_buf[--display_buf_index] = 0`. -/
def popDisplay (c : Console) : Console :=
  { c with
    displayBuf      := Function.update c.displayBuf (c.displayBufIndex - 1) 0
    displayBufIndex := c.displayBufIndex - 1 }.touch
      (within (c.displayBufIndex - 1) (numCols * numRows))

def resetDisplay (c : Console) : Console :=
  { c with
    displayBuf      := fun i => if within i (numCols * numRows) then 0 else c.displayBuf i
    displayBufIndex := 0 }

def setLineIsFull (i v : ℤ) (c : Console) : Console :=
  { c with lineIsFull := Function.update c.lineIsFull i v }.touch (within i numRows)

def setPrevScreenX (i v : ℤ) (c : Console) : Console :=
  { c with prevScreenX := Function.update c.prevScreenX i v }.touch (within i numRows)

/-! ### Lines -/

/-- A blank cell: even offsets hold the character, odd ones the attribute. -/
def blank (off : ℕ) : Byte := if off % 2 = 0 then chSpace else attrib

/-- The cells from `lo` to `hi`, in bytes, are blank. -/
def blankCells (lo hi : ℕ) (c : Console) : Console :=
  { c with
    memory := fun a =>
      let off := (a - c.kernel.videoMem).toNat
      if lo ≤ off ∧ off < hi then blank off else c.memory a }

/-- The lines move up by one, and so does the history of each. -/
def scroll (c : Console) : Console :=
  { c with
    memory      := fun a =>
      if (a - c.kernel.videoMem).toNat < 3840 then c.memory (a + 160#32) else c.memory a
    lineIsFull  := fun j =>
      if within j (numRows - 1) then c.lineIsFull (j + 1) else c.lineIsFull j
    prevScreenX := fun j =>
      if within j (numRows - 1) then c.prevScreenX (j + 1) else c.prevScreenX j }

def clearLastLine (c : Console) : Console := c.blankCells 3840 4000

/-! ### `putc` -/

/-- The label `draw_`. -/
def drawCursor (tid : Tid) (c : Console) : Console :=
  let c := c.draw chUnderscore
  { c with kernel := c.kernel.storeCursor tid }

/-- The character before `display_buf_index` is looked at even when there is none. -/
def backspace (c : Console) : Console :=
  let c := c.draw chSpace
  let x := c.kernel.screenX
  let y := c.kernel.screenY
  let c := c.touch (within (c.displayBufIndex - 1) (numCols * numRows))
  if c.displayBuf (c.displayBufIndex - 1) = chTab then
    c.popDisplay.moveTo (x - spacesNum) y
  else if x = 0 ∧ y ≠ 0 then
    let c := c.touch (within (y - 1) numRows)
    if c.lineIsFull (y - 1) = 1 then
      ((c.moveTo (numCols - 1) (y - 1)).setLineIsFull (y - 1) 0).popDisplay
    else
      let c := c.popDisplay.touch (within (y - 1) numRows)
      c.moveTo (c.prevScreenX (y - 1)) (y - 1)
  else if x = 0 ∧ y = 0 then c.popDisplay
  else (c.moveTo (x - 1) y).popDisplay

def enter (ch : Byte) (c : Console) : Console :=
  let c := (c.draw chSpace).pushDisplay ch
  let x := c.kernel.screenX
  let y := c.kernel.screenY
  let c := c.setPrevScreenX y x
  if y = numRows - 1 then (c.moveTo 0 y).scroll.clearLastLine
  else c.moveTo 0 (y + 1)

def drawSpace (c : Console) : Console :=
  (c.draw chSpace).moveTo (c.kernel.screenX + 1) c.kernel.screenY

def tab (c : Console) : Console := (c.pushDisplay chTab).drawSpace.drawSpace.drawSpace.drawSpace

def character (ch : Byte) (c : Console) : Console :=
  let x := c.kernel.screenX + 1
  let y := c.kernel.screenY
  let c := ((c.draw ch).moveTo x y).pushDisplay ch
  if x = numCols then
    if y < numRows - 1 then (c.setLineIsFull y 1).moveTo 0 (y + 1)
    else ((c.moveTo 0 (numRows - 1)).scroll.setLineIsFull (numRows - 2) 1).clearLastLine
  else c

/-- A tab that has no room is dropped. -/
def putc (ch : Byte) (c : Console) : Console :=
  let tid := if c.keybPressed then c.kernel.currTerminalNum else c.kernel.scheduled.tid
  let c := { c with keybPressed := false }
  let c := if c.displayBufIndex = numCols * numRows then c.resetDisplay else c
  if ch = chBackspace then c.backspace.drawCursor tid
  else if ch = chNewline ∨ ch = chReturn then (c.enter ch).drawCursor tid
  else if ch = chTab then
    if numCols - spacesNum - 1 ≤ c.kernel.screenX then c else c.tab.drawCursor tid
  else (c.character ch).drawCursor tid

def setKeybPressed (c : Console) : Console := { c with keybPressed := true }

/-- The characters are put one after the other. -/
def putAll (l : List Byte) (c : Console) : Console := l.foldl (fun c ch => c.putc ch) c

/-! ### `clear` -/

def clear (c : Console) : Console :=
  let c := (c.blankCells 0 4000).moveTo 0 0
  { c with
    kernel := c.kernel.updateTerminal c.kernel.currTerminalNum
      fun u => { u with xCursor := 0, yCursor := 0 } }

/-! ### Projections -/

section

variable (c : Console) (b : Byte) (x y i v : ℤ) (ok : Bool) (tid : Tid)

@[simp] lemma touch_stray : (c.touch ok).stray = (c.stray || !ok) := rfl
@[simp] lemma moveTo_stray : (c.moveTo x y).stray = c.stray := rfl
@[simp] lemma popDisplay_stray : c.popDisplay.stray =
    (c.stray || !within (c.displayBufIndex - 1) (numCols * numRows)) := rfl
@[simp] lemma setLineIsFull_stray :
    (c.setLineIsFull i v).stray = (c.stray || !within i numRows) := rfl

@[simp] lemma pushDisplay_kernel : (c.pushDisplay b).kernel = c.kernel := rfl

@[simp] lemma drawCursor_kernel : (c.drawCursor tid).kernel = c.kernel.storeCursor tid := rfl
@[simp] lemma drawCursor_keybPressed : (c.drawCursor tid).keybPressed = c.keybPressed := rfl

end

/-! ### The branches of `putc` -/

section

variable {c : Console}

/-- The console when a backspace has blanked the cursor and looked at the last character. -/
def erased (c : Console) : Console :=
  (c.draw chSpace).touch (within (c.displayBufIndex - 1) (numCols * numRows))

lemma backspace_eq (c : Console) : c.backspace =
    if c.displayBuf (c.displayBufIndex - 1) = chTab then
      c.erased.popDisplay.moveTo (c.kernel.screenX - 4) c.kernel.screenY
    else if c.kernel.screenX = 0 ∧ c.kernel.screenY ≠ 0 then
      if c.lineIsFull (c.kernel.screenY - 1) = 1 then
        (((c.erased.touch (within (c.kernel.screenY - 1) numRows)).moveTo 79
          (c.kernel.screenY - 1)).setLineIsFull (c.kernel.screenY - 1) 0).popDisplay
      else
        (((c.erased.touch (within (c.kernel.screenY - 1) numRows)).popDisplay).touch
          (within (c.kernel.screenY - 1) numRows)).moveTo (c.prevScreenX (c.kernel.screenY - 1))
            (c.kernel.screenY - 1)
    else if c.kernel.screenX = 0 ∧ c.kernel.screenY = 0 then c.erased.popDisplay
    else (c.erased.moveTo (c.kernel.screenX - 1) c.kernel.screenY).popDisplay := rfl

/-- The console when `putc` has looked at `keyb_pressed` and at the length of the history. -/
def ready (c : Console) : Console :=
  let c := { c with keybPressed := false }
  if c.displayBufIndex = numCols * numRows then c.resetDisplay else c

/-- The terminal whose cursor `putc` stores. -/
def target (c : Console) : Tid :=
  if c.keybPressed then c.kernel.currTerminalNum else c.kernel.scheduled.tid

lemma putc_eq (c : Console) (ch : Byte) : c.putc ch =
    if ch = chBackspace then c.ready.backspace.drawCursor c.target
    else if ch = chNewline ∨ ch = chReturn then (c.ready.enter ch).drawCursor c.target
    else if ch = chTab then
      if 75 ≤ c.ready.kernel.screenX then c.ready else c.ready.tab.drawCursor c.target
    else (c.ready.character ch).drawCursor c.target := rfl

@[simp] lemma ready_kernel (c : Console) : c.ready.kernel = c.kernel := by
  unfold ready
  dsimp only
  split <;> rfl

lemma ready_displayBufIndex (c : Console) : c.ready.displayBufIndex =
    if c.displayBufIndex = 2000 then 0 else c.displayBufIndex :=
  apply_ite displayBufIndex (c.displayBufIndex = 2000) _ _

lemma ready_of_ne (h : c.displayBufIndex ≠ 2000) : c.ready = { c with keybPressed := false } :=
  if_neg h

lemma ready_keybPressed (c : Console) : c.ready.keybPressed = false := by
  unfold ready
  dsimp only
  split <;> rfl

lemma drawSpace_screenX : c.drawSpace.kernel.screenX = c.kernel.screenX + 1 := rfl

/-! Each branch moves the cursor and changes nothing else of the kernel. -/

lemma backspace_kernel (c : Console) : ∃ x y,
    c.backspace.kernel = c.kernel.updateScreenXY x y := by
  rw [backspace_eq]
  split_ifs
  · exact ⟨_, _, rfl⟩
  · exact ⟨_, _, rfl⟩
  · exact ⟨_, _, rfl⟩
  · exact ⟨c.kernel.screenX, c.kernel.screenY, rfl⟩
  · exact ⟨_, _, rfl⟩

lemma enter_kernel (c : Console) (ch : Byte) : ∃ x y,
    (c.enter ch).kernel = c.kernel.updateScreenXY x y := by
  unfold enter
  dsimp only
  split_ifs
  · exact ⟨_, _, rfl⟩
  · exact ⟨_, _, rfl⟩

lemma drawSpace_kernel (c : Console) : c.drawSpace.kernel =
    c.kernel.updateScreenXY (c.kernel.screenX + 1) c.kernel.screenY := rfl

lemma tab_kernel (c : Console) : ∃ x y, c.tab.kernel = c.kernel.updateScreenXY x y := by
  refine ⟨c.kernel.screenX + 1 + 1 + 1 + 1, c.kernel.screenY, ?_⟩
  rw [tab, drawSpace_kernel, drawSpace_kernel, drawSpace_kernel, drawSpace_kernel,
    pushDisplay_kernel]
  rfl

lemma character_kernel (c : Console) (ch : Byte) : ∃ x y,
    (c.character ch).kernel = c.kernel.updateScreenXY x y := by
  unfold character
  dsimp only
  split_ifs
  · exact ⟨_, _, rfl⟩
  · exact ⟨_, _, rfl⟩
  · exact ⟨_, _, rfl⟩

/-- `putc` moves the cursor and stores it, unless it drops a tab. -/
lemma putc_kernel (c : Console) (ch : Byte) : (c.putc ch).kernel = c.kernel ∨
    ∃ x y, (c.putc ch).kernel = (c.kernel.updateScreenXY x y).storeCursor c.target := by
  have hdraw : ∀ d : Console, (∃ x y, d.kernel = c.ready.kernel.updateScreenXY x y) →
      ∃ x y, (d.drawCursor c.target).kernel =
        (c.kernel.updateScreenXY x y).storeCursor c.target := by
    rintro d ⟨x, y, hd⟩
    refine ⟨x, y, ?_⟩
    rw [drawCursor_kernel, hd, ready_kernel]
  rw [putc_eq]
  split_ifs
  · exact Or.inr (hdraw _ (backspace_kernel _))
  · exact Or.inr (hdraw _ (enter_kernel _ _))
  · exact Or.inl (ready_kernel c)
  · exact Or.inr (hdraw _ (tab_kernel _))
  · exact Or.inr (hdraw _ (character_kernel _ _))

lemma putc_terminalList_of_ne {t : Tid} (h : t ≠ c.target) (ch : Byte) :
    (c.putc ch).kernel.terminalList t = c.kernel.terminalList t := by
  rcases c.putc_kernel ch with heq | ⟨x, y, heq⟩
  · rw [heq]
  · rw [heq]
    exact Function.update_of_ne h _ _

lemma backspace_keybPressed (c : Console) : c.backspace.keybPressed = c.keybPressed := by
  rw [backspace_eq]
  split_ifs <;> rfl

lemma enter_keybPressed (c : Console) (ch : Byte) : (c.enter ch).keybPressed = c.keybPressed := by
  unfold enter
  dsimp only
  split_ifs <;> rfl

lemma drawSpace_keybPressed (c : Console) : c.drawSpace.keybPressed = c.keybPressed := rfl

lemma tab_keybPressed (c : Console) : c.tab.keybPressed = c.keybPressed := by
  rw [tab, drawSpace_keybPressed, drawSpace_keybPressed, drawSpace_keybPressed,
    drawSpace_keybPressed]
  rfl

lemma character_keybPressed (c : Console) (ch : Byte) :
    (c.character ch).keybPressed = c.keybPressed := by
  unfold character
  dsimp only
  split_ifs <;> rfl

lemma putc_keybPressed (c : Console) (ch : Byte) : (c.putc ch).keybPressed = false := by
  rw [putc_eq]
  split_ifs
  · rw [drawCursor_keybPressed, backspace_keybPressed, ready_keybPressed]
  · rw [drawCursor_keybPressed, enter_keybPressed, ready_keybPressed]
  · exact ready_keybPressed c
  · rw [drawCursor_keybPressed, tab_keybPressed, ready_keybPressed]
  · rw [drawCursor_keybPressed, character_keybPressed, ready_keybPressed]

lemma clear_kernel (c : Console) : c.clear.kernel =
    (c.kernel.updateScreenXY 0 0).updateTerminal c.kernel.currTerminalNum
      fun u => { u with xCursor := 0, yCursor := 0 } := rfl

lemma putAll_cons (c : Console) (ch : Byte) (l : List Byte) :
    c.putAll (ch :: l) = (c.putc ch).putAll l := rfl

lemma putAll_append (c : Console) (l l' : List Byte) :
    c.putAll (l ++ l') = (c.putAll l).putAll l' := List.foldl_append

lemma putAll_concat (c : Console) (l : List Byte) (ch : Byte) :
    c.putAll (l ++ [ch]) = (c.putAll l).putc ch := List.foldl_append

end

end Console

end Osgods
