import Osgods.Library.Loop
import Osgods.Library.Sheet
import Osgods.Terminal.Machine

/-!
# What the console shows

`layout` is the text as it is meant to be set, on a sheet that has no end; the screen is a window on
it. The screen and the sheet are compared cell by cell, the cell of the cursor apart, and each
branch of `putc` is taken apart into the cells it sets and the line it ends.
-/

namespace Osgods

open Loop

/-! ### The layout -/

/-- One byte of the text. A line ends at its end or after its 80th cell, and a tab that would not
fit is left out. -/
def typeset (t : Sheet Byte) (ch : Byte) : Sheet Byte :=
  if ch = chNewline ∨ ch = chReturn then t.newRow
  else if ch = chTab then
    if t.row.length < 75 then (((t.add chSpace).add chSpace).add chSpace).add chSpace else t
  else if t.row.length + 1 = 80 then (t.add ch).newRow
  else t.add ch

def layout (l : List Byte) : Sheet Byte := l.foldl typeset Sheet.empty

lemma layout_concat (l : List Byte) (ch : Byte) : layout (l ++ [ch]) = typeset (layout l) ch :=
  List.foldl_append

lemma typeset_row_lt {t : Sheet Byte} (h : t.row.length < 80) (ch : Byte) :
    (typeset t ch).row.length < 80 := by
  unfold typeset
  split_ifs
  · exact Nat.zero_lt_succ _
  · simp only [Sheet.row_add, List.length_append, List.length_singleton]
    omega
  · exact h
  · exact Nat.zero_lt_succ _
  · simp only [Sheet.row_add, List.length_append, List.length_singleton]
    omega

lemma layout_row_lt (l : List Byte) : (layout l).row.length < 80 := by
  induction l using List.reverseRecOn with
  | nil => exact Nat.zero_lt_succ _
  | append_singleton l ch ih =>
    rw [layout_concat]
    exact typeset_row_lt ih ch

/-! ### Cells of the screen -/

/-- The address of a cell: its character, and behind it its attribute. -/
def cellAddr (base : Word) (y x : ℕ) : Word := base + BitVec.ofNat 32 (2 * (80 * y + x))

lemma cellAddr_sub (base : Word) {y x : ℕ} (hy : y < 25) (hx : x < 80) :
    (cellAddr base y x - base).toNat = 2 * (80 * y + x) ∧
      (cellAddr base y x + 1#32 - base).toNat = 2 * (80 * y + x) + 1 := by
  unfold cellAddr
  constructor <;> bv_omega

lemma cellAddr_inj (base : Word) {y x y' x' : ℕ} (hy : y < 25) (hx : x < 80) (hy' : y' < 25)
    (hx' : x' < 80) : cellAddr base y x = cellAddr base y' x' ↔ y = y' ∧ x = x' := by
  constructor
  · intro heq
    have hoff := (cellAddr_sub base hy hx).1
    rw [heq, (cellAddr_sub base hy' hx').1] at hoff
    omega
  · rintro ⟨rfl, rfl⟩
    rfl

lemma cellAddr_ne_add_one (base : Word) {y x y' x' : ℕ} (hy : y < 25) (hx : x < 80) (hy' : y' < 25)
    (hx' : x' < 80) : cellAddr base y x ≠ cellAddr base y' x' + 1#32 := by
  intro heq
  have hoff := (cellAddr_sub base hy hx).1
  rw [heq, (cellAddr_sub base hy' hx').2] at hoff
  omega

namespace Console

/-- The character and the attribute in the line `y` and the column `x`. -/
def screen (c : Console) (y x : ℕ) : Byte × Byte :=
  (c.memory (cellAddr c.kernel.videoMem y x), c.memory (cellAddr c.kernel.videoMem y x + 1#32))

variable {c d : Console} {x y x₀ y₀ : ℕ}

lemma screen_draw (b : Byte) (hx : c.kernel.screenX = x₀) (hy : c.kernel.screenY = y₀)
    (hx₀ : x₀ < 80) (hy₀ : y₀ < 25) (hylt : y < 25) (hxlt : x < 80) :
    (c.draw b).screen y x = if y = y₀ ∧ x = x₀ then (b, attrib) else c.screen y x := by
  have haddr : c.kernel.videoMem + BitVec.ofInt 32 (2 * c.cell) =
      cellAddr c.kernel.videoMem y₀ x₀ := by
    rw [cell, hx, hy, cellAddr, ← BitVec.ofInt_natCast]
    norm_cast
  have hmem : (c.draw b).memory = Function.update (Function.update c.memory
      (cellAddr c.kernel.videoMem y₀ x₀) b) (cellAddr c.kernel.videoMem y₀ x₀ + 1#32) attrib := by
    rw [← haddr]
    rfl
  have hvideo : (c.draw b).kernel.videoMem = c.kernel.videoMem := rfl
  have hattr : cellAddr c.kernel.videoMem y x ≠ cellAddr c.kernel.videoMem y₀ x₀ + 1#32 :=
    cellAddr_ne_add_one _ hylt hxlt hy₀ hx₀
  rw [screen, hmem, hvideo, Function.update_of_ne hattr]
  by_cases hsame : y = y₀ ∧ x = x₀
  · obtain ⟨rfl, rfl⟩ := hsame
    rw [if_pos ⟨rfl, rfl⟩, Function.update_self, Function.update_self]
  · have hchar : cellAddr c.kernel.videoMem y x ≠ cellAddr c.kernel.videoMem y₀ x₀ :=
      fun heq => hsame ((cellAddr_inj _ hylt hxlt hy₀ hx₀).mp heq)
    rw [if_neg hsame, Function.update_of_ne hchar,
      Function.update_of_ne fun heq => hchar ((BitVec.add_left_inj _).mp heq),
      Function.update_of_ne (cellAddr_ne_add_one _ hy₀ hx₀ hylt hxlt).symm]
    rfl

/-- The lines move up, and the last one is blank. -/
lemma screen_scroll (hy : y < 25) (hx : x < 80) : c.scroll.clearLastLine.screen y x =
    if y = 24 then (chSpace, attrib) else c.screen (y + 1) x := by
  obtain ⟨hchar, hattr⟩ := cellAddr_sub c.kernel.videoMem hy hx
  have hvideo : c.scroll.clearLastLine.kernel.videoMem = c.kernel.videoMem := rfl
  split_ifs with hlast
  · have hmem : ∀ a : Word, 3840 ≤ (a - c.kernel.videoMem).toNat →
        (a - c.kernel.videoMem).toNat < 4000 →
        c.scroll.clearLastLine.memory a = blank (a - c.kernel.videoMem).toNat :=
      fun a hlo hhi => if_pos ⟨hlo, hhi⟩
    rw [screen, hvideo, hmem _ (by omega) (by omega), hmem _ (by omega) (by omega), hchar, hattr,
      blank, blank, if_pos (Nat.mul_mod_right 2 _), if_neg (by omega)]
  · have hmem : ∀ a : Word, (a - c.kernel.videoMem).toNat < 3840 →
        c.scroll.clearLastLine.memory a = c.memory (a + 160#32) := by
      intro a ha
      have hno : ¬ (3840 ≤ (a - c.kernel.videoMem).toNat ∧
          (a - c.kernel.videoMem).toNat < 4000) := by omega
      exact (if_neg hno).trans (if_pos ha)
    have hnext : cellAddr c.kernel.videoMem y x + 160#32 =
        cellAddr c.kernel.videoMem (y + 1) x := by
      unfold cellAddr
      bv_omega
    have hnext' : cellAddr c.kernel.videoMem y x + 1#32 + 160#32 =
        cellAddr c.kernel.videoMem (y + 1) x + 1#32 := by
      rw [← hnext]
      bv_omega
    rw [screen, hvideo, hmem _ (by omega), hmem _ (by omega), hnext, hnext']
    rfl

lemma screen_clear (hy : y < 25) (hx : x < 80) : c.clear.screen y x = (chSpace, attrib) := by
  obtain ⟨hchar, hattr⟩ := cellAddr_sub c.kernel.videoMem hy hx
  have hvideo : c.clear.kernel.videoMem = c.kernel.videoMem := rfl
  have hmem : ∀ a : Word, (a - c.kernel.videoMem).toNat < 4000 →
      c.clear.memory a = blank (a - c.kernel.videoMem).toNat := by
    intro a ha
    exact if_pos ⟨Nat.zero_le _, ha⟩
  rw [screen, hvideo, hmem _ (by omega), hmem _ (by omega), hchar, hattr, blank, blank,
    if_pos (Nat.mul_mod_right 2 _), if_neg (by omega)]

/-! ### The screen and the sheet -/

/-- The cell of a sheet, as it is to be seen. -/
def seen (t : Sheet Byte) (y x : ℕ) : Byte × Byte := (t.cell 25 chSpace y x, attrib)

/-- The screen shows the sheet, with the cursor where the next cell is set, and `b` in its cell. -/
structure Shows (b : Byte) (c : Console) (t : Sheet Byte) : Prop where
  screenX : c.kernel.screenX = t.row.length
  screenY : c.kernel.screenY = t.line 25
  cells   : ∀ y < 25, ∀ x < 80, c.screen y x =
    if y = t.line 25 ∧ x = t.row.length then (b, attrib) else seen t y x

variable {t : Sheet Byte} {b ch : Byte}

lemma line_lt : t.line 25 < 25 := Sheet.line_lt (by decide)

/-- A character is put over the cursor, which stays where it is. -/
lemma Shows.draw (h : Shows b c t) (hrow : t.row.length < 80) (b' : Byte) :
    Shows b' (c.draw b') t := by
  refine ⟨h.screenX, h.screenY, fun y hy x hx => ?_⟩
  rw [screen_draw b' h.screenX h.screenY hrow line_lt hy hx, h.cells y hy x hx]
  split_ifs <;> rfl

/-- A character is set, and the cursor goes on to a cell that is blank. -/
lemma Shows.advance (h : Shows b c t) (hrow : t.row.length < 80) (b' : Byte) :
    Shows chSpace ((c.draw b').moveTo (c.kernel.screenX + 1) c.kernel.screenY) (t.add b') := by
  have hlen : (t.add b').row.length = t.row.length + 1 := List.length_append
  refine ⟨?_, h.screenY, fun y hy x hx => ?_⟩
  · show c.kernel.screenX + 1 = _
    rw [h.screenX, hlen]
    omega
  · have hdraw := (h.draw hrow b').cells y hy x hx
    show (c.draw b').screen y x = _
    rw [hdraw, seen, seen, Sheet.cell_add (by decide), Sheet.line_add, hlen]
    split_ifs with hset hnext hnext
    · omega
    · rfl
    · rw [hnext.1, Sheet.cell_of_length_le (by decide) (by omega)]
    · rfl

/-- A cell with nothing but the sheet in it. -/
lemma Shows.cell (h : Shows chSpace c t) {y : ℕ} (hy : y < 25) {x : ℕ} (hx : x < 80) :
    c.screen y x = seen t y x := by
  rw [h.cells y hy x hx]
  split_ifs with hcursor
  · rw [seen, hcursor.1, Sheet.cell_of_length_le (by decide) hcursor.2.ge]
  · rfl

/-- A new line starts blank. -/
lemma Shows.of_newRow (hX : c.kernel.screenX = 0) (hY : c.kernel.screenY = t.newRow.line 25)
    (hcells : ∀ y < 25, ∀ x < 80, c.screen y x = seen t.newRow y x) :
    Shows chSpace c t.newRow := by
  refine ⟨hX, hY, fun y hy x hx => ?_⟩
  rw [hcells y hy x hx]
  split_ifs with hcursor
  · rw [seen, hcursor.1, Sheet.cell_of_length_le (by decide) hcursor.2.ge]
  · rfl

/-- A new line below the others. -/
lemma Shows.newRow (h : Shows chSpace c t) (hline : c.kernel.screenY < 24) :
    Shows chSpace (c.moveTo 0 (c.kernel.screenY + 1)) t.newRow := by
  have hlt : t.done.length + 1 < 25 := by
    have := h.screenY
    unfold Sheet.line at this
    omega
  have hnew : ∀ y x, t.newRow.cell 25 chSpace y x = t.cell 25 chSpace y x ∧
      t.newRow.line 25 = t.line 25 + 1 := fun _ _ => Sheet.cell_newRow_of_lt hlt
  refine .of_newRow rfl ?_ fun y hy x hx => ?_
  · show c.kernel.screenY + 1 = _
    rw [h.screenY, (hnew 0 0).2]
    omega
  · show c.screen y x = _
    rw [h.cell hy hx, seen, seen, (hnew y x).1]

/-- A new line that moves the others up. -/
lemma Shows.newRow_scroll (h : Shows chSpace c t) (hline : c.kernel.screenY = 24) {v : ℤ}
    (hv : v = 24) : Shows chSpace ((c.moveTo 0 v).scroll.clearLastLine) t.newRow := by
  subst hv
  have hle : 25 ≤ t.done.length + 1 := by
    have := h.screenY
    unfold Sheet.line at this
    omega
  have hnew : ∀ y x, t.newRow.cell 25 chSpace y x = t.cell 25 chSpace (y + 1) x ∧
      t.newRow.line 25 = t.line 25 ∧ t.line 25 = 25 - 1 :=
    fun _ _ => Sheet.cell_newRow_of_le hle (by decide)
  refine .of_newRow rfl ?_ fun y hy x hx => ?_
  · show (24 : ℤ) = _
    rw [(hnew 0 0).2.1, (hnew 0 0).2.2]
    rfl
  · rw [screen_scroll hy hx]
    split_ifs with hlast
    · rw [seen, (hnew y x).1, hlast, Sheet.cell_bottom hle]
    · have hnext : (c.moveTo 0 24).screen (y + 1) x = c.screen (y + 1) x := rfl
      rw [hnext, h.cell (by omega) hx, seen, seen, (hnew y x).1]

/-! ### `putc` -/

lemma Shows.enter (h : Shows b c t) (hrow : t.row.length < 80) :
    Shows chSpace (c.enter ch) t.newRow := by
  have hdraw := h.draw hrow chSpace
  have hclean : Shows chSpace (((c.draw chSpace).pushDisplay ch).setPrevScreenX c.kernel.screenY
      c.kernel.screenX) t := ⟨hdraw.screenX, hdraw.screenY, hdraw.cells⟩
  unfold Console.enter
  dsimp only
  split_ifs with hlast
  · exact hclean.newRow_scroll hlast hlast
  · refine hclean.newRow ?_
    have hlast' : c.kernel.screenY ≠ 24 := hlast
    have hline := h.screenY
    have hlt : t.line 25 < 25 := line_lt
    show c.kernel.screenY < 24
    omega

lemma Shows.character (h : Shows b c t) (hrow : t.row.length < 80) :
    Shows chSpace (c.character ch)
      (if t.row.length + 1 = 80 then (t.add ch).newRow else t.add ch) := by
  have hx := h.screenX
  have hy := h.screenY
  have hlt : t.line 25 < 25 := line_lt
  have hadvance := h.advance hrow ch
  have hput : Shows chSpace
      (((c.draw ch).moveTo (c.kernel.screenX + 1) c.kernel.screenY).pushDisplay ch) (t.add ch) :=
    ⟨hadvance.screenX, hadvance.screenY, hadvance.cells⟩
  have hcol : c.kernel.screenX + 1 = numCols ↔ t.row.length + 1 = 80 := by
    show c.kernel.screenX + 1 = 80 ↔ _
    omega
  unfold Console.character
  dsimp only
  by_cases hfull : t.row.length + 1 = 80
  · rw [if_pos (hcol.mpr hfull), if_pos hfull]
    split_ifs with hbottom
    · have hset : Shows chSpace ((((c.draw ch).moveTo (c.kernel.screenX + 1)
          c.kernel.screenY).pushDisplay ch).setLineIsFull c.kernel.screenY 1) (t.add ch) :=
        ⟨hput.screenX, hput.screenY, hput.cells⟩
      exact hset.newRow hbottom
    · have hlast : c.kernel.screenY = 24 := by
        have hbottom' : ¬ c.kernel.screenY < 24 := hbottom
        omega
      have hscroll := hput.newRow_scroll hlast rfl
      exact ⟨hscroll.screenX, hscroll.screenY, hscroll.cells⟩
  · rw [if_neg fun heq => hfull (hcol.mp heq), if_neg hfull]
    exact hput

lemma Shows.drawSpace (h : Shows b c t) (hrow : t.row.length < 80) :
    Shows chSpace c.drawSpace (t.add chSpace) := h.advance hrow chSpace

lemma Shows.tab (h : Shows b c t) (hrow : t.row.length < 75) :
    Shows chSpace c.tab ((((t.add chSpace).add chSpace).add chSpace).add chSpace) := by
  have hpush : Shows b (c.pushDisplay chTab) t := ⟨h.screenX, h.screenY, h.cells⟩
  have hadd : ∀ u : Sheet Byte, (u.add chSpace).row.length = u.row.length + 1 := fun _ =>
    List.length_append
  have hfirst := hpush.drawSpace (by omega)
  have hsecond := hfirst.drawSpace (by rw [hadd]; omega)
  have hthird := hsecond.drawSpace (by rw [hadd, hadd]; omega)
  exact hthird.drawSpace (by rw [hadd, hadd, hadd]; omega)

lemma Shows.drawCursor (h : Shows b c t) (hrow : t.row.length < 80) (tid : Tid) :
    Shows chUnderscore (c.drawCursor tid) t := by
  have hdraw := h.draw hrow chUnderscore
  exact ⟨hdraw.screenX, hdraw.screenY, hdraw.cells⟩

lemma Shows.ready (h : Shows b c t) : Shows b c.ready t := by
  unfold Console.ready
  dsimp only
  split
  · exact ⟨h.screenX, h.screenY, h.cells⟩
  · exact ⟨h.screenX, h.screenY, h.cells⟩

/-- A character that is not dropped. -/
lemma Shows.putc (h : Shows b c t) (hrow : t.row.length < 80) (hback : ch ≠ chBackspace)
    (hroom : ch = chTab → t.row.length < 75) :
    Shows chUnderscore (c.putc ch) (typeset t ch) := by
  have hready := h.ready
  have hrow' := typeset_row_lt hrow ch
  have hx := hready.screenX
  rw [putc_eq, if_neg hback]
  unfold typeset at hrow' ⊢
  by_cases hline : ch = chNewline ∨ ch = chReturn
  · rw [if_pos hline] at hrow' ⊢
    rw [if_pos hline]
    exact (hready.enter hrow).drawCursor hrow' c.target
  rw [if_neg hline] at hrow' ⊢
  rw [if_neg hline]
  by_cases htab : ch = chTab
  · rw [if_pos htab, if_pos (hroom htab)] at hrow' ⊢
    rw [if_pos htab, if_neg (by have := hroom htab; omega)]
    exact (hready.tab (hroom htab)).drawCursor hrow' c.target
  · rw [if_neg htab] at hrow' ⊢
    rw [if_neg htab]
    exact (hready.character hrow).drawCursor hrow' c.target

/-- A tab that is dropped leaves the cursor in its cell. -/
lemma Shows.putc_dropped (h : Shows b c t) (hcol : 75 ≤ t.row.length) :
    Shows b (c.putc chTab) (typeset t chTab) := by
  have hx := h.screenX
  have hput : c.putc chTab = c.ready := by
    rw [putc_eq, if_neg (by decide), if_neg (by decide), if_pos rfl, ready_kernel,
      if_pos (by omega)]
  have hsheet : typeset t chTab = t := by
    rw [typeset, if_neg (by decide), if_pos rfl, if_neg (Nat.not_lt.mpr hcol)]
  rw [hput, hsheet]
  exact h.ready

/-! ### Runs -/

lemma shows_clear (c : Console) : Shows chSpace c.clear Sheet.empty := by
  refine ⟨rfl, rfl, fun y hy x hx => ?_⟩
  rw [screen_clear hy hx, seen, Sheet.cell_empty, ite_self]

/-- The console once the text has been put on it; before that, no cursor is drawn. -/
def Typed (l : List Byte) (c : Console) : Prop :=
  Shows (if l = [] then chSpace else chUnderscore) c (layout l)

lemma Typed.putc {l : List Byte} (h : Typed l c) (hback : ch ≠ chBackspace) :
    Typed (l ++ [ch]) (c.putc ch) := by
  have hne : l ++ [ch] ≠ [] := List.append_ne_nil_of_right_ne_nil l (List.cons_ne_nil ch [])
  rw [Typed, if_neg hne, layout_concat]
  by_cases hroom : ch = chTab → (layout l).row.length < 75
  · exact Shows.putc h (layout_row_lt l) hback hroom
  · simp only [Classical.not_imp, Nat.not_lt] at hroom
    obtain ⟨rfl, hcol⟩ := hroom
    -- something stands before a tab that is dropped
    have hl : l ≠ [] := by
      rintro rfl
      exact absurd hcol (by decide)
    rw [Typed, if_neg hl] at h
    exact h.putc_dropped hcol

/-- The interrupt flag is not on the screen. -/
lemma Typed.flag {l : List Byte} (h : Typed l c) (flag : Bool) :
    Typed l { c with kernel := { c.kernel with interruptFlag := flag } } :=
  ⟨h.screenX, h.screenY, h.cells⟩

lemma Typed.putAll {l l' : List Byte} (h : Typed l c) (hback : chBackspace ∉ l') :
    Typed (l ++ l') (c.putAll l') := by
  induction l' generalizing l c with
  | nil =>
    rw [List.append_nil]
    exact h
  | cons ch l' ih =>
    rw [putAll_cons, List.append_cons]
    have hch : ch ≠ chBackspace := fun heq => hback (heq ▸ List.mem_cons_self)
    exact ih (h.putc hch) fun hmem => hback (List.mem_cons_of_mem ch hmem)

/-! ### `terminal_write` -/

def cli (c : Console) : Console := { c with kernel := c.kernel.cli }

def sti (c : Console) : Console := { c with kernel := c.kernel.sti }

/-- What the call returns, and the console after it; `buf1` is not on the screen. -/
def terminalWrite (buf1 : ℕ → Byte) (nbytes : Word) (fuel : ℕ) (c : Console) :
    Option (Word × Console) :=
  (loop (fun s : Word × Console => s.1.slt nbytes = true)
    (fun s => some (s.1 + 1#32, s.2.putc (buf1 s.1.toNat))) fuel (0#32, c.cli)).map
      fun s => (s.1, s.2.sti)

lemma ends_terminalWrite (c : Console) {l : List Byte} (hlen : l.length < 2 ^ 31) :
    Ends (fun fuel => c.terminalWrite (fun i => l.getD i 0) (BitVec.ofNat 32 l.length) fuel)
      (BitVec.ofNat 32 l.length, (c.cli.putAll l).sti) := by
  have hint : ∀ i ≤ l.length, (BitVec.ofNat 32 i).toInt = i ∧ (BitVec.ofNat 32 i).toNat = i := by
    intro i hi
    have hnat : (BitVec.ofNat 32 i).toNat = i := by
      rw [BitVec.toNat_ofNat, Nat.mod_eq_of_lt (by omega)]
    refine ⟨?_, hnat⟩
    rw [BitVec.toInt_eq_toNat_of_lt (by omega), hnat]
  have hstep : ∀ i < l.length,
      (BitVec.ofNat 32 i).slt (BitVec.ofNat 32 l.length) = true ∧
        (BitVec.ofNat 32 i + 1#32,
            (c.cli.putAll (l.take i)).putc (l.getD (BitVec.ofNat 32 i).toNat 0)) =
          (BitVec.ofNat 32 (i + 1), c.cli.putAll (l.take (i + 1))) := by
    intro i hi
    have hnext : l.getD i 0 = l[i] := by
      rw [List.getD_eq_getElem?_getD, List.getElem?_eq_getElem hi]
      rfl
    constructor
    · rw [BitVec.slt_eq_decide, decide_eq_true_eq, (hint i hi.le).1, (hint l.length le_rfl).1]
      omega
    · rw [(hint i hi.le).2, hnext, BitVec.ofNat_add, List.take_succ_eq_append_getElem hi,
        putAll_concat]
  have hend : ¬ (BitVec.ofNat 32 l.length).slt (BitVec.ofNat 32 l.length) = true := by
    rw [BitVec.slt_eq_decide, decide_eq_true_eq]
    exact lt_irrefl _
  have hloop := ends_loop_of_seq
    (fun s : Word × Console => s.1.slt (BitVec.ofNat 32 l.length) = true)
    (fun s => (s.1 + 1#32, s.2.putc (l.getD s.1.toNat 0)))
    (fun i => (BitVec.ofNat 32 i, c.cli.putAll (l.take i))) l.length hstep hend
  rw [List.take_length] at hloop
  exact hloop.map fun s => (s.1, s.2.sti)

/-- The text in one call after the other; what they return. -/
def writes : List (List Byte) → ℕ → Console → Option (List Word × Console)
  | [], _, c            => some ([], c)
  | l :: calls, fuel, c =>
    (c.terminalWrite (fun i => l.getD i 0) (BitVec.ofNat 32 l.length) fuel).bind fun r =>
      (writes calls fuel r.2).map fun rs => (r.1 :: rs.1, rs.2)

lemma Typed.writes {l : List Byte} {calls : List (List Byte)} (h : Typed l c)
    (hlen : ∀ l ∈ calls, l.length < 2 ^ 31) (hback : chBackspace ∉ calls.flatten) :
    ∃ d, Ends (fun fuel => writes calls fuel c) (calls.map fun l => BitVec.ofNat 32 l.length, d) ∧
      Typed (l ++ calls.flatten) d := by
  induction calls generalizing l c with
  | nil => exact ⟨c, .pure _, by rwa [List.flatten_nil, List.append_nil]⟩
  | cons l' calls ih =>
    rw [List.flatten_cons, List.mem_append, not_or] at hback
    have hsti : Typed (l ++ l') (c.cli.putAll l').sti := ((h.flag false).putAll hback.1).flag true
    obtain ⟨d, hrest, hd⟩ := ih hsti (fun l hl => hlen l (List.mem_cons_of_mem l' hl)) hback.2
    have hcall := c.ends_terminalWrite (hlen l' List.mem_cons_self)
    refine ⟨d, ?_, ?_⟩
    · exact hcall.bind (hrest.map fun rs => (BitVec.ofNat 32 l'.length :: rs.1, rs.2))
    · rw [List.flatten_cons, ← List.append_assoc]
      exact hd

end Console

/-- After `clear`, whatever the console was before: the screen shows the last 25 rows of the text,
blank below, with `_` at the end of it, and every call returns its `nbytes`. -/
theorem terminal_write_layout (c : Console) {calls : List (List Byte)}
    (hlen : ∀ l ∈ calls, l.length < 2 ^ 31) (hne : calls.flatten ≠ [])
    (hback : chBackspace ∉ calls.flatten) :
    ∃ d, Ends (fun fuel => Console.writes calls fuel c.clear)
        (calls.map fun l => BitVec.ofNat 32 l.length, d) ∧
      d.kernel.screenX = (layout calls.flatten).row.length ∧
      d.kernel.screenY = (layout calls.flatten).line 25 ∧
      ∀ y < 25, ∀ x < 80, d.screen y x =
        (if y = (layout calls.flatten).line 25 ∧ x = (layout calls.flatten).row.length then
          chUnderscore else (layout calls.flatten).cell 25 chSpace y x, attrib) := by
  have hclear : Console.Typed [] c.clear := Console.shows_clear c
  obtain ⟨d, hends, htyped⟩ := hclear.writes hlen hback
  rw [List.nil_append, Console.Typed, if_neg hne] at htyped
  refine ⟨d, hends, htyped.screenX, htyped.screenY, fun y hy x hx => ?_⟩
  rw [htyped.cells y hy x hx]
  split_ifs <;> rfl

/-- An `a`, the end of its line, and a tab in a second call. -/
theorem terminal_write_layout_small : ∃ d,
    Ends (fun fuel => Console.writes [[0x61, chNewline], [chTab]] fuel
      (Console.boot smallKernel.layout fun _ => 0).clear) ([2#32, 1#32], d) ∧
      d.screen 0 0 = (0x61, attrib) ∧ d.screen 1 4 = (chUnderscore, attrib) := by
  obtain ⟨d, hends, -, -, hscreen⟩ := @terminal_write_layout
    (Console.boot smallKernel.layout fun _ => 0) [[0x61, chNewline], [chTab]]
    (by decide) (by decide) (by decide)
  refine ⟨d, hends, (hscreen 0 (by decide) 0 (by decide)).trans ?_,
    (hscreen 1 (by decide) 4 (by decide)).trans ?_⟩
  · decide
  · decide

end Osgods
