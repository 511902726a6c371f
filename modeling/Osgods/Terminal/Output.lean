import Osgods.Terminal.Bounds
import Osgods.Terminal.Video

/-!
# Where output goes

The four video pages have no address in common, and what is put while the cursor stays on the grid
stays in the page that `video_mem` points to.
-/

namespace Osgods

/-! ### Pages -/

/-- An address of the 4 KB page at `base`. -/
def InPage (base a : Word) : Prop := (a - base).toNat < 4096

/-- Two memories that agree outside the page at `base`. -/
def SameBeyond (base : Word) (mem mem' : Word → Byte) : Prop :=
  ∀ a, ¬ InPage base a → mem' a = mem a

/-- The four pages from `VIDEO` on. -/
def pageBase (n : ℕ) : Word := BitVec.ofNat 32 (0xB8000 + 0x1000 * n)

/-- The number of the page of a terminal's screen, counted from `VIDEO`. -/
def pageNumber (display t : Tid) : ℕ := if t = display then 0 else t + 1

/-- What is on the page at `base`. -/
def pageAt (mem : Word → Byte) (base : Word) (i : Fin 4096) : Byte := mem (base + BitVec.ofNat 32 i)

section

variable {base : Word} {mem mem' mem'' : Word → Byte} {display t u : Tid}

lemma screenBase_eq (display t : Tid) : screenBase display t = pageBase (pageNumber display t) := by
  revert display t
  decide

lemma videoPage_eq (t : Tid) : videoPage t = pageBase (t + 1) := by
  revert t
  decide

lemma pageNumber_lt (display t : Tid) : pageNumber display t < 4 := by
  revert display t
  decide

lemma pageNumber_ne (h : t ≠ u) : pageNumber display t ≠ pageNumber display u := by
  revert display t u
  decide

/-- Two of the four pages have no address in common. -/
lemma not_inPage_pageBase {m n : ℕ} (hm : m < 4) (hn : n < 4) (h : m ≠ n) (i : Fin 4096) :
    ¬ InPage (pageBase n) (pageBase m + BitVec.ofNat 32 i) := by
  have hi := i.isLt
  rw [InPage, pageBase, pageBase, BitVec.toNat_sub, BitVec.toNat_add]
  simp only [BitVec.toNat_ofNat]
  omega

lemma not_inPage_screenBase (h : t ≠ u) (i : Fin 4096) :
    ¬ InPage (screenBase display u) (screenBase display t + BitVec.ofNat 32 i) := by
  rw [screenBase_eq, screenBase_eq]
  exact not_inPage_pageBase (pageNumber_lt _ _) (pageNumber_lt _ _) (pageNumber_ne h) i

namespace SameBeyond

lemma refl (base : Word) (mem : Word → Byte) : SameBeyond base mem mem := fun _ _ => rfl

lemma trans (h : SameBeyond base mem mem') (h' : SameBeyond base mem' mem'') :
    SameBeyond base mem mem'' :=
  fun a ha => (h' a ha).trans (h a ha)

lemma update {a : Word} (h : SameBeyond base mem mem') (ha : InPage base a) (b : Byte) :
    SameBeyond base mem (Function.update mem' a b) := by
  intro a' ha'
  have hne : a' ≠ a := by
    rintro rfl
    exact ha' ha
  rw [Function.update_of_ne hne]
  exact h a' ha'

/-- The other screens stay. -/
lemma pageAt_eq (h : SameBeyond (screenBase display u) mem mem') (htu : t ≠ u) :
    pageAt mem' (screenBase display t) = pageAt mem (screenBase display t) := by
  funext i
  exact h _ (not_inPage_screenBase htu i)

end SameBeyond

end

/-! ### Output stays on its page -/

namespace Console

variable {c : Console}

/-- The cursor stays on the grid while the characters are put. -/
def Stays : List Byte → Console → Prop
  | [], c      => OnGrid c.kernel.screenX c.kernel.screenY
  | ch :: l, c => OnGrid c.kernel.screenX c.kernel.screenY ∧ (c.putc ch).Stays l

instance decidableStays : (l : List Byte) → (c : Console) → Decidable (c.Stays l)
  | [], _      => inferInstanceAs (Decidable (OnGrid _ _))
  | ch :: l, c =>
    have := decidableStays l (c.putc ch)
    inferInstanceAs (Decidable (_ ∧ _))

lemma Stays.onGrid {l : List Byte} (h : c.Stays l) :
    OnGrid c.kernel.screenX c.kernel.screenY := by
  cases l with
  | nil => exact h
  | cons ch l => exact h.1

lemma draw_sameBeyond (h : OnGrid c.kernel.screenX c.kernel.screenY) (b : Byte) :
    SameBeyond c.kernel.videoMem c.memory (c.draw b).memory := by
  obtain ⟨hx, hx', hy, hy'⟩ := h
  obtain ⟨x, hx⟩ := Int.eq_ofNat_of_zero_le hx
  obtain ⟨y, hy⟩ := Int.eq_ofNat_of_zero_le hy
  have hoff : BitVec.ofInt 32 (2 * c.cell) = BitVec.ofNat 32 (2 * (80 * y + x)) := by
    rw [cell, hx, hy, ← BitVec.ofInt_natCast]
    norm_cast
  have hmem : (c.draw b).memory = Function.update (Function.update c.memory
      (c.kernel.videoMem + BitVec.ofInt 32 (2 * c.cell)) b)
        (c.kernel.videoMem + BitVec.ofInt 32 (2 * c.cell) + 1#32) attrib := rfl
  rw [hx] at hx'
  rw [hy] at hy'
  rw [hmem, hoff]
  apply SameBeyond.update
  · apply (SameBeyond.refl _ _).update
    rw [InPage, BitVec.toNat_sub, BitVec.toNat_add, BitVec.toNat_ofNat]
    omega
  · have hone : (1#32).toNat = 1 := rfl
    rw [InPage, BitVec.toNat_sub, BitVec.toNat_add, BitVec.toNat_add, BitVec.toNat_ofNat, hone]
    omega

lemma blankCells_sameBeyond (c : Console) (lo : ℕ) {hi : ℕ} (h : hi ≤ 4096) :
    SameBeyond c.kernel.videoMem c.memory (c.blankCells lo hi).memory := by
  intro a ha
  apply if_neg
  rintro ⟨-, hlt⟩
  exact ha (hlt.trans_le h)

lemma scroll_sameBeyond (c : Console) :
    SameBeyond c.kernel.videoMem c.memory c.scroll.memory := by
  intro a ha
  apply if_neg
  intro hlt
  exact ha (hlt.trans (by decide))

/-- The last line is cleared when the others have moved up. -/
lemma scroll_clearLastLine_sameBeyond (c : Console) :
    SameBeyond c.kernel.videoMem c.memory c.scroll.clearLastLine.memory :=
  c.scroll_sameBeyond.trans (c.scroll.blankCells_sameBeyond 3840 (by decide))

lemma backspace_sameBeyond (h : OnGrid c.kernel.screenX c.kernel.screenY) :
    SameBeyond c.kernel.videoMem c.memory c.backspace.memory := by
  have hmem : c.backspace.memory = (c.draw chSpace).memory := by
    rw [backspace_eq]
    split_ifs <;> rfl
  rw [hmem]
  exact draw_sameBeyond h chSpace

lemma enter_sameBeyond (h : OnGrid c.kernel.screenX c.kernel.screenY) (ch : Byte) :
    SameBeyond c.kernel.videoMem c.memory (c.enter ch).memory := by
  have hdraw := draw_sameBeyond h chSpace
  unfold enter
  dsimp only
  split_ifs
  · exact hdraw.trans (scroll_clearLastLine_sameBeyond (moveTo 0 c.kernel.screenY
      (((c.draw chSpace).pushDisplay ch).setPrevScreenX c.kernel.screenY c.kernel.screenX)))
  · exact hdraw

/-- A space that is not the last one of its line. -/
lemma drawSpace_frame (h : OnGrid c.kernel.screenX c.kernel.screenY) (hlt : c.kernel.screenX < 79) :
    SameBeyond c.kernel.videoMem c.memory c.drawSpace.memory ∧
      OnGrid c.drawSpace.kernel.screenX c.drawSpace.kernel.screenY := by
  refine ⟨draw_sameBeyond h chSpace, ?_⟩
  obtain ⟨hx, hx', hy, hy'⟩ := h
  have hleft : 0 ≤ c.kernel.screenX + 1 := by omega
  have hright : c.kernel.screenX + 1 < 80 := by omega
  exact ⟨hleft, hright, hy, hy'⟩

/-- A tab is drawn when the line has room for its four spaces. -/
lemma tab_sameBeyond (h : OnGrid c.kernel.screenX c.kernel.screenY)
    (hroom : ¬ 75 ≤ c.kernel.screenX) :
    SameBeyond c.kernel.videoMem c.memory c.tab.memory := by
  have hlt : (c.pushDisplay chTab).kernel.screenX < 75 := not_le.mp hroom
  obtain ⟨hfirst, hgrid⟩ := drawSpace_frame (c := c.pushDisplay chTab) h (by omega)
  obtain ⟨hsecond, hgrid⟩ := drawSpace_frame hgrid (by rw [drawSpace_screenX]; omega)
  obtain ⟨hthird, hgrid⟩ := drawSpace_frame hgrid (by
    rw [drawSpace_screenX, drawSpace_screenX]
    omega)
  obtain ⟨hfourth, -⟩ := drawSpace_frame hgrid (by
    rw [drawSpace_screenX, drawSpace_screenX, drawSpace_screenX]
    omega)
  exact ((hfirst.trans hsecond).trans hthird).trans hfourth

lemma character_sameBeyond (h : OnGrid c.kernel.screenX c.kernel.screenY) (ch : Byte) :
    SameBeyond c.kernel.videoMem c.memory (c.character ch).memory := by
  have hdraw := draw_sameBeyond h ch
  unfold character
  dsimp only
  split_ifs
  · exact hdraw
  · exact hdraw.trans (scroll_clearLastLine_sameBeyond (moveTo 0 24
      (((c.draw ch).moveTo (c.kernel.screenX + 1) c.kernel.screenY).pushDisplay ch)))
  · exact hdraw

lemma ready_memory (c : Console) : c.ready.memory = c.memory := by
  unfold ready
  dsimp only
  split_ifs <;> rfl

/-- A character that starts and ends on the grid. -/
lemma putc_sameBeyond (h : OnGrid c.kernel.screenX c.kernel.screenY) (ch : Byte)
    (hend : OnGrid (c.putc ch).kernel.screenX (c.putc ch).kernel.screenY) :
    SameBeyond c.kernel.videoMem c.memory (c.putc ch).memory := by
  have hready : OnGrid c.ready.kernel.screenX c.ready.kernel.screenY := by
    rwa [ready_kernel]
  -- the cursor is drawn where the branch has left it
  have hdraw : ∀ d : Console, (∃ x y, d.kernel = c.ready.kernel.updateScreenXY x y) →
      SameBeyond c.ready.kernel.videoMem c.ready.memory d.memory →
      OnGrid (d.drawCursor c.target).kernel.screenX (d.drawCursor c.target).kernel.screenY →
      SameBeyond c.kernel.videoMem c.memory (d.drawCursor c.target).memory := by
    rintro d ⟨x, y, hkernel⟩ hmem hgrid
    have hvideo : d.kernel.videoMem = c.kernel.videoMem := by
      rw [hkernel, ready_kernel]
      rfl
    have hcursor := draw_sameBeyond (c := d) hgrid chUnderscore
    rw [hvideo] at hcursor
    rw [ready_kernel, ready_memory] at hmem
    exact hmem.trans hcursor
  rw [putc_eq] at hend ⊢
  split_ifs at hend ⊢ with hback henter htab hroom
  · exact hdraw _ (backspace_kernel _) (backspace_sameBeyond hready) hend
  · exact hdraw _ (enter_kernel _ _) (enter_sameBeyond hready ch) hend
  · rw [ready_memory]
    exact .refl _ _
  · exact hdraw _ (tab_kernel _) (tab_sameBeyond hready hroom) hend
  · exact hdraw _ (character_kernel _ _) (character_sameBeyond hready ch) hend

lemma putc_videoMem (c : Console) (ch : Byte) :
    (c.putc ch).kernel.videoMem = c.kernel.videoMem := by
  rcases c.putc_kernel ch with heq | ⟨x, y, heq⟩
  · rw [heq]
  · rw [heq]
    rfl

lemma putAll_videoMem (c : Console) (l : List Byte) :
    (c.putAll l).kernel.videoMem = c.kernel.videoMem := by
  induction l generalizing c with
  | nil => rfl
  | cons ch l ih => rw [putAll_cons, ih, putc_videoMem]

lemma putAll_sameBeyond {l : List Byte} (h : c.Stays l) :
    SameBeyond c.kernel.videoMem c.memory (c.putAll l).memory := by
  induction l generalizing c with
  | nil => exact .refl _ _
  | cons ch l ih =>
    obtain ⟨hstart, hrest⟩ := h
    have htail := ih hrest
    rw [putc_videoMem] at htail
    exact (putc_sameBeyond hstart ch hrest.onGrid).trans htail

lemma Stays.append {l l' : List Byte} (h : c.Stays l) (h' : (c.putAll l).Stays l') :
    c.Stays (l ++ l') := by
  induction l generalizing c with
  | nil => exact h'
  | cons ch l ih => exact ⟨h.1, ih h.2 h'⟩

lemma Stays.end_onGrid {l : List Byte} (h : c.Stays l) :
    OnGrid (c.putAll l).kernel.screenX (c.putAll l).kernel.screenY := by
  induction l generalizing c with
  | nil => exact h
  | cons ch l ih => exact ih h.2

/-- A character that takes one cell. -/
def Plain (ch : Byte) : Prop := ch ≠ chBackspace ∧ ch ≠ chNewline ∧ ch ≠ chReturn ∧ ch ≠ chTab

instance (ch : Byte) : Decidable (Plain ch) := inferInstanceAs (Decidable (_ ∧ _))

lemma putc_plain {ch : Byte} (hplain : Plain ch) (hlt : c.kernel.screenX < 79) :
    (c.putc ch).kernel =
      (c.kernel.updateScreenXY (c.kernel.screenX + 1) c.kernel.screenY).storeCursor c.target := by
  obtain ⟨hback, hnewline, hreturn, htab⟩ := hplain
  have hne : ¬ c.ready.kernel.screenX + 1 = 80 := by
    rw [ready_kernel]
    omega
  have hchar : (c.ready.character ch).kernel =
      c.ready.kernel.updateScreenXY (c.ready.kernel.screenX + 1) c.ready.kernel.screenY :=
    congrArg kernel (if_neg hne)
  rw [putc_eq, if_neg hback, if_neg (not_or.mpr ⟨hnewline, hreturn⟩), if_neg htab,
    drawCursor_kernel, hchar, ready_kernel]

lemma putc_newline (hlt : c.kernel.screenY < 24) :
    (c.putc chNewline).kernel =
      (c.kernel.updateScreenXY 0 (c.kernel.screenY + 1)).storeCursor c.target := by
  have hne : ¬ c.ready.kernel.screenY = 24 := by
    rw [ready_kernel]
    omega
  have henter : (c.ready.enter chNewline).kernel =
      c.ready.kernel.updateScreenXY 0 (c.ready.kernel.screenY + 1) :=
    congrArg kernel (if_neg hne)
  rw [putc_eq, if_neg (by decide), if_pos (Or.inl rfl), drawCursor_kernel, henter, ready_kernel]

/-- A text that fits its line. -/
lemma putAll_plain {l : List Byte} (hplain : ∀ ch ∈ l, Plain ch)
    (hgrid : OnGrid c.kernel.screenX c.kernel.screenY) (hlt : c.kernel.screenX + l.length < 80) :
    c.Stays l ∧ (c.putAll l).kernel.screenX = c.kernel.screenX + l.length ∧
      (c.putAll l).kernel.screenY = c.kernel.screenY := by
  induction l generalizing c with
  | nil => exact ⟨hgrid, (Int.add_zero _).symm, rfl⟩
  | cons ch l ih =>
    rw [List.length_cons] at hlt ⊢
    push_cast at hlt ⊢
    have hputc := putc_plain (hplain ch (List.mem_cons_self ..)) (c := c) (by omega)
    have hx : (c.putc ch).kernel.screenX = c.kernel.screenX + 1 := by
      rw [hputc]
      rfl
    have hy : (c.putc ch).kernel.screenY = c.kernel.screenY := by
      rw [hputc]
      rfl
    obtain ⟨hleft, hright, htop, hbottom⟩ := hgrid
    have hnext : OnGrid (c.putc ch).kernel.screenX (c.putc ch).kernel.screenY := by
      rw [hx, hy]
      exact ⟨by omega, by omega, htop, hbottom⟩
    obtain ⟨hstays, hx', hy'⟩ :=
      ih (fun ch' hmem => hplain ch' (List.mem_cons_of_mem _ hmem)) hnext (by omega)
    refine ⟨⟨⟨hleft, hright, htop, hbottom⟩, hstays⟩, ?_, ?_⟩
    · rw [putAll_cons, hx', hx]
      omega
    · rw [putAll_cons, hy', hy]

/-- A line of text from the first column on. -/
lemma putAll_line {l : List Byte} (hplain : ∀ ch ∈ l, Plain ch) (hx : c.kernel.screenX = 0)
    (hy : 0 ≤ c.kernel.screenY) (hy' : c.kernel.screenY < 24) (hlt : l.length < 80) :
    c.Stays (l ++ [chNewline]) ∧ (c.putAll (l ++ [chNewline])).kernel.screenX = 0 ∧
      (c.putAll (l ++ [chNewline])).kernel.screenY = c.kernel.screenY + 1 := by
  have hgrid : OnGrid c.kernel.screenX c.kernel.screenY := by
    rw [hx]
    exact ⟨le_refl _, by decide, hy, by omega⟩
  obtain ⟨hstays, -, hrow⟩ := putAll_plain hplain hgrid (by omega)
  have hkernel := putc_newline (c := c.putAll l) (by rwa [hrow])
  have happend := c.putAll_concat l chNewline
  have hx' : (c.putAll (l ++ [chNewline])).kernel.screenX = 0 := by
    rw [happend, hkernel]
    rfl
  have hy'' : (c.putAll (l ++ [chNewline])).kernel.screenY = c.kernel.screenY + 1 := by
    rw [happend, hkernel]
    exact congrArg (· + 1) hrow
  refine ⟨hstays.append ⟨hstays.end_onGrid, ?_⟩, hx', hy''⟩
  rw [← happend]
  show OnGrid _ _
  rw [hx', hy'']
  exact ⟨le_refl _, by decide, by omega, by omega⟩

/-- The cursor is drawn last. -/
lemma drawCursor_memory (c : Console) (t : Tid) :
    (c.drawCursor t).memory (c.kernel.videoMem + BitVec.ofInt 32 (2 * c.cell)) = chUnderscore := by
  have hmem : (c.drawCursor t).memory = Function.update (Function.update c.memory
      (c.kernel.videoMem + BitVec.ofInt 32 (2 * c.cell)) chUnderscore)
        (c.kernel.videoMem + BitVec.ofInt 32 (2 * c.cell) + 1#32) attrib := rfl
  have hne : c.kernel.videoMem + BitVec.ofInt 32 (2 * c.cell) ≠
      c.kernel.videoMem + BitVec.ofInt 32 (2 * c.cell) + 1#32 := by
    intro heq
    have hone := BitVec.self_eq_add_right.mp heq
    exact absurd hone (by decide)
  rw [hmem, Function.update_of_ne hne, Function.update_self]

lemma putc_newline_memory (c : Console) : (c.putc chNewline).memory
    ((c.putc chNewline).kernel.videoMem + BitVec.ofInt 32 (2 * (c.putc chNewline).cell)) =
      chUnderscore := by
  have hputc : c.putc chNewline = (c.ready.enter chNewline).drawCursor c.target := by
    rw [putc_eq, if_neg (by decide), if_pos (Or.inl rfl)]
  rw [hputc]
  exact drawCursor_memory _ _

lemma clear_sameBeyond (c : Console) : SameBeyond c.kernel.videoMem c.memory c.clear.memory :=
  c.blankCells_sameBeyond 0 (by decide)

end Console

end Osgods
