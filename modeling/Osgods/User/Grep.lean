import Osgods.User.Ls

/-!
# `grep` (`ece391grep.c`)

`do_one_file` reads a file in pieces of 1024 bytes at most and searches it line by line; a line that
is not complete is copied to the front of the buffer, and the next piece is read behind it. For
texts with lines of less than 1024 bytes that is the same as searching the lines one by one.
-/

namespace Osgods

open Loop ByteCopy Routine

def newline : Byte := 0x0a#8

/-- The buffers of `grep` and its texts. -/
structure Grep where
  search          : Word
  buf             : Word
  data            : Word
  colon           : Word
  lineBreak       : Word
  dot             : Word
  noArgument      : Word
  openFailed      : Word
  readFailed      : Word
  closeFailed     : Word
  directoryFailed : Word
  entryFailed     : Word

/-- `while (line_end < last && '\n' != data[line_end]) line_end++;`. -/
def grepLineEnd (G : Grep) (lineStart last : Word) : UserProgram Word :=
  .loop (fun lineEnd => do
    if lineEnd.slt last then do
      if (← load (G.data + lineEnd)) = newline then pure (.inr lineEnd)
      else pure (.inl (lineEnd + 1#32))
    else pure (.inr lineEnd)) lineStart

namespace Setting

variable (S : Setting)

/-- The search of a line. `s[0]` is a signed character, `data[check]` an unsigned one. -/
def grepLine (G : Grep) (s fname sLen lineStart lineEnd : Word) : UserProgram Unit :=
  .loop (fun check => do
    if check.slt lineEnd then do
      let a ← load s
      let b ← load (G.data + check)
      if a.signExtend 32 = b.setWidth 32 then do
        let r ← ece391Strncmp (G.data + check) s sLen
        if r = 0#32 then do
          S.ece391Fdputs 1 fname
          S.ece391Fdputs 1 G.colon
          S.ece391Fdputs 1 (G.data + lineStart)
          S.ece391Fdputs 1 G.lineBreak
          pure (.inr ())
        else pure (.inl (check + 1#32))
      else pure (.inl (check + 1#32))
    else pure (.inr ())) lineStart

/-- One turn of the loop over the lines in `data`, which leaves it with the new `last`. -/
def grepLinesTurn (G : Grep) (s fname sLen cnt last lineStart : Word) :
    UserProgram (Word ⊕ Word) := do
  let lineEnd ← grepLineEnd G lineStart last
  let b ← load (G.data + lineEnd)
  if newline ≠ b ∧ 0#32 ≠ cnt ∧ lineStart ≠ 0#32 then do
    store (G.data + lineEnd) 0#8
    ece391Strcpy G.data (G.data + lineStart)
    pure (.inr (last - lineStart))
  else do
    store (G.data + lineEnd) 0#8
    S.grepLine G s fname sLen lineStart lineEnd
    if last.sle (lineEnd + 1#32) then pure (.inr 0#32) else pure (.inl (lineEnd + 1#32))

/-- One turn of the loop over the file: it goes on with the new `last`, or ends with what
`do_one_file` returns, if that is known, or with its `break`. -/
def grepFileTurn (G : Grep) (s fname sLen fd last : Word) :
    UserProgram (Word ⊕ Option Word) := do
  let cnt ← S.ece391Read fd (G.data + last) (1024#32 - last)
  if cnt = -1#32 then do
    S.ece391Fdputs 1 G.readFailed
    pure (.inr (some (-1#32)))
  else do
    let last ← .loop (S.grepLinesTurn G s fname sLen cnt (last + cnt)) 0#32
    if cnt = 0#32 then pure (.inr none) else pure (.inl last)

def doOneFile (G : Grep) (s fname : Word) : UserProgram Word := do
  let sLen ← ece391Strlen s
  let fd ← S.ece391Open fname
  if fd = -1#32 then do
    S.ece391Fdputs 1 G.openFailed
    pure (-1#32)
  else do
    let failed ← .loop (S.grepFileTurn G s fname sLen fd) 0#32
    match failed with
    | some r => pure r
    | none => do
      let r ← S.ece391Close fd
      if r = -1#32 then do
        S.ece391Fdputs 1 G.closeFailed
        pure (-1#32)
      else pure 0#32

def grepTurn (G : Grep) (fd : Word) : UserProgram (Unit ⊕ Word) := do
  let cnt ← S.ece391Read fd G.buf 32#32
  if cnt = 0#32 then pure (.inr 0#32)
  else if cnt = -1#32 then do
    S.ece391Fdputs 1 G.entryFailed
    pure (.inr 3#32)
  else do
    if (← load G.buf) = 0x2e#8 then pure (.inl ())
    else do
      store (G.buf + cnt) 0#8
      let r ← S.doOneFile G G.search G.buf
      if 0#32 ≠ r then pure (.inr 3#32) else pure (.inl ())

/-- `main` of `ece391grep.c`. -/
def grep (G : Grep) : UserProgram Word := do
  let r ← S.ece391Getargs G.search 1024#32
  if 0#32 ≠ r then do
    S.ece391Fdputs 1 G.noArgument
    pure 3#32
  else do
    let fd ← S.ece391Open G.dot
    if fd = -1#32 then do
      S.ece391Fdputs 1 G.directoryFailed
      pure 2#32
    else .loop (fun () => S.grepTurn G fd) ()

end Setting

/-! ### What it is for -/

/-- The search string occurs in a line. Its first character is compared as a signed one, so no other
than an ASCII character is ever found. -/
def Found (search line : List Byte) : Prop :=
  (search.getD 0 0).toNat < 128 ∧ search <:+: line

instance (search line : List Byte) : Decidable (Found search line) :=
  inferInstanceAs (Decidable (_ ∧ _))

/-- What is printed for a line. -/
def grepReport (search fname line : List Byte) : List Byte :=
  if Found search line then fname ++ text ":" ++ line ++ text "\n" else []

/-- What is printed for a file. -/
def grepText (search fname content : List Byte) : List Byte :=
  (content.splitOn newline).flatMap (grepReport search fname)

section

variable {search fname line l l' : List Byte} {i : ℕ}

lemma grepReport_nil (hne : search ≠ []) : grepReport search fname [] = [] :=
  if_neg fun h => hne (List.eq_nil_of_infix_nil h.2)

lemma grepText_line (hline : newline ∉ line) :
    grepText search fname line = grepReport search fname line := by
  rw [grepText, List.splitOn_eq_singleton hline]
  simp

lemma grepText_cons (hline : newline ∉ line) :
    grepText search fname (line ++ newline :: l) =
      grepReport search fname line ++ grepText search fname l := by
  rw [grepText, List.splitOn_append_cons_self_of_not_mem hline, List.flatMap_cons, grepText]

/-- The search string begins at offset `i` of a line. -/
def FoundAt (search line : List Byte) (i : ℕ) : Prop :=
  (search.getD 0 0).toNat < 128 ∧ search <+: line.drop i

lemma found_iff (hne : search ≠ []) :
    Found search line ↔ ∃ i < line.length, FoundAt search line i := by
  constructor
  · rintro ⟨hascii, hinfix⟩
    obtain ⟨s, t, rfl⟩ := hinfix
    refine ⟨s.length, ?_, hascii, t, ?_⟩
    · have hpos := List.length_pos_iff.mpr hne
      simp only [List.length_append]
      omega
    · simp
  · rintro ⟨i, -, hascii, hprefix⟩
    exact ⟨hascii, hprefix.isInfix.trans (List.drop_suffix i line).isInfix⟩

/-- A signed character is equal to an unsigned one only if it is ASCII. -/
lemma signExtend_eq_setWidth_iff (a b : Byte) :
    a.signExtend 32 = b.setWidth 32 ↔ a.toNat < 128 ∧ a = b := by
  have hsign : (a.signExtend 32).toNat = if a.toNat < 128 then a.toNat
      else 2 ^ 32 - 256 + a.toNat := by
    have ha := a.isLt
    rw [BitVec.toNat_signExtend, BitVec.toNat_setWidth, BitVec.msb_eq_decide]
    simp only [decide_eq_true_eq]
    split_ifs <;> omega
  have hb := b.isLt
  rw [← BitVec.toNat_inj, ← BitVec.toNat_inj (x := a), hsign, BitVec.toNat_setWidth]
  split_ifs with hlt
  · rw [Nat.mod_eq_of_lt (by omega)]
    simp [hlt]
  · simp only [hlt, false_and, iff_false]
    omega

/-- The two comparisons of the search loop. -/
lemma foundAt_iff (hne : search ≠ []) : FoundAt search line i ↔
    (search.getD 0 0).signExtend 32 = (line.getD i 0).setWidth 32 ∧
      (line.drop i).take search.length = search := by
  have hpos := List.length_pos_iff.mpr hne
  rw [signExtend_eq_setWidth_iff, FoundAt, List.prefix_iff_eq_take, and_assoc]
  refine and_congr_right fun _ => ⟨fun h => ⟨?_, h.symm⟩, fun h => h.2.symm⟩
  -- the first character of what is found
  have hfirst := congrArg (fun l => l.getD 0 0) h
  simpa [List.getD_eq_getElem?_getD, List.getElem?_take_of_lt hpos] using hfirst

end

/-! ### The loops over a line -/

/-- What `do_one_file` works with: its buffer of `BUFSIZE + 1` bytes, and beside it the search
string, the name of the file and the texts. -/
structure Grep.Working (G : Grep) (s fname : Word) (search name : List Byte) (mem : Word → Byte) :
    Prop where
  low       : mb128 ≤ G.data.toNat
  high      : G.data.toNat + 1025 ≤ mb132
  atSearch  : TextAt mem G.data 1025 s search
  atName    : TextAt mem G.data 1025 fname name
  colon     : TextAt mem G.data 1025 G.colon (text ":")
  lineBreak : TextAt mem G.data 1025 G.lineBreak (text "\n")
  nonempty  : search ≠ []

section

variable {S : Setting} {G : Grep} {s fname : Word} {search name line l : List Byte}
  {mem mem' : Word → Byte} {w : World} {i m n : ℕ}

lemma Grep.Working.frame (h : G.Working s fname search name mem)
    (hmem : SameOutside G.data 1025 mem mem') : G.Working s fname search name mem' :=
  ⟨h.low, h.high, h.atSearch.frame hmem, h.atName.frame hmem, h.colon.frame hmem,
    h.lineBreak.frame hmem, h.nonempty⟩

lemma slt_ofNat (hm : m < 2 ^ 31) (hn : n < 2 ^ 31) :
    (BitVec.ofNat 32 m).slt (BitVec.ofNat 32 n) = decide (m < n) := by
  simp only [BitVec.slt_eq_decide, BitVec.toInt_eq_toNat_cond, BitVec.toNat_ofNat,
    decide_eq_decide]
  omega

/-- The line that begins at offset `i` ends at the next newline, or at `last`. -/
lemma wp_grepLineEnd {Q : Word → World → Prop} {last : ℕ} (hlow : mb128 ≤ G.data.toNat)
    (hhigh : G.data.toNat + 1025 ≤ mb132) (hlast : last ≤ 1024) (hle : i + line.length ≤ last)
    (hline : ∀ j < line.length, w.task.mem (G.data + BitVec.ofNat 32 (i + j)) = line.getD j 0)
    (hmem : newline ∉ line) (hend : i + line.length < last →
      w.task.mem (G.data + BitVec.ofNat 32 (i + line.length)) = newline)
    (hQ : Q (BitVec.ofNat 32 (i + line.length)) w) :
    WP (grepLineEnd G (BitVec.ofNat 32 i) (BitVec.ofNat 32 last)) Q w := by
  refine .loop (fun k b v => v = w ∧ ∃ j, k + j = line.length ∧ b = BitVec.ofNat 32 (i + j))
    ⟨rfl, 0, Nat.add_zero _, rfl⟩ ?_
  rintro k _ _ ⟨rfl, j, hj, rfl⟩
  rw [slt_ofNat (by omega) (by omega)]
  refine .ite (fun hlt => ?_) fun hge => .pure ?_
  · have hlt := of_decide_eq_true hlt
    refine .bind (wp_load (userPage_add hlow (by omega)) ?_)
    refine .ite (fun hnl => .pure ?_) fun hne => .pure ?_
    · obtain rfl : j = line.length := by
        by_contra hj'
        rw [hline j (by omega), List.getD_eq_getElem _ _ (by omega)] at hnl
        exact hmem (hnl ▸ List.getElem_mem _)
      exact hQ
    · have hj' : j ≠ line.length := by
        rintro rfl
        exact hne (hend hlt)
      exact ⟨k - 1, by omega, rfl, j + 1, by omega, (BitVec.ofNat_add (i + j) 1).symm⟩
  · have hge := mt decide_eq_true hge
    obtain rfl : j = line.length := by omega
    exact hQ

/-- A line is searched, and printed if the search string is found. -/
lemma wp_grepLine {Q : Unit → World → Prop} (hpage : S.PageMapped)
    (hout : StdoutOpen w.task.table) (hG : G.Working s fname search name w.task.mem)
    (hline : StringAt w.task.mem (G.data + BitVec.ofNat 32 i) line) (hle : i + line.length ≤ 1024)
    (hQ : ∀ w', w.Prints (grepReport search name line) w' → Q () w') :
    WP (S.grepLine G s fname (BitVec.ofNat 32 search.length) (BitVec.ofNat 32 i)
      (BitVec.ofNat 32 (i + line.length))) Q w := by
  have hlow := hG.low
  have hhigh := hG.high
  simp only [mb132] at hhigh
  have hslen : (BitVec.ofNat 32 search.length).toNat = search.length := by
    rw [BitVec.toNat_ofNat, Nat.mod_eq_of_lt hG.atSearch.holds.length_lt]
  refine .loop (fun k b v => v = w ∧ ∃ j, k + j = line.length ∧ b = BitVec.ofNat 32 (i + j) ∧
    ∀ n < j, ¬ FoundAt search line n) ⟨rfl, 0, Nat.add_zero _, rfl, by simp⟩ ?_
  rintro k _ v ⟨rfl, j, hj, rfl, hnot⟩
  rw [slt_ofNat (by omega) (by omega)]
  refine .ite (fun hlt => ?_) fun hge => .pure (hQ _ ?_)
  · have hlt := of_decide_eq_true hlt
    have hrest := hline.drop (i := j) (by omega)
    rw [BitVec.add_assoc, ← BitVec.ofNat_add] at hrest
    have hnext : ¬ FoundAt search line j → ∃ m < k, v = v ∧ ∃ j', m + j' = line.length ∧
        BitVec.ofNat 32 (i + j) + 1#32 = BitVec.ofNat 32 (i + j') ∧
          ∀ n < j', ¬ FoundAt search line n := by
      intro hj'
      refine ⟨k - 1, by omega, rfl, j + 1, by omega, (BitVec.ofNat_add (i + j) 1).symm,
        fun n hn => ?_⟩
      · rcases Nat.lt_succ_iff_lt_or_eq.mp hn with hn | rfl
        · exact hnot n hn
        · exact hj'
    have hfirst : (line.drop j).getD 0 0 = line.getD j 0 := by
      simp [List.getD_eq_getElem?_getD]
    refine .bind (wp_load hG.atSearch.holds.userPage_first (.bind
      (wp_load hrest.userPage_first ?_)))
    rw [hG.atSearch.holds.first, hrest.first, hfirst]
    refine .ite (fun heq => .bind (wp_strncmp hrest hG.atSearch.holds fun r hr => ?_)) fun hne =>
      .pure (hnext ?_)
    · rw [hslen, List.take_length] at hr
      refine .ite (fun hzero => ?_) fun hne => .pure (hnext ?_)
      · -- the line is printed
        have hfound : Found search line :=
          (found_iff hG.nonempty).mpr
            ⟨j, by omega, (foundAt_iff hG.nonempty).mpr ⟨heq, hr.mp hzero⟩⟩
        refine .bind (wp_fdputs hpage hout hG.atName.holds fun w₁ h₁ => ?_)
        refine .bind (wp_fdputs hpage (hout.ticked h₁.table) (l := text ":") ?_ fun w₂ h₂ => ?_)
        · rw [h₁.mem]
          exact hG.colon.holds
        have h₁₂ := h₁.trans h₂
        refine .bind (wp_fdputs hpage (hout.ticked h₁₂.table) (l := line) ?_ fun w₃ h₃ => ?_)
        · rwa [h₁₂.mem]
        have h₁₃ := h₁₂.trans h₃
        refine .bind (wp_fdputs hpage (hout.ticked h₁₃.table) (l := text "\n") ?_
          fun w₄ h₄ => .pure (hQ _ ?_))
        · rw [h₁₃.mem]
          exact hG.lineBreak.holds
        rw [grepReport, if_pos hfound]
        exact h₁₃.trans h₄
      · exact fun hfound => hne (hr.mpr ((foundAt_iff hG.nonempty).mp hfound).2)
    · exact fun hfound => hne ((foundAt_iff hG.nonempty).mp hfound).1
  · have hge := mt decide_eq_true hge
    have hnotFound : ¬ Found search line := by
      rw [found_iff hG.nonempty]
      rintro ⟨n, hn, hfound⟩
      exact hnot n (by omega) hfound
    rw [grepReport, if_neg hnotFound]
    exact .refl _

/-! ### The loop over the lines -/

/-- Every line fits the buffer with its newline. -/
def ShortLines (l : List Byte) : Prop := ∀ line ∈ l.splitOn newline, line.length ≤ 1023

lemma ShortLines.tail (h : ShortLines (line ++ newline :: l)) : ShortLines l := by
  intro line' hline'
  refine h line' ?_
  rw [List.splitOn_append_cons_self]
  exact List.mem_append_right _ hline'

/-- What precedes the first newline belongs to one line. -/
lemma ShortLines.length_le (h : ShortLines (line ++ l)) (hline : newline ∉ line) :
    line.length ≤ 1023 := by
  by_cases hl : newline ∈ l
  · obtain ⟨s, t, rfl, hs⟩ := List.eq_append_cons_of_mem hl
    have hlen := h (line ++ s) (by
      rw [← List.append_assoc, List.splitOn_append_cons_self_of_not_mem (by simp [hline, hs])]
      exact List.mem_cons_self)
    rw [List.length_append] at hlen
    omega
  · have hlen := h (line ++ l) (by
      rw [List.splitOn_eq_singleton (by simp [hline, hl])]
      exact List.mem_singleton_self _)
    rw [List.length_append] at hlen
    omega

lemma sle_ofNat (hm : m < 2 ^ 31) (hn : n < 2 ^ 31) :
    (BitVec.ofNat 32 m).sle (BitVec.ofNat 32 n) = decide (m ≤ n) := by
  simp only [BitVec.sle_eq_decide, BitVec.toInt_eq_toNat_cond, BitVec.toNat_ofNat,
    decide_eq_decide]
  omega

/-- The loop over the lines of `l`, which `data` holds, at offset `i`; `rest` is what the file has
behind it. -/
structure GrepLines (G : Grep) (search name l rest : List Byte) (w v : World) (i : ℕ) : Prop where
  le     : i ≤ l.length
  bytes  : ∀ j, i ≤ j → j < l.length → v.task.mem (G.data + BitVec.ofNat 32 j) = l.getD j 0
  last   : v.task.mem (G.data + BitVec.ofNat 32 1024) ≠ newline
  same   : SameOutside G.data 1025 w.task.mem v.task.mem
  ticked : Ticked w.task.table v.task.table
  short  : ShortLines (l.drop i ++ rest)
  out    : v.out ++ grepText search name (l.drop i ++ rest) =
    w.out ++ grepText search name (l ++ rest)

/-- A byte of `data` is set to zero, so that a string ends there. -/
lemma stringAt_of_store (hlow : mb128 ≤ G.data.toNat) (hhigh : G.data.toNat + 1025 ≤ mb132)
    (hle : i + line.length ≤ 1024)
    (hline : ∀ j < line.length, mem (G.data + BitVec.ofNat 32 (i + j)) = line.getD j 0)
    (hnoNul : 0#8 ∉ line) :
    StringAt (Function.update mem (G.data + BitVec.ofNat 32 (i + line.length)) 0#8)
      (G.data + BitVec.ofNat 32 i) line := by
  simp only [mb132] at hhigh
  have hsum := add_ofNat_toNat (a := G.data) (i := i) (by omega)
  refine ⟨by omega, by simp only [mb132]; omega, fun j hj => ?_, hnoNul⟩
  rw [BitVec.add_assoc, ← BitVec.ofNat_add]
  rcases Nat.lt_or_eq_of_le hj with hj | rfl
  · rw [Function.update_of_ne fun heq => ?_, hline j hj]
    exact absurd (add_ofNat_inj (by omega) (by omega) heq) (by omega)
  · rw [Function.update_self, List.getD_eq_default _ _ le_rfl]
    rfl

/-- What the loop over the lines leaves for the next piece of the file. -/
structure GrepCarry (G : Grep) (search name l rest : List Byte) (cnt : Word) (w v : World)
    (carry : List Byte) : Prop where
  length  : carry.length ≤ 1023
  noLine  : newline ∉ carry
  noNul   : 0#8 ∉ carry
  bytes   : ∀ j < carry.length, v.task.mem (G.data + BitVec.ofNat 32 j) = carry.getD j 0
  last    : v.task.mem (G.data + BitVec.ofNat 32 1024) ≠ newline
  same    : SameOutside G.data 1025 w.task.mem v.task.mem
  ticked  : Ticked w.task.table v.task.table
  short   : ShortLines (carry ++ rest)
  out     : v.out ++ grepText search name (carry ++ rest) =
    w.out ++ grepText search name (l ++ rest)
  atEnd   : cnt = 0#32 → carry = []

lemma grepText_nil (hne : search ≠ []) : grepText search name [] = [] := by
  rw [grepText_line (by simp), grepReport_nil hne]

lemma shortLines_nil : ShortLines [] := by
  intro line hline
  rw [List.splitOn_nil, List.mem_singleton] at hline
  simp [hline]

/-- One turn of the loop over the lines. -/
lemma GrepLines.turn {Q : Word → World → Prop} {rest : List Byte} {cnt : Word} {v : World}
    {k : ℕ} (hpage : S.PageMapped) (hG : G.Working s fname search name w.task.mem)
    (hstdout : StdoutOpen w.task.table) (hlen : l.length ≤ 1024)
    (hnoNul : 0#8 ∉ l) (hcnt : cnt = 0#32 → rest = []) (hshort : l.length < 1024 → rest = [])
    (h : GrepLines G search name l rest w v i) (hk : k + i = l.length)
    (hQ : ∀ carry w', GrepCarry G search name l rest cnt w w' carry →
      Q (BitVec.ofNat 32 carry.length) w') :
    WP (S.grepLinesTurn G s fname (BitVec.ofNat 32 search.length) cnt (BitVec.ofNat 32 l.length)
      (BitVec.ofNat 32 i)) (fun r t => r.elim (fun b' => ∃ m < k, ∃ i', b' = BitVec.ofNat 32 i' ∧
        m + i' = l.length ∧ GrepLines G search name l rest w t i') fun a => Q a t) v := by
  have hlow := hG.low
  have hhigh := hG.high
  have hle := h.le
  obtain ⟨line, tail, hcur, hline, htail⟩ : ∃ line tail, l.drop i = line ++ tail ∧
      newline ∉ line ∧ (tail = [] ∨ ∃ l', tail = newline :: l') := by
    by_cases hmem : newline ∈ l.drop i
    · obtain ⟨line, l', heq, hline⟩ := List.eq_append_cons_of_mem hmem
      exact ⟨line, _, heq, hline, Or.inr ⟨l', rfl⟩⟩
    · exact ⟨l.drop i, [], by simp, hmem, Or.inl rfl⟩
  have hlength := congrArg List.length hcur
  rw [List.length_drop, List.length_append] at hlength
  have hget : ∀ j, l.getD (i + j) 0 = (line ++ tail).getD j 0 := by
    intro j
    rw [← hcur]
    simp [List.getD_eq_getElem?_getD]
  have hbytes : ∀ j < line.length,
      v.task.mem (G.data + BitVec.ofNat 32 (i + j)) = line.getD j 0 := by
    intro j hj
    rw [h.bytes (i + j) (by omega) (by omega), hget, List.getD_append _ _ _ _ hj]
  have hlineNul : 0#8 ∉ line := fun hmem =>
    hnoNul (List.mem_of_mem_drop (hcur ▸ List.mem_append_left _ hmem))
  have hstring := stringAt_of_store hlow hhigh (by omega) hbytes hlineNul
  have hstored : SameOutside G.data 1025 v.task.mem
      (Function.update v.task.mem (G.data + BitVec.ofNat 32 (i + line.length)) 0#8) :=
    .update (by simp only [mb132] at hhigh; omega) (by omega) _
  have hsame := h.same.trans hstored
  have hlast : Function.update v.task.mem (G.data + BitVec.ofNat 32 (i + line.length)) 0#8
      (G.data + BitVec.ofNat 32 1024) ≠ newline := by
    by_cases heq : G.data + BitVec.ofNat 32 1024 = G.data + BitVec.ofNat 32 (i + line.length)
    · rw [heq, Function.update_self]
      decide
    · rw [Function.update_of_ne heq]
      exact h.last
  refine .bind (wp_grepLineEnd hlow hhigh hlen (by omega) hbytes hline (fun hlt => ?_)
    (.bind (wp_load (userPage_add hlow (by omega)) ?_)))
  · rcases htail with rfl | ⟨l', rfl⟩
    · simp only [List.length_nil] at hlength
      omega
    · rw [h.bytes _ (by omega) hlt, hget, List.getD_append_right _ _ _ _ le_rfl]
      simp
  have hshort' := h.short
  have hout := h.out
  rw [hcur] at hshort' hout
  refine .ite (fun hcopy => ?_) fun hsearch => ?_
  · -- the line is not complete, and it is copied
    obtain ⟨hnl, hne, hstart⟩ := hcopy
    obtain rfl : tail = [] := by
      rcases htail with htail | ⟨l', rfl⟩
      · exact htail
      · rw [List.length_cons] at hlength
        rw [h.bytes _ (by omega) (by omega), hget, List.getD_append_right _ _ _ _ le_rfl] at hnl
        simp at hnl
    have hi : i ≠ 0 := by
      rintro rfl
      exact hstart rfl
    rw [List.length_nil, Nat.add_zero] at hlength
    rw [List.append_nil] at hshort' hout
    have hdst : G.data.toNat ≤ (G.data + BitVec.ofNat 32 i).toNat := by
      rw [add_ofNat_toNat (by simp only [mb132] at hhigh; omega)]
      omega
    refine .bind (wp_store (userPage_add hlow (by omega)) (.bind (wp_strcpy hstring hlow hdst
      fun mem' hmem' hsame' => .pure ?_)))
    have hcarry : BitVec.ofNat 32 l.length - BitVec.ofNat 32 i = BitVec.ofNat 32 line.length := by
      rw [BitVec.sub_eq_iff_eq_add, ← BitVec.ofNat_add]
      congr 1
      omega
    rw [hcarry]
    refine hQ line _ ⟨by omega, hline, hlineNul, fun j hj => hmem'.bytes j (by omega), ?_,
      hsame.trans (hsame'.mono le_rfl (by omega)), h.ticked, hshort', hout,
      fun hzero => absurd hzero.symm hne⟩
    rw [withMem_task_mem, hsame', store_task_mem]
    · exact hlast
    · rw [add_ofNat_toNat (by simp only [mb132] at hhigh; omega)]
      omega
  · -- the line is searched
    have hstdout' : StdoutOpen v.task.table := hstdout.ticked h.ticked
    refine .bind (wp_store (userPage_add hlow (by omega)) (.bind (wp_grepLine hpage hstdout'
      (hG.frame hsame) hstring (by omega) fun w₁ hprints => ?_)))
    have hnext : BitVec.ofNat 32 (i + line.length) + 1#32 =
        BitVec.ofNat 32 (i + line.length + 1) := (BitVec.ofNat_add (i + line.length) 1).symm
    have hmem₁ : w₁.task.mem =
        Function.update v.task.mem (G.data + BitVec.ofNat 32 (i + line.length)) 0#8 := hprints.mem
    have hticked₁ : Ticked w.task.table w₁.task.table := h.ticked.trans hprints.table
    have hout₁ : w₁.out = v.out ++ grepReport search name line := hprints.out
    rw [hnext, sle_ofNat (by omega) (by omega)]
    refine .ite (fun hge => .pure ?_) fun hlt => .pure ?_
    · -- it was the last one
      have hge := of_decide_eq_true hge
      have hdone : v.out ++ grepText search name (line ++ tail ++ rest) =
          w₁.out ++ grepText search name ([] ++ rest) ∧ ShortLines ([] ++ rest) := by
        rw [hout₁, List.append_assoc v.out, List.nil_append]
        rcases htail with rfl | ⟨l', rfl⟩
        · -- without a newline the file ends here
          obtain rfl : rest = [] := by
            rw [List.length_nil, Nat.add_zero] at hlength
            by_contra hrest
            have hfull : l.length = 1024 := by
              by_contra hne
              exact hrest (hshort (by omega))
            rw [List.append_nil] at hshort'
            have hlong := hshort'.length_le hline
            refine hsearch ⟨?_, fun hzero => hrest (hcnt hzero.symm), fun hzero => ?_⟩
            · have hend : i + line.length = 1024 := by omega
              rw [hend]
              exact h.last.symm
            · have hnat := congrArg BitVec.toNat hzero
              rw [BitVec.toNat_ofNat, Nat.mod_eq_of_lt (by omega)] at hnat
              simp only [BitVec.toNat_ofNat] at hnat
              omega
          rw [List.append_nil, List.append_nil, grepText_line hline, grepText_nil hG.nonempty,
            List.append_nil]
          exact ⟨rfl, shortLines_nil⟩
        · obtain rfl : l' = [] := by
            rw [List.length_cons] at hlength
            exact List.length_eq_zero_iff.mp (by omega)
          rw [List.append_assoc, List.cons_append, List.nil_append] at hshort' ⊢
          exact ⟨by rw [grepText_cons hline], hshort'.tail⟩
      refine hQ [] w₁ ⟨by simp, by simp, by simp, by simp, by rw [hmem₁]; exact hlast,
        by rw [hmem₁]; exact hsame, hticked₁, hdone.2, hdone.1.symm.trans hout, fun _ => rfl⟩
    · have hlt := mt decide_eq_true hlt
      obtain ⟨l', rfl⟩ : ∃ l', tail = newline :: l' := by
        rcases htail with rfl | htail
        · simp only [List.length_nil] at hlength
          omega
        · exact htail
      have hdrop : l.drop (i + line.length + 1) = l' := by
        rw [Nat.add_assoc, ← List.drop_drop, hcur]
        simp [List.drop_append]
      refine ⟨k - (line.length + 1), by omega, _, rfl, by omega, by omega, fun j hj hj' => ?_,
        by rw [hmem₁]; exact hlast, by rw [hmem₁]; exact hsame, hticked₁, ?_, ?_⟩
      · rw [hmem₁, Function.update_of_ne fun heq => ?_]
        · exact h.bytes j (by omega) hj'
        · exact absurd (add_ofNat_inj (by omega) (by omega) heq) (by omega)
      · rw [hdrop]
        rw [List.append_assoc, List.cons_append] at hshort'
        exact hshort'.tail
      · rw [hdrop, hout₁, List.append_assoc, ← grepText_cons hline, ← hout, List.append_assoc,
          List.cons_append]

/-- The loop over the lines. -/
lemma wp_grepLines {Q : Word → World → Prop} {cnt : Word} (l rest : List Byte)
    (hpage : S.PageMapped) (hG : G.Working s fname search name w.task.mem)
    (hstdout : StdoutOpen w.task.table) (hlen : l.length ≤ 1024) (hnoNul : 0#8 ∉ l)
    (hcnt : cnt = 0#32 → rest = []) (hshort : l.length < 1024 → rest = [])
    (hbytes : ∀ j < l.length, w.task.mem (G.data + BitVec.ofNat 32 j) = l.getD j 0)
    (hlast : w.task.mem (G.data + BitVec.ofNat 32 1024) ≠ newline)
    (hlines : ShortLines (l ++ rest))
    (hQ : ∀ carry w', GrepCarry G search name l rest cnt w w' carry →
      Q (BitVec.ofNat 32 carry.length) w') :
    WP (.loop (S.grepLinesTurn G s fname (BitVec.ofNat 32 search.length) cnt
      (BitVec.ofNat 32 l.length)) 0#32) Q w := by
  refine .loop (fun k b v => ∃ i, b = BitVec.ofNat 32 i ∧ k + i = l.length ∧
    GrepLines G search name l rest w v i) ⟨0, rfl, Nat.add_zero _, Nat.zero_le _,
      fun j _ hj => hbytes j hj, hlast, .refl _, .refl _, hlines, rfl⟩ ?_
  rintro k _ v ⟨i, rfl, hk, h⟩
  exact h.turn hpage hG hstdout hlen hnoNul hcnt hshort hk hQ

/-! ### The loop over the file -/

/-- All descriptors but `j`, and but those of the RTC, are as they were. -/
def OthersSame (j : Fd) (t t' : FileTable) : Prop :=
  ∀ i ≠ j, (t i).inode ≠ -1#32 → t' i = t i

namespace OthersSame

variable {j : Fd} {t t' t'' : FileTable}

lemma of_ticked (h : Ticked t t') : OthersSame j t t' := fun _ _ hi => h.eq_of_inode hi

lemma update (h : OthersSame j t t') (o : FileObject) : OthersSame j t (Function.update t' j o) :=
  fun i hi hinode => (Function.update_of_ne hi _ _).trans (h i hi hinode)

lemma trans (h : OthersSame j t t') (h' : OthersSame j t' t'') : OthersSame j t t'' := by
  intro i hi hinode
  rw [h' i hi (by rwa [h i hi hinode]), h i hi hinode]

lemma stdout (h : OthersSame j t t') (hj : j ≠ 1) (ht : StdoutOpen t) : StdoutOpen t' := by
  rw [StdoutOpen, h 1 hj.symm (by rw [ht]; decide)]
  exact ht

end OthersSame

lemma World.Sets.othersSame {w' : World} {j : Fd} {o : FileObject} (h : w.Sets j o w') :
    OthersSame j w.task.table w'.task.table := by
  obtain ⟨t, hticked, htable⟩ := h.table
  rw [htable]
  exact (OthersSame.of_ticked hticked).update o

lemma World.Sets.apply {w' : World} {j : Fd} {o : FileObject} (h : w.Sets j o w') :
    w'.task.table j = o := by
  obtain ⟨t, -, htable⟩ := h.table
  rw [htable, Function.update_self]

/-- The loop over a regular file at position `p`, with `carry` at the front of `data`. -/
structure GrepFile (G : Grep) (search name : List Byte) (img : Image) (inode : Word) (j : Fd)
    (w v : World) (p : ℕ) (carry : List Byte) : Prop where
  le     : p ≤ (img.inodes inode).length.toNat
  object : v.task.table j = ⟨fileTable, inode, BitVec.ofNat 32 p, 1#32⟩
  others : OthersSame j w.task.table v.task.table
  length : carry.length ≤ 1023
  noNul  : 0#8 ∉ carry
  bytes  : ∀ i < carry.length, v.task.mem (G.data + BitVec.ofNat 32 i) = carry.getD i 0
  last   : v.task.mem (G.data + BitVec.ofNat 32 1024) ≠ newline
  same   : SameOutside G.data 1025 w.task.mem v.task.mem
  short  : ShortLines (carry ++ (img.content inode).drop p)
  out    : v.out ++ grepText search name (carry ++ (img.content inode).drop p) =
    w.out ++ grepText search name (img.content inode)

/-- What a file has been searched for. -/
structure Grepped (G : Grep) (j : Fd) (w : World) (printed : List Byte) (w' : World) : Prop where
  others : OthersSame j w.task.table w'.task.table
  last   : w'.task.mem (G.data + BitVec.ofNat 32 1024) ≠ newline
  same   : SameOutside G.data 1025 w.task.mem w'.task.mem
  out    : w'.out = w.out ++ printed

variable {j : Fd} {inode : Word}

lemma length_content (img : Image) (inode : Word) :
    (img.content inode).length = (img.inodes inode).length.toNat := by
  simp [Image.content]

lemma getElem_returned (τ : Task) (buf : Word) (hi : i < n) :
    (returned τ buf n).getD i 0 = τ.mem (buf + BitVec.ofNat 32 i) := by
  simp [returned, List.getD_eq_getElem?_getD, hi]

/-- One turn of the loop over a regular file. -/
lemma GrepFile.turn {Q : Option Word → World → Prop} {fd : Word} {v : World} {p k : ℕ}
    {carry : List Byte} (hpage : S.PageMapped) (hwf : S.env.img.WellFormed)
    (hG : G.Working s fname search name w.task.mem) (hstdout : StdoutOpen w.task.table)
    (hj : j ≠ 1) (hfd : fdOf fd = some j) (hinode : inode < S.env.img.numInodes)
    (hnoNul : 0#8 ∉ S.env.img.content inode)
    (h : GrepFile G search name S.env.img inode j w v p carry)
    (hk : k + p = (S.env.img.inodes inode).length.toNat)
    (hQ : ∀ w', (w'.task.table j).flag = 1#32 →
      Grepped G j w (grepText search name (S.env.img.content inode)) w' → Q none w') :
    WP (S.grepFileTurn G s fname (BitVec.ofNat 32 search.length) fd
      (BitVec.ofNat 32 carry.length)) (fun r t => r.elim (fun b' => ∃ m < k, ∃ p' carry',
        b' = BitVec.ofNat 32 carry'.length ∧ m + p' = (S.env.img.inodes inode).length.toNat ∧
          GrepFile G search name S.env.img inode j w t p' carry') fun a => Q a t) v := by
  have hlow := hG.low
  have hhigh := hG.high
  have hcarry := h.length
  have hlen := hwf.length_le _ hinode
  simp only [blockSize, mb132] at hlen hhigh
  have hp : (BitVec.ofNat 32 p).toNat = p := by
    rw [BitVec.toNat_ofNat]
    omega
  have hroom : 1024#32 - BitVec.ofNat 32 carry.length = BitVec.ofNat 32 (1024 - carry.length) := by
    apply BitVec.eq_of_toNat_eq
    simp only [BitVec.toNat_sub, BitVec.toNat_ofNat]
    omega
  have hroomNat : (BitVec.ofNat 32 (1024 - carry.length)).toNat = 1024 - carry.length := by
    rw [BitVec.toNat_ofNat]
    omega
  have hbuf := add_ofNat_toNat (a := G.data) (i := carry.length) (by omega)
  have hle := h.le
  rw [Setting.grepFileTurn, hroom]
  refine .bind (wp_read_file hpage hwf hfd h.object ⟨(by decide : (1#32 : Word) ≠ 0#32), rfl⟩
    hinode (by rwa [hp]) (by omega) (by simp only [mb132]; omega)
    (by simp only [mb132]; omega) ?_)
  intro r w₁ hr hbytes hmem hsets
  dsimp only at hr hbytes
  rw [hp, hroomNat] at hr
  rw [hp] at hbytes
  -- the buffer holds the carry and the piece that has been read
  obtain ⟨piece, hpiece⟩ : ∃ piece, piece = ((S.env.img.content inode).drop p).take r.toNat :=
    ⟨_, rfl⟩
  have hpieceLen : piece.length = r.toNat := by
    rw [hpiece, List.length_take, List.length_drop, length_content]
    omega
  have hcontent : (S.env.img.content inode).drop p =
      piece ++ (S.env.img.content inode).drop (p + r.toNat) := by
    rw [hpiece, ← List.drop_drop, List.take_append_drop]
  have htotal : (carry ++ piece).length = carry.length + r.toNat := by
    rw [List.length_append, hpieceLen]
  have hsame : SameOutside G.data 1025 v.task.mem w₁.task.mem :=
    hmem.mono (by omega) (by rw [hroomNat]; omega)
  have hothers := h.others.trans hsets.othersSame
  have hobject : w₁.task.table j = ⟨fileTable, inode, BitVec.ofNat 32 (p + r.toNat), 1#32⟩ := by
    rw [hsets.apply, BitVec.ofNat_add, BitVec.ofNat_toNat, BitVec.setWidth_eq]
  have hnneg : r ≠ -1#32 := by
    rintro rfl
    simp only [BitVec.reduceNeg, BitVec.toNat_ofNat] at hr
    omega
  have hshort := h.short
  have hout := h.out
  rw [hcontent, ← List.append_assoc] at hshort hout
  have hsum : BitVec.ofNat 32 carry.length + r = BitVec.ofNat 32 (carry ++ piece).length := by
    rw [htotal, BitVec.ofNat_add, BitVec.ofNat_toNat, BitVec.setWidth_eq]
  have hend : r.toNat < 1024 - carry.length →
      (S.env.img.content inode).drop (p + r.toNat) = [] := by
    intro hlt
    rw [List.drop_eq_nil_iff, length_content]
    omega
  rw [if_neg hnneg, hsum]
  refine .bind (wp_grepLines _ ((S.env.img.content inode).drop (p + r.toNat)) hpage
    (hG.frame (h.same.trans hsame)) (hothers.stdout hj hstdout) (by omega) ?_ ?_ ?_ ?_ ?_ hshort ?_)
  · rw [List.mem_append, not_or]
    exact ⟨h.noNul, fun hmem =>
      hnoNul (List.mem_of_mem_drop (List.mem_of_mem_take (hpiece ▸ hmem)))⟩
  · intro hzero
    refine hend ?_
    rw [hzero]
    simp only [BitVec.toNat_ofNat]
    omega
  · exact fun hlt => hend (by omega)
  · intro i hi
    by_cases hi' : i < carry.length
    · rw [hmem _ (by rw [add_ofNat_toNat (by omega)]; omega), h.bytes i hi',
        List.getD_append _ _ _ _ hi']
    · obtain ⟨m, rfl⟩ := Nat.exists_eq_add_of_le (Nat.le_of_not_lt hi')
      have hget := getElem_returned (i := m) w₁.task (G.data + BitVec.ofNat 32 carry.length)
        (show m < r.toNat by omega)
      rw [hbytes, ← hpiece, BitVec.add_assoc, ← BitVec.ofNat_add] at hget
      rw [← hget, List.getD_append_right _ _ _ _ (by omega), Nat.add_sub_cancel_left]
  · rw [hmem _ (by rw [add_ofNat_toNat (by omega), hroomNat]; omega)]
    exact h.last
  · intro carry' w₂ hcarry'
    have hothers₂ := hothers.trans (.of_ticked hcarry'.ticked)
    have hobject₂ : w₂.task.table j =
        ⟨fileTable, inode, BitVec.ofNat 32 (p + r.toNat), 1#32⟩ := by
      have hnrtc : inode ≠ -1#32 := by
        rintro rfl
        have hnum := hwf.toNat_pos.2
        rw [BitVec.lt_def] at hinode
        simp only [BitVec.reduceNeg, BitVec.toNat_ofNat] at hinode
        omega
      rw [hcarry'.ticked.eq_of_inode (by rwa [hobject]), hobject]
    have hsame₂ := (h.same.trans hsame).trans hcarry'.same
    have hout₂ := hcarry'.out
    rw [hsets.out, hout] at hout₂
    refine .ite (fun hzero => .pure ?_) fun hne => .pure ?_
    · refine hQ w₂ (by rw [hobject₂]) ⟨hothers₂, hcarry'.last, hsame₂, ?_⟩
      have hrest : (S.env.img.content inode).drop (p + r.toNat) = [] := hend (by
        rw [hzero]
        simp only [BitVec.toNat_ofNat]
        omega)
      rw [hcarry'.atEnd hzero, hrest, List.nil_append, grepText_nil hG.nonempty,
        List.append_nil] at hout₂
      exact hout₂
    · have hpos : 0 < r.toNat := by
        refine Nat.pos_of_ne_zero fun hzero => hne (BitVec.eq_of_toNat_eq ?_)
        rw [hzero]
        rfl
      exact ⟨k - r.toNat, by omega, p + r.toNat, carry', rfl, by omega, by omega, hobject₂,
        hothers₂, hcarry'.length, hcarry'.noNul, hcarry'.bytes, hcarry'.last, hsame₂,
        hcarry'.short, hout₂⟩

/-- The loop over a file that has just been opened. -/
lemma wp_grepFile_regular {Q : Option Word → World → Prop} {fd : Word} {v : World}
    (hpage : S.PageMapped) (hwf : S.env.img.WellFormed)
    (hG : G.Working s fname search name w.task.mem) (hstdout : StdoutOpen w.task.table)
    (hj : j ≠ 1) (hfd : fdOf fd = some j) (hinode : inode < S.env.img.numInodes)
    (hnoNul : 0#8 ∉ S.env.img.content inode) (hlines : ShortLines (S.env.img.content inode))
    (hlast : w.task.mem (G.data + BitVec.ofNat 32 1024) ≠ newline)
    (hopen : w.Sets j ⟨fileTable, inode, 0#32, 1#32⟩ v) (hmem : v.task.mem = w.task.mem)
    (hQ : ∀ w', (w'.task.table j).flag = 1#32 →
      Grepped G j w (grepText search name (S.env.img.content inode)) w' → Q none w') :
    WP (.loop (S.grepFileTurn G s fname (BitVec.ofNat 32 search.length) fd) 0#32) Q v := by
  refine .loop (fun k b v => ∃ p carry, b = BitVec.ofNat 32 carry.length ∧
    k + p = (S.env.img.inodes inode).length.toNat ∧
      GrepFile G search name S.env.img inode j w v p carry)
    ⟨0, [], rfl, Nat.add_zero _, ⟨Nat.zero_le _, hopen.apply, hopen.othersSame, by simp, by simp,
      by simp, by rwa [hmem], by rw [hmem]; exact .refl _, hlines, by rw [hopen.out]; rfl⟩⟩ ?_
  rintro k _ v ⟨p, carry, rfl, hk, h⟩
  exact h.turn hpage hwf hG hstdout hj hfd hinode hnoNul hk hQ

/-- The RTC has nothing to be searched. -/
lemma wp_grepFile_rtc {Q : Option Word → World → Prop} {fd : Word} {v : World}
    (hpage : S.PageMapped) (hG : G.Working s fname search name w.task.mem)
    (hstdout : StdoutOpen w.task.table) (hj : j ≠ 1) (hfd : fdOf fd = some j)
    (hfirst : ∀ i < j, (w.task.table i).inode ≠ -1#32)
    (hlast : w.task.mem (G.data + BitVec.ofNat 32 1024) ≠ newline)
    (hopen : w.Sets j ⟨rtcTable, -1#32, 0#32, 1#32⟩ v) (hmem : v.task.mem = w.task.mem)
    (hQ : ∀ w', (w'.task.table j).flag = 1#32 → Grepped G j w [] w' → Q none w') :
    WP (.loop (S.grepFileTurn G s fname (BitVec.ofNat 32 search.length) fd) 0#32) Q v := by
  refine .loop (fun k b u => k = 0 ∧ b = 0#32 ∧ u = v) ⟨rfl, rfl, rfl⟩ ?_
  rintro k _ _ ⟨-, rfl, rfl⟩
  have hlow := hG.low
  have hdata : G.data + 0#32 = G.data := by simp
  rw [Setting.grepFileTurn, hdata]
  refine .bind (wp_read_rtc hfd hopen.apply rfl rfl rfl (fun i hi h => ?_) hlow (by decide)
    fun w₁ hmem₁ hsets => ?_)
  · rw [hopen.othersSame i (ne_of_lt hi) (hfirst i hi)] at h
    exact hfirst i hi h.1
  have hothers := hopen.othersSame.trans hsets.othersSame
  rw [if_neg (by decide)]
  refine .bind (wp_grepLines [] [] hpage
    (hG.frame (by rw [hmem₁, hmem]; exact .refl _)) (hothers.stdout hj hstdout) (by simp) (by simp)
    (fun _ => rfl) (fun _ => rfl) (by simp) (by rwa [hmem₁, hmem]) shortLines_nil
    fun carry w₂ hcarry => ?_)
  obtain rfl := hcarry.atEnd rfl
  rw [if_pos rfl]
  refine .pure (hQ w₂ ?_ ⟨hothers.trans (.of_ticked hcarry.ticked), hcarry.last, ?_, ?_⟩)
  · rw [hcarry.ticked.flag, hsets.apply]
  · have hsame := hcarry.same
    rwa [hmem₁, hmem] at hsame
  · have hout := hcarry.out
    simp only [List.append_nil, grepText_nil hG.nonempty] at hout
    rw [hout, hsets.out, hopen.out, List.append_nil]

/-- What is printed for an entry of the directory. -/
def grepEntry (img : Image) (search : List Byte) (d : Dentry) : List Byte :=
  if d.fileType = fileType then grepText search d.name (img.content d.inodeId) else []

/-- A text file: it has no zeros, and its lines are short. -/
def TextFile (img : Image) (inode : Word) : Prop :=
  0#8 ∉ img.content inode ∧ ShortLines (img.content inode)

/-- A regular text file or the RTC, searched by its name. -/
lemma wp_doOneFile {Q : Word → World → Prop} {d : Dentry} (hpage : S.PageMapped)
    (hwf : S.env.img.WellFormed) (hG : G.Working s fname search d.name w.task.mem)
    (hstdout : StdoutOpen w.task.table) (hd : d ∈ S.env.img.entries)
    (hname : S.env.img.firstNamed d.name = some d)
    (htype : d.fileType = rtcType ∨ d.fileType = fileType ∧ TextFile S.env.img d.inodeId)
    (hfree : (w.task.table j).flag = 0#32) (hlow : ∀ i < j, (w.task.table i).flag = 1#32)
    (hj : 1 < j.val) (hfirst : ∀ i < j, (w.task.table i).inode ≠ -1#32)
    (hlast : w.task.mem (G.data + BitVec.ofNat 32 1024) ≠ newline)
    (hQ : ∀ w', (w'.task.table j).flag = 0#32 →
      Grepped G j w (grepEntry S.env.img search d) w' → Q 0#32 w') :
    WP (S.doOneFile G s fname) Q w := by
  have hj1 : j ≠ 1 := by
    rintro rfl
    exact absurd hj (by decide)
  have hfd : fdOf (BitVec.ofNat 32 j) = some j := fdOf_ofNat j
  have hnneg : BitVec.ofNat 32 j ≠ -1#32 := by
    intro heq
    rw [heq, fdOf_neg_one] at hfd
    cases hfd
  have htake : d.name.take fileNameSize = d.name := List.take_of_length_le length_name_le
  refine .bind (wp_strlen hG.atSearch.holds (.bind (wp_open (j := j) hpage hG.atName.holds
    (by rw [htake, hname]) ?_ hfree hlow fun w₁ hopen hmem => ?_)))
  · rcases htype with h | ⟨h, -⟩ <;> (rw [h]; decide)
  rw [if_neg hnneg]
  have hclose : ∀ w₂, (w₂.task.table j).flag = 1#32 →
      Grepped G j w (grepEntry S.env.img search d) w₂ →
        WP (do
          let r ← S.ece391Close (BitVec.ofNat 32 j)
          if r = -1#32 then do
            S.ece391Fdputs 1 G.closeFailed
            pure (-1#32)
          else pure 0#32) Q w₂ := by
    intro w₂ hflag h₂
    refine .bind (wp_close hfd hj (by rw [hflag]; decide) fun w₃ hsets hmem₃ => ?_)
    rw [if_neg (by decide)]
    refine .pure (hQ w₃ (by rw [hsets.apply]; rfl) ⟨h₂.others.trans hsets.othersSame, ?_, ?_, ?_⟩)
    · rw [hmem₃]
      exact h₂.last
    · rw [hmem₃]
      exact h₂.same
    · rw [hsets.out, h₂.out]
  rcases htype with hrtc | ⟨hfile, hnoNul, hlines⟩
  · rw [openObject_rtc hrtc] at hopen
    have hentry : grepEntry S.env.img search d = [] := by
      rw [grepEntry, hrtc, if_neg (by decide)]
    exact .bind (wp_grepFile_rtc hpage hG hstdout hj1 hfd hfirst hlast hopen hmem
      fun w₂ hflag h₂ => hclose w₂ hflag (by rwa [hentry]))
  · rw [openObject_file hfile] at hopen
    have hentry : grepEntry S.env.img search d =
        grepText search d.name (S.env.img.content d.inodeId) := by
      rw [grepEntry, if_pos hfile]
    obtain ⟨i, hi, rfl⟩ := List.mem_map.mp hd
    exact .bind (wp_grepFile_regular hpage hwf hG hstdout hj1 hfd
      (hwf.regular i (List.mem_range.mp hi) hfile) hnoNul hlines hlast hopen hmem
      fun w₂ hflag h₂ => hclose w₂ hflag (by rwa [hentry]))

/-! ### The loop over the directory -/

/-- A text beside the three buffers. -/
structure Grep.Text (G : Grep) (mem : Word → Byte) (p : Word) (l : List Byte) : Prop where
  search : TextAt mem G.search 1024 p l
  buf    : TextAt mem G.buf 33 p l
  data   : TextAt mem G.data 1025 p l

/-- The buffers lie apart, and what the stack leaves behind the buffer of `do_one_file` is not taken
for the end of a line. -/
structure Grep.Placed (G : Grep) (mem : Word → Byte) : Prop where
  searchLow       : mb128 ≤ G.search.toNat
  searchHigh      : G.search.toNat + 1024 ≤ mb132 - 4
  bufLow          : mb128 ≤ G.buf.toNat
  bufHigh         : G.buf.toNat + 33 ≤ mb132
  dataLow         : mb128 ≤ G.data.toNat
  dataHigh        : G.data.toNat + 1025 ≤ mb132
  searchBuf       : G.search.toNat + 1024 ≤ G.buf.toNat ∨ G.buf.toNat + 33 ≤ G.search.toNat
  searchData      : G.search.toNat + 1024 ≤ G.data.toNat ∨ G.data.toNat + 1025 ≤ G.search.toNat
  bufData         : G.buf.toNat + 33 ≤ G.data.toNat ∨ G.data.toNat + 1025 ≤ G.buf.toNat
  dot             : G.Text mem G.dot (text ".")
  colon           : G.Text mem G.colon (text ":")
  lineBreak       : G.Text mem G.lineBreak (text "\n")
  noArgument      : G.Text mem G.noArgument (text "could not read argument\n")
  openFailed      : G.Text mem G.openFailed (text "file open failed\n")
  readFailed      : G.Text mem G.readFailed (text "file read failed\n")
  closeFailed     : G.Text mem G.closeFailed (text "file close failed\n")
  directoryFailed : G.Text mem G.directoryFailed (text "directory open failed\n")
  entryFailed     : G.Text mem G.entryFailed (text "directory entry read failed\n")
  last            : mem (G.data + BitVec.ofNat 32 1024) ≠ newline

/-- Apart from names that begin with a dot, the directory has text files and the RTC, and each is
found by its name. -/
def Image.Searchable (img : Image) : Prop := ∀ d ∈ img.listed, d.fileName.getD 0 0 ≠ 0x2e#8 →
  img.firstNamed d.name = some d ∧
    (d.fileType = rtcType ∨ d.fileType = fileType ∧ TextFile img d.inodeId)

/-- What is printed for a name in the directory. -/
def grepName (img : Image) (search : List Byte) (d : Dentry) : List Byte :=
  if d.fileName.getD 0 0 = 0x2e#8 then [] else grepEntry img search d

/-- What `main` hands on to `do_one_file`. -/
structure GrepStrings (G : Grep) (search : List Byte) (mem : Word → Byte) : Prop where
  atSearch  : StringAt mem G.search search
  colon     : StringAt mem G.colon (text ":")
  lineBreak : StringAt mem G.lineBreak (text "\n")
  last      : mem (G.data + BitVec.ofNat 32 1024) ≠ newline

/-- The loop over the directory, after `p` names. -/
structure GrepDir (G : Grep) (img : Image) (search : List Byte) (v : World) (p : ℕ) : Prop where
  le      : p ≤ img.listed.length
  stdin   : v.task.table 0 = createTable 0
  stdout  : StdoutOpen v.task.table
  object  : v.task.table 2 = ⟨dirTable, 0#32, BitVec.ofNat 32 p, 1#32⟩
  free    : (v.task.table 3).flag = 0#32
  strings : GrepStrings G search v.task.mem
  out     : v.out = (img.listed.take p).flatMap (grepName img search)

/-- The name in a field of 32 bytes, with a zero stored behind it. -/
lemma getD_name (d : Dentry) (hi : i ≤ d.name.length) :
    (if i < fileNameSize then d.fileName.getD i 0 else 0#8) = d.name.getD i 0 := by
  have hlen := d.fileName_length
  have happend : d.name ++ d.fileName.dropWhile (· ≠ 0#8) = d.fileName := by
    rw [Dentry.name, cString, List.takeWhile_append_dropWhile]
  rcases Nat.lt_or_eq_of_le hi with hlt | rfl
  · have hlt32 : i < fileNameSize := hlt.trans_le length_name_le
    rw [if_pos hlt32, ← happend, List.getD_append _ _ _ _ hlt]
  · rw [List.getD_eq_default d.name _ le_rfl]
    split_ifs with hlt
    · rw [← happend, List.getD_append_right _ _ _ _ le_rfl, Nat.sub_self]
      cases hrest : d.fileName.dropWhile (· ≠ 0#8) with
      | nil => rfl
      | cons b rest =>
        have hb := List.head_dropWhile_not (fun b : Byte => decide (b ≠ 0#8)) (l := d.fileName)
          (by rw [hrest]; simp)
        simp only [hrest, List.head_cons] at hb
        simpa using hb
    · rfl

lemma listed_mem_entries {img : Image} {d : Dentry} (hmax : img.numDirEntries.toNat ≤ 63)
    (hd : d ∈ img.listed) : d ∈ img.entries := by
  obtain ⟨i, hi, rfl⟩ := List.mem_map.mp hd
  have hi := List.mem_range.mp hi
  refine List.mem_map.mpr ⟨i, List.mem_range.mpr ?_, rfl⟩
  rw [BitVec.toInt_eq_toNat_cond, if_pos (by omega)]
  omega

namespace GrepStrings

variable (hG : G.Placed mem) (hlen : search.length ≤ 127)

include hG hlen

/-- Stores to `buf` do not matter to them. -/
lemma frame_buf {mem₁ mem₂ : Word → Byte} (h : GrepStrings G search mem₁)
    (hmem : SameOutside G.buf 33 mem₁ mem₂) : GrepStrings G search mem₂ := by
  have hapart := hG.searchBuf
  have hdata := hG.bufData
  have hhigh := hG.dataHigh
  simp only [mb132] at hhigh
  refine ⟨h.atSearch.frame hmem (by omega), h.colon.frame hmem hG.colon.buf.beside,
    h.lineBreak.frame hmem hG.lineBreak.buf.beside, ?_⟩
  rw [hmem _ (by rw [add_ofNat_toNat (by omega)]; omega)]
  exact h.last

/-- Nor do those of `do_one_file`. -/
lemma frame_data {mem₁ mem₂ : Word → Byte} (h : GrepStrings G search mem₁)
    (hmem : SameOutside G.data 1025 mem₁ mem₂)
    (hlast : mem₂ (G.data + BitVec.ofNat 32 1024) ≠ newline) : GrepStrings G search mem₂ := by
  have hapart := hG.searchData
  exact ⟨h.atSearch.frame hmem (by omega), h.colon.frame hmem hG.colon.data.beside,
    h.lineBreak.frame hmem hG.lineBreak.data.beside, hlast⟩

lemma working {mem₁ : Word → Byte} {name : List Byte} (h : GrepStrings G search mem₁)
    (hname : StringAt mem₁ G.buf name) (hle : name.length ≤ fileNameSize) (hne : search ≠ []) :
    G.Working G.search G.buf search name mem₁ := by
  have hapart := hG.searchData
  have hbuf := hG.bufData
  simp only [fileNameSize] at hle
  exact ⟨hG.dataLow, hG.dataHigh, ⟨h.atSearch, by omega⟩, ⟨hname, by omega⟩,
    ⟨h.colon, hG.colon.data.beside⟩, ⟨h.lineBreak, hG.lineBreak.data.beside⟩, hne⟩

end GrepStrings

/-- One turn of the loop over the directory. -/
lemma GrepDir.turn {Q : Word → World → Prop} {v : World} {p k : ℕ} (hpage : S.PageMapped)
    (hwf : S.env.img.WellFormed) (hpos : 1 ≤ S.env.img.numDirEntries.toNat)
    (hmax : S.env.img.numDirEntries.toNat ≤ 63) (hsearchable : S.env.img.Searchable)
    (hG : G.Placed mem) (hne : search ≠ []) (hlen : search.length ≤ 127)
    (h : GrepDir G S.env.img search v p) (hk : k + p = S.env.img.listed.length)
    (hQ : ∀ w', w'.out = S.env.img.listed.flatMap (grepName S.env.img search) → Q 0#32 w') :
    WP (S.grepTurn G 2#32) (fun r t => r.elim (fun _ => ∃ m < k, ∃ p',
      m + p' = S.env.img.listed.length ∧ GrepDir G S.env.img search t p') fun a => Q a t) v := by
  have hbufLow := hG.bufLow
  have hbufHigh := hG.bufHigh
  simp only [mb132] at hbufHigh
  refine .bind (wp_read_dir (j := 2) hpage hpos hmax (by decide) h.object h.le hbufLow
    (by simp only [mb132, fileNameSize]; omega) (by decide) ?_ ?_)
  · intro w₁ d hd hname hmem hsets
    have hmem₁ : SameOutside G.buf 33 v.task.mem w₁.task.mem :=
      hmem.mono le_rfl (by simp only [fileNameSize]; omega)
    have hlt : p < S.env.img.listed.length := (List.getElem?_eq_some_iff.mp hd).1
    have hstdin : w₁.task.table 0 = createTable 0 := by
      rw [hsets.othersSame 0 (by decide) (by rw [h.stdin]; decide), h.stdin]
    have hstdout : StdoutOpen w₁.task.table := hsets.othersSame.stdout (by decide) h.stdout
    have hfree : (w₁.task.table 3).flag = 0#32 := by
      obtain ⟨t, hticked, htable⟩ := hsets.table
      rw [htable, Function.update_of_ne (by decide), hticked.flag]
      exact h.free
    have hfields : ∀ i < fileNameSize,
        w₁.task.mem (G.buf + BitVec.ofNat 32 i) = d.fileName.getD i 0 := by
      intro i hi
      rw [← getElem_returned w₁.task G.buf hi, hname]
    have hfirst : w₁.task.mem G.buf = d.fileName.getD 0 0 := by
      simpa using hfields 0 (by decide)
    rw [if_neg (by decide), if_neg (by decide)]
    refine .bind (wp_load ⟨hbufLow, by simp only [mb132]; omega⟩ ?_)
    rw [hfirst]
    refine .ite (fun hdot => .pure ?_) fun hdot => ?_
    · -- a name that begins with a dot
      refine ⟨k - 1, by omega, p + 1, by omega, by omega, hstdin, hstdout, hsets.apply, hfree,
        h.strings.frame_buf hG hlen hmem₁, ?_⟩
      rw [hsets.out, h.out, flatMap_take_succ _ hd, grepName, if_pos hdot, List.append_nil]
    · obtain ⟨hfound, htype⟩ := hsearchable d (List.mem_of_getElem? hd) hdot
      have hstored : SameOutside G.buf 33 w₁.task.mem
          (w₁.store (G.buf + BitVec.ofNat 32 32) 0#8).task.mem :=
        .update (by omega) (by decide) _
      have hstrings := h.strings.frame_buf hG hlen (hmem₁.trans hstored)
      have hstring : StringAt (w₁.store (G.buf + BitVec.ofNat 32 32) 0#8).task.mem G.buf
          d.name := by
        have hle := length_name_le (d := d)
        simp only [fileNameSize] at hle
        refine ⟨hbufLow, by simp only [mb132]; omega, fun i hi => ?_, zero_not_mem_cString⟩
        rw [← getD_name d hi, store_task_mem]
        by_cases hi' : i < fileNameSize
        · have hne : G.buf + BitVec.ofNat 32 i ≠ G.buf + BitVec.ofNat 32 32 := fun heq =>
            absurd (add_ofNat_inj (by omega) (by omega) heq) (ne_of_lt hi')
          rw [if_pos hi', Function.update_of_ne hne, hfields i hi']
        · obtain rfl : i = 32 := by
            simp only [fileNameSize] at hi'
            omega
          rw [if_neg hi', Function.update_self]
      have hinode : ∀ i < (3 : Fd), ((w₁.store (G.buf + BitVec.ofNat 32 32) 0#8).task.table
          i).inode ≠ -1#32 ∧ ((w₁.store (G.buf + BitVec.ofNat 32 32) 0#8).task.table i).flag =
            1#32 := by
        intro i hi
        change (w₁.task.table i).inode ≠ -1#32 ∧ (w₁.task.table i).flag = 1#32
        have hcases : i = 0 ∨ i = 1 ∨ i = 2 := by
          have hi := Fin.lt_def.mp hi
          simp only [Fin.ext_iff]
          change i.val < 3 at hi
          change i.val = 0 ∨ i.val = 1 ∨ i.val = 2
          omega
        rcases hcases with rfl | rfl | rfl
        · rw [hstdin]
          decide
        · rw [show w₁.task.table 1 = createTable 1 from hstdout]
          decide
        · rw [hsets.apply]
          exact ⟨(by decide : (0#32 : Word) ≠ -1#32), rfl⟩
      refine .bind (wp_store (userPage_add hbufLow (by simp only [mb132]; omega)) (.bind
        (wp_doOneFile (j := 3) hpage hwf
          (hstrings.working hG hlen hstring length_name_le hne) hstdout
          (listed_mem_entries hmax (List.mem_of_getElem? hd)) hfound htype hfree
          (fun i hi => (hinode i hi).2) (by decide) (fun i hi => (hinode i hi).1) hstrings.last
          fun w₂ hclosed hgrepped => ?_)))
      rw [if_neg (by decide)]
      have hinode' := fun i hi => (hinode i hi).1
      refine .pure ⟨k - 1, by omega, p + 1, by omega, by omega, ?_, ?_, ?_, hclosed,
        hstrings.frame_data hG hlen hgrepped.same hgrepped.last, ?_⟩
      · rw [hgrepped.others 0 (by decide) (hinode' 0 (by decide))]
        exact hstdin
      · exact hgrepped.others.stdout (by decide) hstdout
      · rw [hgrepped.others 2 (by decide) (hinode' 2 (by decide))]
        exact hsets.apply
      · rw [hgrepped.out, flatMap_take_succ _ hd, ← h.out, ← hsets.out, grepName, if_neg hdot]
        rfl
  · intro w₁ hend hout
    refine .pure (hQ w₁ ?_)
    rw [hout, h.out, hend, List.take_length]

/-- `grep` goes through the directory and prints every line of every text file in which its argument
occurs, in order, each behind the name of the file; the pieces in which a file is read make no
difference. -/
theorem grep_lines (S : Setting) (G : Grep) (mem : Word → Byte) (c : CommandText) {d : Dentry}
    (hpage : S.PageMapped) (hwf : S.env.img.WellFormed)
    (hmax : S.env.img.numDirEntries.toNat ≤ 63) (hdot : S.env.img.firstNamed (text ".") = some d)
    (hdir : d.fileType = dirType) (hsearchable : S.env.img.Searchable) (hG : G.Placed mem)
    (hrun : S.RunBy c) (hne : c.second ≠ []) (hlen : c.second.length ≤ 127) :
    ∃ w, Ends (fun n => S.grep G n (.start mem)) (0#32, w) ∧
      w.out = S.env.img.listed.flatMap (grepName S.env.img c.second) := by
  have hgrep : WP (S.grep G) (fun r w => r = 0#32 ∧
      w.out = S.env.img.listed.flatMap (grepName S.env.img c.second)) (.start mem) := by
    have hstdout : StdoutOpen createTable := rfl
    have hhigh := hG.searchHigh
    have hdataHigh := hG.dataHigh
    have hapart := hG.searchData
    simp only [mb132] at hhigh hdataHigh
    refine .bind (wp_getargs hpage (hrun.argument hlen) c.zero_not_mem_second hne (by decide)
      hG.searchLow hG.searchHigh fun w₁ hbytes hmem htable hout => ?_)
    change ∀ i < 1024, _ at hbytes
    change SameOutside G.search 1024 _ _ at hmem
    rw [if_neg (by decide)]
    have hstrings : GrepStrings G c.second w₁.task.mem := by
      refine ⟨⟨hG.searchLow, by simp only [mb132]; omega, fun i hi => hbytes i (by omega),
        c.zero_not_mem_second⟩, (hG.colon.search.frame hmem).holds,
          (hG.lineBreak.search.frame hmem).holds, ?_⟩
      rw [hmem _ (by rw [add_ofNat_toNat (by omega)]; omega)]
      exact hG.last
    refine .bind (wp_open_first hpage (hG.dot.search.frame hmem).holds hdot (.inr (.inl hdir))
      htable fun w₂ hopen hmem₂ => ?_)
    rw [openObject_dir hdir] at hopen
    have hothers := (OthersSame.of_ticked htable).trans hopen.othersSame
    rw [if_neg (by decide)]
    refine .loop (fun k _ v => ∃ p, k + p = S.env.img.listed.length ∧
      GrepDir G S.env.img c.second v p) ⟨0, Nat.add_zero _, Nat.zero_le _, ?_,
        hothers.stdout (by decide) hstdout, hopen.apply, ?_, by rwa [hmem₂], ?_⟩ ?_
    · exact hothers 0 (by decide) (show (createTable 0).inode ≠ -1#32 by decide)
    · rw [hothers 3 (by decide) (show (createTable 3).inode ≠ -1#32 by decide)]
      rfl
    · rw [hopen.out, hout]
      rfl
    · rintro k ⟨⟩ v ⟨p, hk, h⟩
      exact h.turn hpage hwf (numDirEntries_pos hdot) hmax hsearchable hG hne hlen hk
        fun w' hout' => ⟨rfl, hout'⟩
  obtain ⟨r, w, hends, rfl, hout⟩ := hgrep
  exact ⟨w, hends, hout⟩

end

/-! ### A small run -/

/-- The directory, the RTC and a text. -/
def textImage : Image :=
  { smallImage with
    dirEntries := fun i =>
      if i < 2 then smallImage.dirEntries i
      else .make (padName (text "fish") (by decide)) 2 0
    inodes     := fun _ => ⟨23, fun _ => 0⟩
    data       := fun a => (text "red fish\nbird\nblue fish").getD a.toNat 0 }

def grepCommand : CommandText := ⟨text "grep fish", by decide, by decide⟩

def textSetting : Setting :=
  { smallSetting grepCommand with env := { smallEnv with img := textImage } }

def grepTexts : List (List Byte) :=
  [text ".", text ":", text "\n", text "could not read argument\n", text "file open failed\n",
    text "file read failed\n", text "file close failed\n", text "directory open failed\n",
    text "directory entry read failed\n"]

def smallGrep : Grep where
  search          := 0x83ff800
  buf             := 0x83ff700
  data            := 0x83ff000
  dot             := 0x8048000
  colon           := 0x8048040
  lineBreak       := 0x8048080
  noArgument      := 0x80480c0
  openFailed      := 0x8048100
  readFailed      := 0x8048140
  closeFailed     := 0x8048180
  directoryFailed := 0x80481c0
  entryFailed     := 0x8048200

lemma smallGrep_text {p : Word} {l : List Byte} (h : StringAt (loadTexts grepTexts) p l)
    (hp : p.toNat + l.length < 0x83ff000) : smallGrep.Text (loadTexts grepTexts) p l := by
  have hsearch : smallGrep.search.toNat = 0x83ff800 := rfl
  have hbuf : smallGrep.buf.toNat = 0x83ff700 := rfl
  have hdata : smallGrep.data.toNat = 0x83ff000 := rfl
  exact ⟨⟨h, by omega⟩, ⟨h, by omega⟩, ⟨h, by omega⟩⟩

lemma smallGrep_placed : smallGrep.Placed (loadTexts grepTexts) where
  searchLow       := by decide
  searchHigh      := by decide
  bufLow          := by decide
  bufHigh         := by decide
  dataLow         := by decide
  dataHigh        := by decide
  searchBuf       := by decide
  searchData      := by decide
  bufData         := by decide
  dot             := smallGrep_text ⟨by decide, by decide, by decide, by decide⟩ (by decide)
  colon           := smallGrep_text ⟨by decide, by decide, by decide, by decide⟩ (by decide)
  lineBreak       := smallGrep_text ⟨by decide, by decide, by decide, by decide⟩ (by decide)
  noArgument      := smallGrep_text ⟨by decide, by decide, by decide, by decide⟩ (by decide)
  openFailed      := smallGrep_text ⟨by decide, by decide, by decide, by decide⟩ (by decide)
  readFailed      := smallGrep_text ⟨by decide, by decide, by decide, by decide⟩ (by decide)
  closeFailed     := smallGrep_text ⟨by decide, by decide, by decide, by decide⟩ (by decide)
  directoryFailed := smallGrep_text ⟨by decide, by decide, by decide, by decide⟩ (by decide)
  entryFailed     := smallGrep_text ⟨by decide, by decide, by decide, by decide⟩ (by decide)
  last            := by decide

lemma textImage_wellFormed : textImage.WellFormed where
  numInodes_pos := by decide
  length_le     := fun _ _ => show (23#32).toNat ≤ 1023 * blockSize by decide
  blocks        := fun _ _ _ _ => show 0#32 < 1#32 by decide
  regular       := fun i _ _ => by
    rcases i with _ | _ | i <;> exact show 0#32 < 1#32 by decide

lemma textImage_searchable : textImage.Searchable := by
  have hlisted : textImage.listed =
      [textImage.dirEntries 0, textImage.dirEntries 1, textImage.dirEntries 2] := rfl
  have htext : TextFile textImage 0#32 :=
    ⟨by decide, show ShortLines _ by unfold ShortLines; decide⟩
  intro d hd hdot
  rw [hlisted] at hd
  simp only [List.mem_cons, List.not_mem_nil, or_false] at hd
  rcases hd with rfl | rfl | rfl
  · exact absurd rfl hdot
  · exact ⟨rfl, Or.inl rfl⟩
  · exact ⟨rfl, Or.inr ⟨rfl, htext⟩⟩

/-- Two of its three lines are printed. -/
theorem grep_lines_fish : ∃ w,
    Ends (fun n => textSetting.grep smallGrep n (.start (loadTexts grepTexts))) (0#32, w) ∧
      w.out = text "fish:red fish\nfish:blue fish\n" := by
  have hout : textImage.listed.flatMap (grepName textImage grepCommand.second) =
      text "fish:red fish\nfish:blue fish\n" := by
    decide
  rw [← hout]
  exact grep_lines textSetting smallGrep (loadTexts grepTexts) grepCommand
    (d := textImage.dirEntries 0) smallEnv_page textImage_wellFormed (by decide) rfl rfl
    textImage_searchable smallGrep_placed (smallSetting_runBy _ (by decide)) (by decide) (by decide)

end Osgods
