import Osgods.User.Cat

/-!
# `ls` (`ece391ls.c`)

A line is the 32 bytes of a name, with its padding, and a newline that `ls` stores behind them.
-/

namespace Osgods

open Loop ByteCopy Routine

/-- The buffer of `ls`, of `SBUFSIZE` bytes, and its texts. -/
structure Ls where
  buf        : Word
  dot        : Word
  openFailed : Word
  readFailed : Word

structure Ls.Placed (L : Ls) (mem : Word → Byte) : Prop where
  low        : mb128 ≤ L.buf.toNat
  high       : L.buf.toNat + 33 ≤ mb132
  dot        : TextAt mem L.buf 33 L.dot (text ".")
  openFailed : TextAt mem L.buf 33 L.openFailed (text "directory open failed\n")
  readFailed : TextAt mem L.buf 33 L.readFailed (text "directory entry read failed\n")

namespace Setting

variable (S : Setting)

def lsTurn (L : Ls) (fd : Word) : UserProgram (Unit ⊕ Word) := do
  let cnt ← S.ece391Read fd L.buf 32#32
  if cnt = 0#32 then pure (.inr 0#32)
  else if cnt = -1#32 then do
    S.ece391Fdputs 1 L.readFailed
    pure (.inr 3#32)
  else do
    store (L.buf + cnt) 0x0a#8
    let r ← S.ece391Write 1 L.buf (cnt + 1)
    if r = -1#32 then pure (.inr 3#32) else pure (.inl ())

/-- `main` of `ece391ls.c`. -/
def ls (L : Ls) : UserProgram Word := do
  let fd ← S.ece391Open L.dot
  if fd = -1#32 then do
    S.ece391Fdputs 1 L.openFailed
    pure 2#32
  else .loop (fun () => S.lsTurn L fd) ()

end Setting

/-- A line of `ls`. -/
def lsLine (d : Dentry) : List Byte := d.fileName ++ text "\n"

section

variable {S : Setting} {L : Ls} {mem : Word → Byte} {w : World}

/-- The loop, after `p` names. -/
structure LsDir (img : Image) (w : World) (p : ℕ) : Prop where
  le     : p ≤ img.listed.length
  object : w.task.table 2 = ⟨dirTable, 0#32, BitVec.ofNat 32 p, 1#32⟩
  stdout : StdoutOpen w.task.table
  out    : w.out = (img.listed.take p).flatMap lsLine

lemma wp_lsLoop (hpage : S.PageMapped) (hpos : 1 ≤ S.env.img.numDirEntries.toNat)
    (hmax : S.env.img.numDirEntries.toNat ≤ 63) (hL : L.Placed mem) (h : LsDir S.env.img w 0) :
    WP (.loop (fun () => S.lsTurn L 2#32) ())
      (fun r w' => r = 0#32 ∧ w'.out = S.env.img.listed.flatMap lsLine) w := by
  have hlow := hL.low
  have hhigh := hL.high
  simp only [mb132] at hhigh
  refine .loop (fun k _ v => ∃ p, k + p = S.env.img.listed.length ∧ LsDir S.env.img v p)
    ⟨0, Nat.add_zero _, h⟩ ?_
  rintro k ⟨⟩ v ⟨p, hk, hdir⟩
  refine .bind (wp_read_dir (j := 2) hpage hpos hmax (by decide) hdir.object hdir.le hlow
    (by simp only [mb132, fileNameSize]; omega) (by decide) ?_ ?_)
  · intro w₁ d hd hname hmem hsets
    obtain ⟨⟨t, hticked, htable⟩, hout⟩ := hsets
    have hlt : p < S.env.img.listed.length := (List.getElem?_eq_some_iff.mp hd).1
    have hstdout : StdoutOpen w₁.task.table := by
      rw [htable]
      exact (hdir.stdout.ticked hticked).update (by decide)
    rw [if_neg (by decide), if_neg (by decide)]
    have hend : (L.buf + BitVec.ofNat 32 32).toNat = L.buf.toNat + 32 :=
      add_ofNat_toNat (by omega)
    -- the newline does not touch the name
    have hline : returned (w₁.store (L.buf + BitVec.ofNat 32 32) 0x0a#8).task L.buf 33 =
        lsLine d := by
      rw [returned_append _ _ fileNameSize 1, lsLine, ← hname]
      congr 1
      · refine List.map_congr_left fun i hi => Function.update_of_ne (fun heq => ?_) _ _
        have hi := List.mem_range.mp hi
        simp only [fileNameSize] at hi
        exact absurd (add_ofNat_inj (by omega) (by omega) heq) (by omega)
      · simp only [List.range_one, List.map_singleton, Nat.add_zero]
        exact congrArg (fun b => [b]) (Function.update_self _ _ _)
    refine .bind (wp_store ⟨by omega, by simp only [mb132]; omega⟩ (.bind
      (wp_write_stdout hpage hstdout hlow ?_ fun w₂ hprints => ?_)))
    · change L.buf.toNat + 33 ≤ mb132
      simp only [mb132]
      omega
    rw [if_neg (by decide)]
    refine .pure ⟨k - 1, by omega, p + 1, by omega, by omega, ?_, ?_, ?_⟩
    · have hobject : w₁.task.table 2 = ⟨dirTable, 0#32, BitVec.ofNat 32 (p + 1), 1#32⟩ := by
        rw [htable, Function.update_self]
      exact (hprints.table.eq_of_inode
        (by change (w₁.task.table 2).inode ≠ _
            rw [hobject]
            exact (by decide : (0#32 : Word) ≠ -1#32))).trans hobject
    · exact StdoutOpen.ticked (t := w₁.task.table) hstdout hprints.table
    · rw [hprints.out, flatMap_take_succ _ hd, ← hdir.out, ← hout, ← hline]
      rfl
  · intro w₁ hend hout
    refine .pure ⟨rfl, ?_⟩
    rw [hout, hdir.out, hend, List.take_length]

/-- `ls` prints the name of every file, in the order of the directory, and returns 0. -/
theorem ls_lists (S : Setting) (L : Ls) (mem : Word → Byte) {d : Dentry} (hpage : S.PageMapped)
    (hmax : S.env.img.numDirEntries.toNat ≤ 63) (hdot : S.env.img.firstNamed (text ".") = some d)
    (hdir : d.fileType = dirType) (hL : L.Placed mem) :
    ∃ w, Ends (fun n => S.ls L n (.start mem)) (0#32, w) ∧
      w.out = S.env.img.listed.flatMap lsLine := by
  have hls : WP (S.ls L) (fun r w => r = 0#32 ∧ w.out = S.env.img.listed.flatMap lsLine)
      (.start mem) := by
    refine .bind (wp_open_first hpage hL.dot.holds hdot (.inr (.inl hdir)) (.refl _)
      fun w₁ hopen _ => ?_)
    obtain ⟨⟨t, hticked, htable⟩, hout⟩ := hopen
    have hstdout : StdoutOpen createTable := rfl
    rw [if_neg (by decide)]
    refine wp_lsLoop hpage (numDirEntries_pos hdot) hmax hL ⟨Nat.zero_le _, ?_, ?_, hout⟩
    · rw [htable, Function.update_self, openObject_dir hdir]
    · rw [htable]
      exact (hstdout.ticked hticked).update (by decide)
  obtain ⟨r, w, hends, rfl, hout⟩ := hls
  exact ⟨w, hends, hout⟩

def lsTexts : List (List Byte) :=
  [text ".", text "directory open failed\n", text "directory entry read failed\n"]

def smallLs : Ls := ⟨0x83fff00, 0x8048000, 0x8048040, 0x8048080⟩

lemma smallLs_placed : smallLs.Placed (loadTexts lsTexts) where
  low        := by decide
  high       := by decide
  dot        := ⟨⟨by decide, by decide, by decide, by decide⟩, by decide⟩
  openFailed := ⟨⟨by decide, by decide, by decide, by decide⟩, by decide⟩
  readFailed := ⟨⟨by decide, by decide, by decide, by decide⟩, by decide⟩

/-- The three names of the small image. -/
theorem ls_lists_small : ∃ w,
    Ends (fun n => (smallSetting catShell).ls smallLs n (.start (loadTexts lsTexts))) (0#32, w) ∧
      w.out = smallImage.listed.flatMap lsLine :=
  ls_lists (smallSetting catShell) smallLs (loadTexts lsTexts) (d := smallImage.dirEntries 0)
    smallEnv_page (by decide) rfl rfl smallLs_placed

end

end Osgods
