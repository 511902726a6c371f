import Osgods.User.Calls
import Osgods.Terminal.Console

/-!
# `cat` (`ece391cat.c`)

From the command line to the terminal: `parse_cmd` keeps the second word, `getargs` delivers it,
`open` looks it up, and the loop of `cat` writes what `read` returns, 1024 bytes at a time. A
directory can be read as well; then each turn writes 1024 bytes for a name of 32.
-/

namespace Osgods

open Loop ByteCopy Routine

/-- The program was started by this command. -/
def Setting.RunBy (S : Setting) (c : CommandText) : Prop :=
  ∃ filename buf p, Ends (c.parseCmd (.fresh filename) (.fresh buf)) p ∧ p.ret = 0 ∧
    S.argument = p.buf.bytes

/-- A process that has just been started. -/
def World.start (mem : Word → Byte) : World := ⟨⟨createTable, mem⟩, 0, []⟩

/-- The text `l` lies at `p`, and not in the `n` bytes from `buf` on. -/
structure TextAt (mem : Word → Byte) (buf : Word) (n : ℕ) (p : Word) (l : List Byte) : Prop where
  holds  : StringAt mem p l
  beside : p.toNat + l.length < buf.toNat ∨ buf.toNat + n ≤ p.toNat

/-- The buffer of `cat` and its texts. -/
structure Cat where
  buf         : Word
  noArguments : Word
  notFound    : Word
  readFailed  : Word

/-- The loader and the stack of a new process: the buffer lies below its first four bytes. -/
structure Cat.Placed (C : Cat) (mem : Word → Byte) : Prop where
  low         : mb128 ≤ C.buf.toNat
  high        : C.buf.toNat + 1024 ≤ mb132 - 4
  noArguments : TextAt mem C.buf 1024 C.noArguments (text "could not read arguments\n")
  notFound    : TextAt mem C.buf 1024 C.notFound (text "file not found\n")
  readFailed  : TextAt mem C.buf 1024 C.readFailed (text "file read failed\n")

namespace Setting

variable (S : Setting)

def catTurn (C : Cat) (fd : Word) : UserProgram (Unit ⊕ Word) := do
  let cnt ← S.ece391Read fd C.buf 1024#32
  if cnt = 0#32 then pure (.inr 0#32)
  else if cnt = -1#32 then do
    S.ece391Fdputs 1 C.readFailed
    pure (.inr 3#32)
  else do
    let r ← S.ece391Write 1 C.buf cnt
    if r = -1#32 then pure (.inr 3#32) else pure (.inl ())

/-- `main` of `ece391cat.c`. -/
def cat (C : Cat) : UserProgram Word := do
  let r ← S.ece391Getargs C.buf 1024#32
  if 0#32 ≠ r then do
    S.ece391Fdputs 1 C.noArguments
    pure 3#32
  else do
    let fd ← S.ece391Open C.buf
    if fd = -1#32 then do
      S.ece391Fdputs 1 C.notFound
      pure 2#32
    else .loop (fun () => S.catTurn C fd) ()

end Setting

/-- What `cat` leaves of a name: the 32 bytes of `dir_read`, and behind them the rest of its
buffer, which still holds its argument. -/
def catName (word : List Byte) (d : Dentry) : List Byte :=
  d.fileName ++ (List.range 992).map fun i => word.getD (fileNameSize + i) 0

/-- What `cat` returns and prints. -/
def catOutcome (img : Image) (word : List Byte) : Word × List Byte :=
  if word = [] then (3#32, text "could not read arguments\n")
  else
    match img.firstNamed (word.take fileNameSize) with
    | none   => (2#32, text "file not found\n")
    | some d =>
      if d.fileType = fileType then (0#32, img.content d.inodeId)
      else if d.fileType = dirType then (0#32, img.listed.flatMap (catName word))
      else if d.fileType = rtcType then (0#32, [])
      else (2#32, text "file not found\n")

section

variable {S : Setting} {C : Cat} {c : CommandText} {mem : Word → Byte} {w : World} {d : Dentry}
  {l word : List Byte}

/-- The argument that `getargs` copies. -/
lemma Setting.RunBy.argument (h : S.RunBy c) (hlen : c.second.length ≤ 127) :
    ∀ i ≤ c.second.length, S.argument i = c.second.getD i 0 := by
  obtain ⟨filename, buf, p, hp, -, hargument⟩ := h
  have hends := c.ends_parseCmd (.fresh filename) (.fresh buf)
  rw [c.parsed_of_le _ _ (hlen.trans (by decide))] at hends
  obtain rfl := hp.unique hends
  have hholds := Buffer.holds_storeAll (b := .fresh buf) (i := 0) c.zero_not_mem_second
  intro i hi
  rw [hargument]
  simpa using hholds.1 i hi

lemma TextAt.frame {mem' : Word → Byte} {buf p : Word} {n : ℕ} (h : TextAt mem buf n p l)
    (hmem : SameOutside buf n mem mem') : TextAt mem' buf n p l :=
  ⟨h.holds.frame hmem h.beside, h.beside⟩

/-- The loop over a regular file, at position `p`. -/
structure CatFile (img : Image) (inode : Word) (w : World) (p : ℕ) : Prop where
  le     : p ≤ (img.inodes inode).length.toNat
  object : w.task.table 2 = ⟨fileTable, inode, BitVec.ofNat 32 p, 1#32⟩
  stdout : StdoutOpen w.task.table
  out    : w.out = (img.content inode).take p

lemma wp_catLoop_file {inode : Word} (hpage : S.PageMapped) (hwf : S.env.img.WellFormed)
    (hC : C.Placed mem) (hinode : inode < S.env.img.numInodes)
    (h : CatFile S.env.img inode w 0) :
    WP (.loop (fun () => S.catTurn C 2#32) ())
      (fun r w' => (r, w'.out) = (0#32, S.env.img.content inode)) w := by
  have hlen := hwf.length_le _ hinode
  have hlow := hC.low
  have hhigh := hC.high
  simp only [blockSize, mb132] at hlen hhigh
  refine .loop (fun k _ v => ∃ p, k + p = (S.env.img.inodes inode).length.toNat ∧
    CatFile S.env.img inode v p) ⟨0, Nat.add_zero _, h⟩ ?_
  rintro k ⟨⟩ v ⟨p, hk, hfile⟩
  have hp : (BitVec.ofNat 32 p).toNat = p := by
    rw [BitVec.toNat_ofNat]
    omega
  refine .bind (wp_read_file (j := 2) hpage hwf (by decide) hfile.object
    ⟨(by decide : (1#32 : Word) ≠ 0#32), rfl⟩ hinode
    (by rw [hp]; exact hfile.le) hlow (by simp only [mb132]; omega) ?_ ?_)
  · change C.buf.toNat + 1024 ≤ mb132
    simp only [mb132]
    omega
  intro r w₁ hr hbytes hmem hsets
  dsimp only at hr hbytes
  rw [hp] at hr hbytes
  change r.toNat = min 1024 _ at hr
  obtain ⟨⟨t, hticked, htable⟩, hout⟩ := hsets
  have hstdout : StdoutOpen w₁.task.table := by
    rw [htable]
    exact (hfile.stdout.ticked hticked).update (by decide)
  refine .ite (fun hzero => .pure ?_) fun hne => ?_
  · -- the end of the file
    have hend : p = (S.env.img.inodes inode).length.toNat := by
      rw [hzero] at hr
      simp only [BitVec.toNat_ofNat] at hr
      omega
    have hall : (S.env.img.content inode).length ≤ p := by simp [Image.content, hend]
    change (0#32, w₁.out) = (0#32, _)
    rw [hout, hfile.out, List.take_of_length_le hall]
  · have hpos : 0 < r.toNat := by
      refine Nat.pos_of_ne_zero fun hzero => hne (BitVec.eq_of_toNat_eq ?_)
      rw [hzero]
      rfl
    have hnneg : r ≠ -1#32 := by
      rintro rfl
      simp only [BitVec.reduceNeg, BitVec.toNat_ofNat] at hr
      omega
    rw [if_neg hnneg]
    refine .bind (wp_write_stdout hpage hstdout hlow (by simp only [mb132]; omega) ?_)
    intro w₂ hprints
    rw [if_neg hnneg]
    refine .pure ⟨k - r.toNat, by omega, p + r.toNat, by omega, by omega, ?_, ?_, ?_⟩
    · have hinode' : inode ≠ -1#32 := by
        rintro rfl
        have hnum := hwf.toNat_pos.2
        rw [BitVec.lt_def] at hinode
        simp only [BitVec.reduceNeg, BitVec.toNat_ofNat] at hinode
        omega
      have hobject : w₁.task.table 2 =
          ⟨fileTable, inode, BitVec.ofNat 32 p + r, 1#32⟩ := by
        rw [htable, Function.update_self]
      rw [hprints.table.eq_of_inode (by rwa [hobject]), hobject, BitVec.ofNat_add,
        BitVec.ofNat_toNat, BitVec.setWidth_eq]
    · exact hstdout.ticked hprints.table
    · rw [hprints.out, hout, hfile.out, hbytes, List.take_add]

/-- The loop over the directory, after `p` names. -/
structure CatDir (img : Image) (buf : Word) (word : List Byte) (w : World) (p : ℕ) : Prop where
  le     : p ≤ img.listed.length
  object : w.task.table 2 = ⟨dirTable, 0#32, BitVec.ofNat 32 p, 1#32⟩
  stdout : StdoutOpen w.task.table
  rest   : ∀ i < 992, w.task.mem (buf + BitVec.ofNat 32 (fileNameSize + i)) =
    word.getD (fileNameSize + i) 0
  out    : w.out = (img.listed.take p).flatMap (catName word)

/-- One more element of a list that is gone through. -/
lemma flatMap_take_succ {α : Type} (f : α → List Byte) {l : List α} {p : ℕ} {x : α}
    (h : l[p]? = some x) : (l.take (p + 1)).flatMap f = (l.take p).flatMap f ++ f x := by
  rw [List.take_add_one, h, List.flatMap_append]
  simp

lemma returned_append (τ : Task) (buf : Word) (m n : ℕ) : returned τ buf (m + n) =
    returned τ buf m ++ (List.range n).map fun i => τ.mem (buf + BitVec.ofNat 32 (m + i)) := by
  simp [returned, List.range_add, Function.comp_def]

lemma wp_catLoop_dir (hpage : S.PageMapped) (hpos : 1 ≤ S.env.img.numDirEntries.toNat)
    (hmax : S.env.img.numDirEntries.toNat ≤ 63) (hC : C.Placed mem)
    (h : CatDir S.env.img C.buf word w 0) :
    WP (.loop (fun () => S.catTurn C 2#32) ())
      (fun r w' => (r, w'.out) = (0#32, S.env.img.listed.flatMap (catName word))) w := by
  have hlow := hC.low
  have hhigh := hC.high
  simp only [mb132] at hhigh
  refine .loop (fun k _ v => ∃ p, k + p = S.env.img.listed.length ∧
    CatDir S.env.img C.buf word v p) ⟨0, Nat.add_zero _, h⟩ ?_
  rintro k ⟨⟩ v ⟨p, hk, hdir⟩
  refine .bind (wp_read_dir (j := 2) hpage hpos hmax (by decide) hdir.object hdir.le hlow
    (by simp only [mb132, fileNameSize]; omega) (by decide) ?_ ?_)
  · intro w₁ d hd hname hmem hsets
    obtain ⟨⟨t, hticked, htable⟩, hout⟩ := hsets
    have hlt : p < S.env.img.listed.length := (List.getElem?_eq_some_iff.mp hd).1
    have hstdout : StdoutOpen w₁.task.table := by
      rw [htable]
      exact (hdir.stdout.ticked hticked).update (by decide)
    have hrest : ∀ i < 992, w₁.task.mem (C.buf + BitVec.ofNat 32 (fileNameSize + i)) =
        word.getD (fileNameSize + i) 0 := by
      intro i hi
      rw [hmem _ ?_]
      · exact hdir.rest i hi
      · rw [add_ofNat_toNat (by simp only [fileNameSize]; omega)]
        omega
    have hbytes : returned w₁.task C.buf 1024 = catName word d := by
      have hsplit := returned_append w₁.task C.buf fileNameSize 992
      rw [hname] at hsplit
      refine hsplit.trans (congrArg (d.fileName ++ ·) ?_)
      exact List.map_congr_left fun i hi => hrest i (List.mem_range.mp hi)
    rw [if_neg (by decide), if_neg (by decide)]
    refine .bind (wp_write_stdout hpage hstdout hlow ?_ ?_)
    · change C.buf.toNat + 1024 ≤ mb132
      simp only [mb132]
      omega
    intro w₂ hprints
    rw [if_neg (by decide)]
    refine .pure ⟨k - 1, by omega, p + 1, by omega, by omega, ?_, ?_, ?_, ?_⟩
    · have hobject : w₁.task.table 2 = ⟨dirTable, 0#32, BitVec.ofNat 32 (p + 1), 1#32⟩ := by
        rw [htable, Function.update_self]
      rw [hprints.table.eq_of_inode ?_, hobject]
      rw [hobject]
      exact (by decide : (0#32 : Word) ≠ -1#32)
    · exact hstdout.ticked hprints.table
    · rw [hprints.mem]
      exact hrest
    · change returned w₁.task C.buf 1024 = _ at hbytes
      rw [hprints.out, hout, hdir.out, flatMap_take_succ _ hd]
      exact congrArg _ hbytes
  · intro w₁ hend hout
    refine .pure ?_
    change (0#32, w₁.out) = (0#32, _)
    rw [hout, hdir.out, hend, List.take_length]

/-- The types of the entries that can be opened. -/
lemma openObject_file (h : d.fileType = fileType) :
    openObject d = ⟨fileTable, d.inodeId, 0#32, 1#32⟩ := by
  simp [openObject, h, fileType, rtcType, dirType]

lemma openObject_dir (h : d.fileType = dirType) :
    openObject d = ⟨dirTable, 0#32, 0#32, 1#32⟩ := by
  simp [openObject, h, fileType, rtcType, dirType]

lemma openObject_rtc (h : d.fileType = rtcType) :
    openObject d = ⟨rtcTable, -1#32, 0#32, 1#32⟩ := by
  simp [openObject, h]

/-- An entry has been found, so there is one. -/
lemma numDirEntries_pos {img : Image} {name : List Byte} (h : img.firstNamed name = some d) :
    1 ≤ img.numDirEntries.toNat := by
  obtain ⟨i, hi, -⟩ := List.mem_map.mp (firstNamed_eq_some h).1
  have hlt := List.mem_range.mp hi
  rw [BitVec.toInt_eq_toNat_cond] at hlt
  split_ifs at hlt <;> omega

/-- A file in the directory that is opened first gets descriptor 2. -/
lemma wp_open_first {Q : Word → World → Prop} {a : Word} (hpage : S.PageMapped)
    (h : StringAt w.task.mem a l) (hd : S.env.img.firstNamed (l.take fileNameSize) = some d)
    (htype : d.fileType = rtcType ∨ d.fileType = dirType ∨ d.fileType = fileType)
    (htable : Ticked createTable w.task.table)
    (hQ : ∀ w', w.Sets 2 (openObject d) w' → w'.task.mem = w.task.mem → Q 2#32 w') :
    WP (S.ece391Open a) Q w := by
  refine wp_open (j := 2) hpage h hd ?_ ?_ ?_ hQ
  · rcases htype with h | h | h <;> (rw [h]; decide)
  · rw [htable.flag]
    decide
  · have hfirst : ∀ i : Fd, i < 2 → (createTable i).flag = 1#32 := by decide
    intro i hi
    rw [htable.flag]
    exact hfirst i hi

lemma wp_cat (hpage : S.PageMapped) (hwf : S.env.img.WellFormed)
    (hmax : S.env.img.numDirEntries.toNat ≤ 63) (hC : C.Placed mem) (hrun : S.RunBy c)
    (hlen : c.second.length ≤ 127) :
    WP (S.cat C) (fun r w => (r, w.out) = catOutcome S.env.img c.second) (.start mem) := by
  have hargument := hrun.argument hlen
  have hlow := hC.low
  have hhigh := hC.high
  have hstdout : StdoutOpen createTable := rfl
  by_cases hword : c.second = []
  · have hzero : S.argument 0 = 0#8 := by
      rw [hargument 0 (Nat.zero_le _), hword]
      rfl
    refine .bind (wp_getargs_fail hzero fun w₁ h₁ => ?_)
    rw [if_pos (by decide)]
    refine .bind (wp_fdputs hpage (hstdout.ticked h₁.table) (l := text "could not read arguments\n")
      ?_ fun w₂ h₂ => .pure ?_)
    · rw [h₁.mem]
      exact hC.noArguments.holds
    · rw [catOutcome, if_pos hword, (h₁.trans h₂).out]
      rfl
  refine .bind (wp_getargs hpage hargument c.zero_not_mem_second hword (by decide) hlow hhigh ?_)
  intro w₁ hbytes hmem htable hout
  change ∀ i < 1024, _ at hbytes
  rw [if_neg (by decide)]
  simp only [mb132] at hhigh
  have hname : StringAt w₁.task.mem C.buf c.second := by
    refine ⟨hlow, by simp only [mb132]; omega, fun i hi => hbytes i (by omega),
      c.zero_not_mem_second⟩
  -- what `open` does when there is no such file
  have hnotFound : (∀ d, S.env.img.firstNamed (c.second.take fileNameSize) = some d →
      d.fileType.slt rtcType ∨ fileType.slt d.fileType) →
      WP (do
        let fd ← S.ece391Open C.buf
        if fd = -1#32 then do
          S.ece391Fdputs 1 C.notFound
          pure 2#32
        else .loop (fun () => S.catTurn C fd) ())
      (fun r w => (r, w.out) = (2#32, text "file not found\n")) w₁ := by
    intro hd
    refine .bind (wp_open_fail hpage hname hd fun w₂ h₂ => ?_)
    rw [if_pos rfl]
    refine .bind (wp_fdputs hpage (hstdout.ticked (htable.trans h₂.table))
      (l := text "file not found\n") ?_ fun w₃ h₃ => .pure ?_)
    · rw [h₂.mem]
      exact (hC.notFound.frame hmem).holds
    · rw [(h₂.trans h₃).out, hout]
      rfl
  rw [catOutcome, if_neg hword]
  cases hd : S.env.img.firstNamed (c.second.take fileNameSize) with
  | none => exact hnotFound fun d h => by rw [hd] at h; cases h
  | some d =>
    have hsets : ∀ {w₂ : World} {o : FileObject}, w₁.Sets 2 o w₂ → w₂.task.table 2 = o ∧
        (∀ i < (2 : Fd), w₂.task.table i = createTable i) ∧ w₂.out = [] := by
      rintro w₂ o ⟨⟨t, hticked, htable₂⟩, hout₂⟩
      refine ⟨by rw [htable₂, Function.update_self], fun i hi => ?_, by rw [hout₂, hout]; rfl⟩
      have hinode : ∀ i : Fd, (createTable i).inode ≠ -1#32 := by decide
      rw [htable₂, Function.update_of_ne (ne_of_lt hi),
        (htable.trans hticked).eq_of_inode (hinode i)]
      rfl
    by_cases htype : d.fileType = rtcType ∨ d.fileType = dirType ∨ d.fileType = fileType
    · refine .bind (wp_open_first hpage hname hd htype htable fun w₂ hopen hmem₂ => ?_)
      obtain ⟨hobject, hstd, hout₂⟩ := hsets hopen
      have hstdout₂ : StdoutOpen w₂.task.table := hstd 1 (by decide)
      rw [if_neg (by decide)]
      rcases htype with hrtc | hdir | hfile
      · -- one read of the RTC, which returns 0
        rw [openObject_rtc hrtc] at hobject
        have hnfile : d.fileType ≠ fileType := by rw [hrtc]; decide
        have hndir : d.fileType ≠ dirType := by rw [hrtc]; decide
        simp only [if_neg hnfile, if_neg hndir, if_pos hrtc]
        refine .loop (fun k _ v => k = 0 ∧ v = w₂) ⟨rfl, rfl⟩ ?_
        rintro k ⟨⟩ v ⟨-, rfl⟩
        refine .bind (wp_read_rtc (j := 2) (by decide) hobject rfl rfl rfl (fun i hi h => ?_) hlow
          (by decide) fun w₃ _ h₃ => ?_)
        · rw [hstd i hi] at h
          have hinode : ∀ i : Fd, (createTable i).inode ≠ -1#32 := by decide
          exact hinode i h.1
        · refine .pure ?_
          change (0#32, w₃.out) = (0#32, [])
          rw [h₃.out, hout₂]
      · rw [openObject_dir hdir] at hobject
        have hnfile : d.fileType ≠ fileType := by rw [hdir]; decide
        simp only [if_neg hnfile, if_pos hdir]
        refine wp_catLoop_dir hpage (numDirEntries_pos hd) hmax hC
          ⟨Nat.zero_le _, hobject, hstdout₂, fun i hi => ?_, hout₂⟩
        rw [hmem₂]
        exact hbytes _ (by simp only [fileNameSize]; omega)
      · rw [openObject_file hfile] at hobject
        simp only [if_pos hfile]
        have hentry := firstNamed_eq_some hd
        obtain ⟨i, hi, heq⟩ := List.mem_map.mp hentry.1
        refine wp_catLoop_file hpage hwf hC ?_ ⟨Nat.zero_le _, hobject, hstdout₂, hout₂⟩
        rw [← heq] at hfile ⊢
        exact hwf.regular i (List.mem_range.mp hi) hfile
    · obtain ⟨hrtc, hother⟩ := not_or.mp htype
      obtain ⟨hdir, hfile⟩ := not_or.mp hother
      simp only [if_neg hfile, if_neg hdir, if_neg hrtc]
      refine hnotFound fun d' h => ?_
      obtain rfl := Option.some.inj (hd.symm.trans h)
      by_contra hvalid
      exact htype (openType_cases hvalid)

/-- Whatever the second word of the command names, `cat` terminates: it prints a whole regular file,
nothing of the RTC, and 1024 bytes for each name of the directory. -/
theorem cat_outcome (S : Setting) (C : Cat) (mem : Word → Byte) (c : CommandText)
    (hpage : S.PageMapped) (hwf : S.env.img.WellFormed)
    (hmax : S.env.img.numDirEntries.toNat ≤ 63) (hC : C.Placed mem) (hrun : S.RunBy c)
    (hlen : c.second.length ≤ 127) :
    ∃ r w, Ends (fun n => S.cat C n (.start mem)) (r, w) ∧
      (r, w.out) = catOutcome S.env.img c.second :=
  wp_cat hpage hwf hmax hC hrun hlen

end

/-! ### A small run -/

/-- Texts in a page, each with its terminator, one every 64 bytes from `0x8048000` on. -/
def loadTexts (l : List (List Byte)) (a : Word) : Byte :=
  (l.getD ((a.toNat - 0x8048000) / 64) []).getD ((a.toNat - 0x8048000) % 64) 0

/-- A process of the small image that a command has started; the RTC interrupts more and more. -/
def smallSetting (c : CommandText) : Setting where
  env      := smallEnv
  argument := (c.parsed (.fresh fun _ => 0) (.fresh fun _ => 0)).buf.bytes
  ticks    := fun k => k
  keys     := fun _ => ⟨fun _ => 0, 0⟩

lemma smallSetting_runBy (c : CommandText) (hlen : c.second.length ≤ maxArgumentSize) :
    (smallSetting c).RunBy c := by
  refine ⟨fun _ => 0, fun _ => 0, _, c.ends_parseCmd _ _, ?_, rfl⟩
  rw [c.parsed_of_le _ _ hlen]

def catTexts : List (List Byte) :=
  [text "could not read arguments\n", text "file not found\n", text "file read failed\n"]

/-- Its buffer at the end of the page. -/
def smallCat : Cat := ⟨0x83ffbf0, 0x8048000, 0x8048040, 0x8048080⟩

lemma smallCat_placed : smallCat.Placed (loadTexts catTexts) where
  low         := by decide
  high        := by decide
  noArguments := ⟨⟨by decide, by decide, by decide, by decide⟩, by decide⟩
  notFound    := ⟨⟨by decide, by decide, by decide, by decide⟩, by decide⟩
  readFailed  := ⟨⟨by decide, by decide, by decide, by decide⟩, by decide⟩

/-- `"cat shell"`. -/
def catShell : CommandText := ⟨text "cat shell", by decide, by decide⟩

/-- It prints the file. -/
theorem cat_outcome_shell : ∃ r w,
    Ends (fun n => (smallSetting catShell).cat smallCat n (.start (loadTexts catTexts))) (r, w) ∧
      (r, w.out) = (0#32, smallImage.content 0#32) := by
  have houtcome : catOutcome smallImage catShell.second = (0#32, smallImage.content 0#32) := by
    decide
  rw [← houtcome]
  exact cat_outcome (smallSetting catShell) smallCat (loadTexts catTexts) catShell smallEnv_page
    smallImage_wellFormed (by decide) smallCat_placed (smallSetting_runBy _ (by decide))
    (by decide)

end Osgods
