import Osgods.User.Support

/-!
# What a program can rely on

For each call of the kernel there is one rule, which says what it returns and what it changes. The
RTC may interrupt before any call: a descriptor of the RTC counts then, and the others stay as they
are.
-/

namespace Osgods

open Loop ByteCopy Routine

/-- A table some RTC interrupts later. -/
def Ticked (t t' : FileTable) : Prop := ∃ n, t' = rtcTick^[n] t

/-- `l` has been printed, and apart from that only the RTC has interrupted. -/
structure World.Prints (w : World) (l : List Byte) (w' : World) : Prop where
  mem   : w'.task.mem = w.task.mem
  table : Ticked w.task.table w'.task.table
  out   : w'.out = w.out ++ l

section

variable {S : Setting} {w w' w'' : World} {mem mem' mem'' : Word → Byte} {a b buf fd nbytes : Word}
  {l l' : List Byte} {n : ℕ} {t : FileTable} {j : Fd} {Q : Word → World → Prop}

/-! ### The RTC interrupt -/

/-- An interrupt counts in a descriptor of the RTC, and changes nothing else. -/
lemma rtcTick_apply (t : FileTable) (j : Fd) :
    ∃ p, rtcTick t j = { t j with filePosition := p } ∧
      ((t j).inode ≠ -1#32 → p = (t j).filePosition) := by
  rcases rtcTick_cases t with heq | ⟨i, hinode, -, heq⟩
  · exact ⟨(t j).filePosition, by rw [heq], fun _ => rfl⟩
  · rw [heq]
    by_cases hij : j = i
    · subst hij
      exact ⟨(t j).filePosition + 1#32, by rw [Function.update_self], fun hne => absurd hinode hne⟩
    · exact ⟨(t j).filePosition, by rw [Function.update_of_ne hij], fun _ => rfl⟩

namespace Ticked

variable {t' t'' : FileTable}

lemma refl (t : FileTable) : Ticked t t := ⟨0, rfl⟩

lemma trans (h : Ticked t t') (h' : Ticked t' t'') : Ticked t t'' := by
  obtain ⟨m, rfl⟩ := h
  obtain ⟨n, rfl⟩ := h'
  exact ⟨n + m, (Function.iterate_add_apply _ _ _ _).symm⟩

lemma iterate (n : ℕ) (t : FileTable) : Ticked t (rtcTick^[n] t) := ⟨n, rfl⟩

lemma apply (h : Ticked t t') (j : Fd) :
    ∃ p, t' j = { t j with filePosition := p } ∧
      ((t j).inode ≠ -1#32 → p = (t j).filePosition) := by
  obtain ⟨n, rfl⟩ := h
  induction n with
  | zero => exact ⟨(t j).filePosition, rfl, fun _ => rfl⟩
  | succ n ih =>
    obtain ⟨p, hp, hsame⟩ := ih
    obtain ⟨q, hq, hsame'⟩ := rtcTick_apply (rtcTick^[n] t) j
    rw [hp] at hq hsame'
    exact ⟨q, by rw [Function.iterate_succ_apply', hq], fun hne =>
      (hsame' hne).trans (hsame hne)⟩

/-- Descriptors that are not of the RTC stay as they are. -/
lemma eq_of_inode (h : Ticked t t') (hj : (t j).inode ≠ -1#32) : t' j = t j := by
  obtain ⟨p, hp, hsame⟩ := h.apply j
  rw [hp, hsame hj]

lemma flag (h : Ticked t t') (j : Fd) : (t' j).flag = (t j).flag := by
  obtain ⟨p, hp, -⟩ := h.apply j
  rw [hp]

lemma inode (h : Ticked t t') (j : Fd) : (t' j).inode = (t j).inode := by
  obtain ⟨p, hp, -⟩ := h.apply j
  rw [hp]

lemma fileOpTb (h : Ticked t t') (j : Fd) : (t' j).fileOpTb = (t j).fileOpTb := by
  obtain ⟨p, hp, -⟩ := h.apply j
  rw [hp]

end Ticked

namespace World.Prints

lemma refl (w : World) : w.Prints [] w := ⟨rfl, .refl _, by simp⟩

lemma trans (h : w.Prints l w') (h' : w'.Prints l' w'') : w.Prints (l ++ l') w'' where
  mem   := h'.mem.trans h.mem
  table := h.table.trans h'.table
  out   := by rw [h'.out, h.out, List.append_assoc]

end World.Prints

/-! ### Calls -/

/-- A call that does not wait. -/
lemma wp_sys {c : Call} {r : Word} {τ : Task}
    (h : (w.task.interrupted (S.ticks w.calls)).step S.env c = some (some r, τ))
    (hQ : Q r ⟨τ, w.calls + 1, w.out ++ printed τ c r⟩) : WP (S.sys c) Q w := by
  refine .change ?_ hQ
  simp only [h]
  rfl

/-- A call that waits. -/
lemma wp_sys_wait {c : Call} {r : Word} {τ : Task}
    (hwait : (w.task.interrupted (S.ticks w.calls)).step S.env c = none)
    (h : (w.task.interrupted (S.ticks w.calls + 1)).step S.env c = some (some r, τ))
    (hQ : Q r ⟨τ, w.calls + 1, w.out ++ printed τ c r⟩) : WP (S.sys c) Q w := by
  refine .change ?_ hQ
  simp only [hwait, h]
  rfl

/-- The whole page of a program is mapped. -/
def Setting.PageMapped (S : Setting) : Prop := ∀ a, UserPage a → S.env.mapped a = true

lemma readable_of_page (hpage : S.PageMapped) (hlow : mb128 ≤ a.toNat)
    (hhigh : a.toNat + n ≤ mb132) : S.env.readable a n = true := by
  simp only [FileEnv.readable, List.all_eq_true, List.mem_range]
  exact fun i hi => hpage _ (userPage_add hlow (by omega))

/-- A write to the terminal. -/
lemma wp_write (hpage : S.PageMapped) (hfd : fdOf fd = some j)
    (hflag : (w.task.table j).flag ≠ 0#32)
    (hfn : (w.task.table j).fileOpTb.writeFn = .terminalWrite) (hlow : mb128 ≤ buf.toNat)
    (hhigh : buf.toNat + nbytes.toNat ≤ mb132)
    (hQ : ∀ w', w.Prints (returned w.task buf nbytes.toNat) w' → Q nbytes w') :
    WP (S.ece391Write fd buf nbytes) Q w := by
  have hticked : Ticked w.task.table (w.task.interrupted (S.ticks w.calls)).table := .iterate _ _
  have hn : nbytes.toNat < 2 ^ 31 := by
    simp only [mb128, mb132] at hlow hhigh
    omega
  have hneg : nbytes.slt 0#32 = false := by
    simp only [BitVec.slt_eq_decide, BitVec.toInt_eq_toNat_cond, BitVec.toNat_ofNat,
      decide_eq_false_iff_not]
    omega
  have hfn' : ((w.task.interrupted (S.ticks w.calls)).table j).fileOpTb.writeFn =
      .terminalWrite := by
    rw [hticked.fileOpTb]
    exact hfn
  have hargs : ¬ (buf = 0#32 ∨ nbytes.slt 0#32 = true) := by
    simp [own_ne_zero hlow, hneg]
  have hcall : writeCall S.env fd buf nbytes (w.task.interrupted (S.ticks w.calls)) =
      some nbytes := by
    have hflag' : ((w.task.interrupted (S.ticks w.calls)).table j).flag ≠ 0#32 := by
      rw [hticked.flag]
      exact hflag
    simp only [writeCall, hfd, if_neg hargs, if_neg hflag', callWrite, hfn',
      readable_of_page hpage hlow hhigh, if_true]
  refine wp_sys (τ := w.task.interrupted (S.ticks w.calls)) ?_ (hQ _ ⟨rfl, hticked, ?_⟩)
  · rw [Task.step, hcall]
    rfl
  · have hne : nbytes ≠ -1#32 := by
      rintro rfl
      exact absurd hn (by decide)
    simp only [printed, hfd, hfn']
    rw [if_pos ⟨trivial, hne⟩]
    rfl

/-- The bytes of a string, before its terminator. -/
lemma StringAt.returned (h : StringAt mem a l) (t : FileTable) :
    returned ⟨t, mem⟩ a l.length = l := by
  have hbytes : ∀ i ∈ List.range l.length, mem (a + BitVec.ofNat 32 i) = l.getD i 0 :=
    fun i hi => h.bytes i (List.mem_range.mp hi).le
  simp only [Osgods.returned]
  rw [List.map_congr_left hbytes]
  apply List.ext_getElem?
  intro i
  by_cases hi : i < l.length <;> simp [hi]

/-- Descriptor 1, as `create_pcb` leaves it. -/
def StdoutOpen (t : FileTable) : Prop := t 1 = createTable 1

lemma StdoutOpen.ticked {t' : FileTable} (h : StdoutOpen t) (hticked : Ticked t t') :
    StdoutOpen t' := by
  rw [StdoutOpen, hticked.eq_of_inode ?_]
  · exact h
  · rw [h]
    decide

lemma StdoutOpen.update {o : FileObject} (h : StdoutOpen t) (hj : 1 < j.val) :
    StdoutOpen (Function.update t j o) := by
  rw [StdoutOpen, Function.update_of_ne]
  · exact h
  · rintro rfl
    exact absurd hj (by decide)

/-- A write to descriptor 1. -/
lemma wp_write_stdout (hpage : S.PageMapped) (hout : StdoutOpen w.task.table)
    (hlow : mb128 ≤ buf.toNat) (hhigh : buf.toNat + nbytes.toNat ≤ mb132)
    (hQ : ∀ w', w.Prints (returned w.task buf nbytes.toNat) w' → Q nbytes w') :
    WP (S.ece391Write 1 buf nbytes) Q w := by
  refine wp_write (j := 1) hpage (by decide) ?_ ?_ hlow hhigh hQ
  · rw [hout]
    decide
  · rw [hout]
    rfl

lemma wp_fdputs {Q : Unit → World → Prop} (hpage : S.PageMapped)
    (hout : StdoutOpen w.task.table) (h : StringAt w.task.mem a l)
    (hQ : ∀ w', w.Prints l w' → Q () w') : WP (S.ece391Fdputs 1 a) Q w := by
  have hhigh := h.high
  have hlen : (BitVec.ofNat 32 l.length).toNat = l.length := by
    rw [BitVec.toNat_ofNat, Nat.mod_eq_of_lt h.length_lt]
  refine .bind (wp_strlen h (.bind (wp_write_stdout hpage hout h.low (by omega) ?_)))
  intro w' hprints
  rw [hlen, h.returned] at hprints
  exact .pure (hQ w' hprints)

/-- A call has set one descriptor, after some RTC interrupts, and printed nothing. -/
structure World.Sets (w : World) (j : Fd) (o : FileObject) (w' : World) : Prop where
  table : ∃ t, Ticked w.task.table t ∧ w'.task.table = Function.update t j o
  out   : w'.out = w.out

lemma interrupted_ticked (n : ℕ) (τ : Task) : Ticked τ.table (τ.interrupted n).table :=
  .iterate _ _

/-- The lowest free descriptor is found. -/
lemma findFree_eq_some (hj : (t j).flag = 0#32) (hlow : ∀ i < j, (t i).flag = 1#32) :
    findFree t (List.finRange 8) = some j := by
  have hsplit : ∀ j : Fd, List.finRange 8 =
      (List.finRange 8).filter (· < j) ++ j :: (List.finRange 8).filter (j < ·) := by decide
  have hfind : ∀ pre post : List Fd, (∀ i ∈ pre, i < j) →
      findFree t (pre ++ j :: post) = some j := by
    intro pre post hpre
    induction pre with
    | nil => simp [findFree, hj]
    | cons i pre ih =>
      have hi := hpre i List.mem_cons_self
      have hlast : i ≠ 7 := by
        rintro rfl
        have hj7 := j.isLt
        rw [Fin.lt_def] at hi
        exact absurd hi (by simp; omega)
      rw [List.cons_append, findFree, if_neg fun h => hlast h.1, hlow i hi]
      exact ih fun k hk => hpre k (List.mem_cons_of_mem i hk)
  rw [hsplit j]
  exact hfind _ _ fun i hi => by simpa using (List.mem_filter.mp hi).2

/-- What a lookup sees of a string. -/
lemma StringAt.cString_returned (h : StringAt mem a l) (t : FileTable) (n : ℕ) :
    cString (Osgods.returned ⟨t, mem⟩ a n) = l.take n := by
  have hbytes : ∀ m ≤ l.length, (List.range m).map (fun i => mem (a + BitVec.ofNat 32 i)) =
      l.take m := by
    intro m hm
    apply List.ext_getElem?
    intro i
    by_cases hi : i < m
    · rw [List.getElem?_take_of_lt hi, List.getElem?_map, List.getElem?_range hi]
      simp [h.bytes i (by omega), show i < l.length by omega]
    · rw [List.getElem?_take_eq_none (by omega), List.getElem?_eq_none (by simp; omega)]
  have hnoNul : ∀ m, ∀ c ∈ l.take m, (decide (c ≠ 0#8)) = true := by
    intro m c hc
    exact decide_eq_true (ne_of_mem_of_not_mem (List.mem_of_mem_take hc) h.noNul)
  unfold Osgods.returned cString
  by_cases hn : n ≤ l.length
  · rw [hbytes n hn, ← List.append_nil (l.take n), List.takeWhile_append_of_pos (hnoNul n)]
    simp
  · obtain ⟨k, rfl⟩ := Nat.exists_eq_add_of_lt (Nat.lt_of_not_le hn)
    rw [Nat.add_assoc, List.range_add, List.map_append, hbytes _ le_rfl,
      List.takeWhile_append_of_pos (hnoNul _), List.take_of_length_le le_rfl,
      List.take_of_length_le (by omega), Nat.add_comm k 1, List.range_add]
    simp [h.bytes _ le_rfl]

lemma readable_filename (hpage : S.PageMapped) (h : StringAt mem a l) (t : FileTable) :
    S.env.readable a
      (min fileNameSize ((cString (returned ⟨t, mem⟩ a fileNameSize)).length + 1)) = true := by
  have hhigh := h.high
  refine readable_of_page hpage h.low ?_
  rw [h.cString_returned, List.length_take]
  omega

/-- `open` of a name in the directory takes the lowest free descriptor. -/
lemma wp_open {d : Dentry} (hpage : S.PageMapped) (h : StringAt w.task.mem a l)
    (hd : S.env.img.firstNamed (l.take fileNameSize) = some d)
    (htype : ¬ (d.fileType.slt rtcType ∨ fileType.slt d.fileType))
    (hj : (w.task.table j).flag = 0#32) (hlow : ∀ i < j, (w.task.table i).flag = 1#32)
    (hQ : ∀ w', w.Sets j (openObject d) w' → w'.task.mem = w.task.mem →
      Q (BitVec.ofNat 32 j) w') : WP (S.ece391Open a) Q w := by
  have hticked := interrupted_ticked (S.ticks w.calls) w.task
  have hlookup : readDentryByName S.env.img (returned w.task a fileNameSize) = some d := by
    rw [readDentryByName_eq, h.cString_returned, List.take_take, Nat.min_self, hd]
  have hfree : findFree (w.task.interrupted (S.ticks w.calls)).table (List.finRange 8) = some j :=
    findFree_eq_some ((hticked.flag j).trans hj) fun i hi => (hticked.flag i).trans (hlow i hi)
  have hcall : openCall S.env.img (some (returned w.task a fileNameSize))
      (w.task.interrupted (S.ticks w.calls)).table = (BitVec.ofNat 32 j,
        Function.update (w.task.interrupted (S.ticks w.calls)).table j (openObject d)) := by
    simp only [openCall, hfree, hlookup, if_neg htype]
  refine .bind (.get ?_)
  rw [if_neg (own_ne_zero h.low), if_pos (readable_filename hpage h _)]
  refine wp_sys (τ := ⟨_, w.task.mem⟩) (by rw [Task.step, hcall]; rfl)
    (hQ _ ⟨⟨_, hticked, rfl⟩, ?_⟩ rfl)
  exact List.append_nil _

/-- `open` of anything else fails. -/
lemma wp_open_fail (hpage : S.PageMapped) (h : StringAt w.task.mem a l)
    (hd : ∀ d, S.env.img.firstNamed (l.take fileNameSize) = some d →
      d.fileType.slt rtcType ∨ fileType.slt d.fileType)
    (hQ : ∀ w', w.Prints [] w' → Q (-1#32) w') : WP (S.ece391Open a) Q w := by
  have hticked := interrupted_ticked (S.ticks w.calls) w.task
  have hlookup : readDentryByName S.env.img (returned w.task a fileNameSize) =
      S.env.img.firstNamed (l.take fileNameSize) := by
    rw [readDentryByName_eq, h.cString_returned, List.take_take, Nat.min_self]
  have hcall : openCall S.env.img (some (returned w.task a fileNameSize))
      (w.task.interrupted (S.ticks w.calls)).table =
        (-1#32, (w.task.interrupted (S.ticks w.calls)).table) := by
    simp only [openCall, hlookup]
    split
    · rfl
    · split
      · rfl
      · next d hsome => rw [if_pos (hd d hsome)]
  refine .bind (.get ?_)
  rw [if_neg (own_ne_zero h.low), if_pos (readable_filename hpage h _)]
  exact wp_sys (τ := w.task.interrupted (S.ticks w.calls)) (by rw [Task.step, hcall])
    (hQ _ ⟨rfl, hticked, rfl⟩)

/-- `close` of an open descriptor from 2 on. -/
lemma wp_close (hfd : fdOf fd = some j) (hj : 1 < j.val) (hflag : (w.task.table j).flag ≠ 0#32)
    (hQ : ∀ w', w.Sets j closeObject w' → w'.task.mem = w.task.mem → Q 0#32 w') :
    WP (S.ece391Close fd) Q w := by
  have hticked := interrupted_ticked (S.ticks w.calls) w.task
  have hflag' : ((w.task.interrupted (S.ticks w.calls)).table j).flag ≠ 0#32 := by
    rw [hticked.flag]
    exact hflag
  have hcall : closeCall fd (w.task.interrupted (S.ticks w.calls)).table =
      (0#32, Function.update (w.task.interrupted (S.ticks w.calls)).table j closeObject) := by
    simp only [closeCall, hfd, if_neg (Nat.not_lt.mpr hj), if_neg hflag']
  refine wp_sys (τ := ⟨_, w.task.mem⟩) (by rw [Task.step, hcall]; rfl)
    (hQ _ ⟨⟨_, hticked, rfl⟩, ?_⟩ rfl)
  exact List.append_nil _

/-! ### Reads -/

/-- What a read stores in the page, and what is found there then. -/
lemma storeAll_sameOutside {l : List (Word × Byte)}
    (h : ∀ s ∈ l, ∃ i < n, s.1 = a + BitVec.ofNat 32 i) (hhigh : a.toNat + n ≤ mb132) :
    SameOutside a n mem (storeAll mem l) := by
  intro x hx
  refine storeAll_of_forall_ne fun s hs heq => ?_
  obtain ⟨i, hi, hs⟩ := h s hs
  rw [hs] at heq
  rw [← heq, add_ofNat_toNat (by simp only [mb132] at hhigh; omega)] at hx
  omega

/-- A read of a call that passes its checks. -/
lemma wp_read {r : Word} {τ : Task} (hfd : fdOf fd = some j)
    (hflag : (w.task.table j).flag ≠ 0#32) (hlow : mb128 ≤ buf.toNat) (hn : nbytes.slt 0#32 = false)
    (h : callRead S.env (S.keys w.calls) j buf nbytes (w.task.interrupted (S.ticks w.calls)) =
      some (r, τ))
    (hQ : Q r ⟨τ, w.calls + 1, w.out⟩) : WP (S.ece391Read fd buf nbytes) Q w := by
  have hticked := interrupted_ticked (S.ticks w.calls) w.task
  have hflag' : ((w.task.interrupted (S.ticks w.calls)).table j).flag ≠ 0#32 := by
    rw [hticked.flag]
    exact hflag
  refine .bind (.get (wp_sys (τ := τ) (r := r) ?_ ?_))
  · rw [Task.step, readCall_of_open hfd (own_ne_zero hlow) hn hflag', h]
    rfl
  · have hout : w.out ++ printed τ (.read fd buf nbytes (S.keys w.calls)) r = w.out :=
      List.append_nil _
    rwa [hout]

/-- `n` bytes in the page. -/
lemma slt_zero_of_range (hlow : mb128 ≤ buf.toNat) (hhigh : buf.toNat + nbytes.toNat ≤ mb132) :
    nbytes.toNat < 2 ^ 31 ∧ nbytes.slt 0#32 = false := by
  have hn : nbytes.toNat < 2 ^ 31 := by
    simp only [mb128, mb132] at hlow hhigh
    omega
  refine ⟨hn, ?_⟩
  simp only [BitVec.slt_eq_decide, BitVec.toInt_eq_toNat_cond, BitVec.toNat_ofNat,
    decide_eq_false_iff_not]
  omega

/-- A read of a regular file: as much of the rest as was asked for. -/
lemma wp_read_file {o : FileObject} (hpage : S.PageMapped) (hwf : S.env.img.WellFormed)
    (hfd : fdOf fd = some j) (ho : w.task.table j = o) (hreg : o.Regular)
    (hinode : o.inode < S.env.img.numInodes)
    (hpos : o.filePosition.toNat ≤ (S.env.img.inodes o.inode).length.toNat)
    (hlow : mb128 ≤ buf.toNat) (hlt : buf.toNat < mb132)
    (hhigh : buf.toNat + nbytes.toNat ≤ mb132)
    (hQ : ∀ r w', r.toNat = min nbytes.toNat
        ((S.env.img.inodes o.inode).length.toNat - o.filePosition.toNat) →
      returned w'.task buf r.toNat =
        ((S.env.img.content o.inode).drop o.filePosition.toNat).take r.toNat →
      SameOutside buf nbytes.toNat w.task.mem w'.task.mem →
      w.Sets j { o with filePosition := o.filePosition + r } w' → Q r w') :
    WP (S.ece391Read fd buf nbytes) Q w := by
  obtain ⟨hn, hneg⟩ := slt_zero_of_range hlow hhigh
  have hticked := interrupted_ticked (S.ticks w.calls) w.task
  have hnrtc : o.inode ≠ -1#32 := by
    intro heq
    have hpos := hwf.toNat_pos.2
    rw [heq, BitVec.lt_def] at hinode
    simp only [BitVec.reduceNeg, BitVec.toNat_ofNat] at hinode
    omega
  have ho' : (w.task.interrupted (S.ticks w.calls)).table j = o := by
    rw [hticked.eq_of_inode (by rwa [ho]), ho]
  have hsome : (fileRead S.env j buf nbytes (w.task.interrupted (S.ticks w.calls))).isSome :=
    fileRead_isSome hn fun i hi => hpage _ (userPage_add hlow (by omega))
  obtain ⟨⟨r, τ⟩, hread⟩ := Option.isSome_iff_exists.mp hsome
  have hspec := fileRead_spec hwf hlow hlt hn
    (by rwa [ho']) (by rwa [ho']) hread
  rw [ho'] at hspec
  obtain ⟨hcount, hbytes, htable⟩ := hspec
  refine wp_read hfd (by rw [ho]; exact hreg.1) hlow hneg ?_
    (hQ r _ hcount hbytes ?_ ⟨⟨_, hticked, htable⟩, rfl⟩)
  · rw [callRead, ho', hreg.2]
    exact hread
  · obtain ⟨τ₁, hst, heq⟩ := Option.map_eq_some_iff.mp hread
    have hmem : τ.mem = τ₁.mem := by
      split at heq <;> (cases heq; rfl)
    rw [hmem, store_eq_some hst]
    exact storeAll_sameOutside (fun s hs => readData_stores_subset hn hs) hhigh

/-- The entries that a program gets to see: the 63rd name comes with the result 0. -/
def Image.listed (img : Image) : List Dentry :=
  (List.range (min img.numDirEntries.toNat 62)).map img.dirEntries

/-- A read of the directory: the next name, or the end. -/
lemma wp_read_dir {p : ℕ} (hpage : S.PageMapped) (hpos : 1 ≤ S.env.img.numDirEntries.toNat)
    (hmax : S.env.img.numDirEntries.toNat ≤ 63) (hfd : fdOf fd = some j)
    (ho : w.task.table j = ⟨dirTable, 0#32, BitVec.ofNat 32 p, 1#32⟩)
    (hp : p ≤ S.env.img.listed.length) (hlow : mb128 ≤ buf.toNat)
    (hhigh : buf.toNat + fileNameSize ≤ mb132) (hneg : nbytes.slt 0#32 = false)
    (hnext : ∀ w' d, S.env.img.listed[p]? = some d →
      returned w'.task buf fileNameSize = d.fileName →
      SameOutside buf fileNameSize w.task.mem w'.task.mem →
      w.Sets j ⟨dirTable, 0#32, BitVec.ofNat 32 (p + 1), 1#32⟩ w' → Q nbytes w')
    (hend : ∀ w', p = S.env.img.listed.length → w'.out = w.out → Q 0#32 w') :
    WP (S.ece391Read fd buf nbytes) Q w := by
  have hlen : S.env.img.listed.length = min S.env.img.numDirEntries.toNat 62 := by
    simp [Image.listed]
  have hticked := interrupted_ticked (S.ticks w.calls) w.task
  have ho' : (w.task.interrupted (S.ticks w.calls)).table j =
      ⟨dirTable, 0#32, BitVec.ofNat 32 p, 1#32⟩ := by
    rw [hticked.eq_of_inode (by rw [ho]; exact (by decide : (0#32 : Word) ≠ -1#32)), ho]
  have hentry := readDentryByIndex_ofNat (p := p) hpos (by omega)
  have hflag : (w.task.table j).flag ≠ 0#32 := by
    rw [ho]
    exact (by decide : (1#32 : Word) ≠ 0#32)
  by_cases hlt : p < S.env.img.numDirEntries.toNat
  · rw [if_pos hlt] at hentry
    have hstores : ∀ s ∈ fill buf fileNameSize fun i =>
        (S.env.img.dirEntries p).fileName.getD i 0, ∃ i < fileNameSize,
          s.1 = buf + BitVec.ofNat 32 i := by
      intro s hs
      obtain ⟨i, hi, rfl⟩ := mem_fill.mp hs
      exact ⟨i, hi, rfl⟩
    have hpageOf : ∀ s ∈ fill buf fileNameSize fun i =>
        (S.env.img.dirEntries p).fileName.getD i 0, UserPage s.1 := by
      intro s hs
      obtain ⟨i, hi, heq⟩ := hstores s hs
      rw [heq]
      exact userPage_add hlow (by omega)
    have hst := store_of_mapped (τ := w.task.interrupted (S.ticks w.calls))
      fun s hs => hpage _ (hpageOf s hs)
    have htable := store_table (fun s hs => userPage_not_kernelPage (hpageOf s hs)) hst
    obtain ⟨τ, hτ⟩ : ∃ τ, τ = ((w.task.interrupted (S.ticks w.calls)).store S.env
        (fill buf fileNameSize fun i => (S.env.img.dirEntries p).fileName.getD i 0)).setPosition j
          (BitVec.ofNat 32 p + 1#32) := ⟨_, rfl⟩
    have hcall : callRead S.env (S.keys w.calls) j buf nbytes
        (w.task.interrupted (S.ticks w.calls)) =
          some (if p + 1 < 63 then nbytes else 0#32, τ) := by
      simp only [callRead, ho', dirTable, dirRead, hentry, hst, Option.map_some, htable,
        position_slt (show p ≤ 63 by omega), decide_eq_true_eq, hτ]
    refine wp_read hfd hflag hlow hneg hcall ?_
    split_ifs with hlast
    · have hget : S.env.img.listed[p]? = some (S.env.img.dirEntries p) := by
        simp [Image.listed, show p < min S.env.img.numDirEntries.toNat 62 by omega]
      refine hnext _ _ hget ?_ ?_ ⟨⟨_, hticked, ?_⟩, rfl⟩
      · rw [hτ]
        exact returned_name _ _
      · rw [hτ]
        exact storeAll_sameOutside hstores hhigh
      · rw [hτ, setPosition_table, htable, ho', BitVec.ofNat_add]
    · exact hend _ (by omega) rfl
  · rw [if_neg hlt] at hentry
    refine wp_read (τ := w.task.interrupted (S.ticks w.calls)) hfd hflag hlow hneg ?_
      (hend _ (by omega) rfl)
    simp only [callRead, ho', dirTable, dirRead, hentry]

/-- The first descriptor of the RTC counts. -/
lemma rtcTick_first (hinode : (t j).inode = -1#32) (hflag : (t j).flag = 1#32)
    (hfirst : ∀ i < j, ¬ ((t i).inode = -1#32 ∧ (t i).flag = 1#32)) :
    rtcTick t = Function.update t j { t j with filePosition := (t j).filePosition + 1#32 } := by
  have hfind : (List.finRange 8).find?
      (fun fd => (t fd).inode = -1#32 ∧ (t fd).flag = 1#32) = some j := by
    rw [List.find?_eq_some_iff_append]
    have hsplit : ∀ j : Fd, List.finRange 8 =
        (List.finRange 8).filter (· < j) ++ j :: (List.finRange 8).filter (j < ·) := by decide
    refine ⟨decide_eq_true ⟨hinode, hflag⟩, _, _, hsplit j, fun i hi => ?_⟩
    have hlt : i < j := by simpa using (List.mem_filter.mp hi).2
    have hi := not_and_or.mp (hfirst i hlt)
    simpa using hi
  simp only [rtcTick, hfind]

/-- A read of the RTC returns at the next interrupt, unless another descriptor counts for it. -/
lemma wp_read_rtc {o : FileObject} (hfd : fdOf fd = some j) (ho : w.task.table j = o)
    (hinode : o.inode = -1#32) (hflag : o.flag = 1#32) (hfn : o.fileOpTb.readFn = .rtcRead)
    (hfirst : ∀ i < j, ¬ ((w.task.table i).inode = -1#32 ∧ (w.task.table i).flag = 1#32))
    (hlow : mb128 ≤ buf.toNat) (hneg : nbytes.slt 0#32 = false)
    (hQ : ∀ w', w'.task.mem = w.task.mem → w.Sets j { o with filePosition := 0#32 } w' →
      Q 0#32 w') : WP (S.ece391Read fd buf nbytes) Q w := by
  subst ho
  have hcall : ∀ n, readCall S.env (S.keys w.calls) fd buf nbytes (w.task.interrupted n) =
      rtcRead j (w.task.interrupted n) := by
    intro n
    have hticked := interrupted_ticked n w.task
    rw [readCall_of_open hfd (own_ne_zero hlow) hneg, callRead, hticked.fileOpTb, hfn]
    rw [hticked.flag, hflag]
    decide
  have hset : ∀ n, w.Sets j { w.task.table j with filePosition := 0#32 }
      ⟨(w.task.interrupted n).setPosition j 0#32, w.calls + 1, w.out ++ []⟩ := by
    intro n
    have hticked := interrupted_ticked n w.task
    obtain ⟨p, hp, -⟩ := hticked.apply j
    exact ⟨⟨_, hticked, by rw [setPosition_table, hp]⟩, List.append_nil _⟩
  refine .bind (.get ?_)
  by_cases hwait : ((w.task.interrupted (S.ticks w.calls)).table j).filePosition = 0#32
  · -- the next interrupt counts for this descriptor
    have hticked := interrupted_ticked (S.ticks w.calls) w.task
    have hnext : ((w.task.interrupted (S.ticks w.calls + 1)).table j).filePosition ≠ 0#32 := by
      simp only [Task.interrupted, Function.iterate_succ_apply']
      change (rtcTick (w.task.interrupted (S.ticks w.calls)).table j).filePosition ≠ 0#32
      rw [rtcTick_first (j := j), Function.update_self, hwait]
      · exact (by decide : (0#32 : Word) + 1#32 ≠ 0#32)
      · exact (hticked.inode j).trans hinode
      · exact (hticked.flag j).trans hflag
      · intro i hi
        rw [hticked.inode, hticked.flag]
        exact hfirst i hi
    refine wp_sys_wait (τ := (w.task.interrupted (S.ticks w.calls + 1)).setPosition j 0#32) ?_ ?_
      (hQ _ rfl (hset _))
    · rw [Task.step, hcall, rtcRead, if_pos hwait]
      rfl
    · rw [Task.step, hcall, rtcRead, if_neg hnext]
      rfl
  · refine wp_sys (τ := (w.task.interrupted (S.ticks w.calls)).setPosition j 0#32) ?_
      (hQ _ rfl (hset _))
    rw [Task.step, hcall, rtcRead, if_neg hwait]
    rfl

/-! ### `getargs` -/

lemma wp_getargs (hpage : S.PageMapped) (hargument : ∀ i ≤ l.length, S.argument i = l.getD i 0)
    (hl : 0#8 ∉ l) (hne : l ≠ []) (hn : 0 < nbytes.toNat) (hlow : mb128 ≤ buf.toNat)
    (hhigh : buf.toNat + nbytes.toNat ≤ mb132 - 4)
    (hQ : ∀ w', (∀ i < nbytes.toNat, w'.task.mem (buf + BitVec.ofNat 32 i) = l.getD i 0) →
      SameOutside buf nbytes.toNat w.task.mem w'.task.mem →
      Ticked w.task.table w'.task.table → w'.out = w.out → Q 0#32 w') :
    WP (S.ece391Getargs buf nbytes) Q w := by
  have hadmitted : Admitted buf nbytes := by
    have hmb128 : mb128 = 0x8000000 := rfl
    have hmb132 : mb132 = 0x8400000 := rfl
    refine ⟨?_, ?_, ?_⟩
    · rintro rfl
      exact absurd hn (by decide)
    · rw [BitVec.toInt_eq_toNat_cond, if_pos (by omega)]
      omega
    · rw [BitVec.toInt_eq_toNat_cond, BitVec.toNat_add, Nat.mod_eq_of_lt (by omega),
        if_pos (by omega)]
      omega
  have hstores : ∀ s ∈ fill buf nbytes.toNat fun i => l.getD i 0,
      ∃ i < nbytes.toNat, s.1 = buf + BitVec.ofNat 32 i := by
    intro s hs
    obtain ⟨i, hi, rfl⟩ := mem_fill.mp hs
    exact ⟨i, hi, rfl⟩
  have hpageOf : ∀ s ∈ fill buf nbytes.toNat fun i => l.getD i 0, UserPage s.1 := by
    intro s hs
    obtain ⟨i, hi, heq⟩ := hstores s hs
    rw [heq]
    exact userPage_add hlow (by omega)
  have hst := store_of_mapped (τ := w.task.interrupted (S.ticks w.calls))
    fun s hs => hpage _ (hpageOf s hs)
  have htable := store_table (fun s hs => userPage_not_kernelPage (hpageOf s hs)) hst
  refine .bind (.compute (ends_getargs S.argument hargument hl hne hadmitted) (.change ?_
    (hQ ⟨(w.task.interrupted (S.ticks w.calls)).store S.env _, w.calls + 1, w.out⟩ ?_
      (storeAll_sameOutside hstores (by omega)) ?_ rfl)))
  · simp only [hst, Option.map_some]
    rfl
  · exact fun i hi => storeAll_fill nbytes.isLt.le hi
  · rw [htable]
    exact interrupted_ticked _ _

/-- Without an argument. -/
lemma wp_getargs_fail (hargument : S.argument 0 = 0#8)
    (hQ : ∀ w', w.Prints [] w' → Q (-1#32) w') : WP (S.ece391Getargs buf nbytes) Q w := by
  have hends : Ends (getargs S.argument buf nbytes) (-1, []) := by
    refine (Ends.pure ((-1 : ℤ), ([] : List (Word × Byte)))).congr fun n => ?_
    unfold getargs
    split_ifs with hnull hrange hempty
    · rfl
    · rfl
    · rfl
    · exact absurd hargument hempty
  refine .bind (.compute hends (.change rfl (hQ ⟨_, w.calls + 1, w.out⟩
    ⟨rfl, interrupted_ticked _ _, (List.append_nil _).symm⟩)))

end

end Osgods
