import Osgods.User.Cat
import Osgods.Process.Accept
import Osgods.Terminal.Machine

/-!
# The shell (`ece391shell.c`)

The shell reads a line, strips its line break and calls `execute`. What the kernel answers is
`Kernel.execute`: 0 without a free PCB, `-1` for what is not a program, and otherwise the program
runs and halts before the shell goes on. `Session` says what is printed for the lines that are typed
up to `exit`, the messages of the kernel included; the shell prints just that, and returns 0.
-/

namespace Osgods

open Loop ByteCopy Routine

/-- What goes on around a shell: for each of its calls the state of the kernel then, the registers
that `execute` saves, and for a program that is started its result and all that is printed until it
has halted. -/
structure ShellSetting extends Setting where
  layout : Layout
  kernel : ℕ → Kernel
  regs   : ℕ → Regs
  child  : ℕ → Word × List Byte

/-- The buffer of the shell and its texts. -/
structure Shell where
  buf        : Word
  starting   : Word
  prompt     : Word
  readFailed : Word
  exit       : Word
  noSuch     : Word
  exception  : Word
  abnormal   : Word

def startingText : List Byte := text "Starting 391 Shell\n"
def promptText   : List Byte := text "391OS> "
def exitText     : List Byte := text "exit"

/-- Its texts lie in memory, and not in the buffer. -/
structure Shell.Texts (Sh : Shell) (mem : Word → Byte) : Prop where
  starting   : TextAt mem Sh.buf 1024 Sh.starting startingText
  prompt     : TextAt mem Sh.buf 1024 Sh.prompt promptText
  readFailed : TextAt mem Sh.buf 1024 Sh.readFailed (text "read from keyboard failed\n")
  exit       : TextAt mem Sh.buf 1024 Sh.exit exitText
  noSuch     : TextAt mem Sh.buf 1024 Sh.noSuch (text "no such command\n")
  exception  : TextAt mem Sh.buf 1024 Sh.exception (text "program terminated by exception\n")
  abnormal   : TextAt mem Sh.buf 1024 Sh.abnormal (text "program terminated abnormally\n")

/-- The buffer lies in the page. -/
structure Buffered (buf : Word) : Prop where
  low  : mb128 ≤ buf.toNat
  high : buf.toNat + 1024 ≤ mb132 - 4

namespace ShellSetting

variable (S : ShellSetting)

def kernelEnv : Env := ⟨S.env.img, S.layout⟩

/-- What `execute` prints before it returns or starts a program. -/
def executeOutput (n : ℕ) (command : List Byte) : List Byte :=
  (S.kernel n).executeOutput command (S.kernel n).scheduled.tid

/-- `execute`: the kernel reads the command up to its terminator. A fault of the kernel is no
result. -/
def ece391Execute (command : Word) : UserProgram Word := do
  let len ← ece391Strlen command
  .change fun w =>
    let l := returned w.task command len.toNat
    let answered (r : Word) (printed : List Byte) : Word × World :=
      (r, ⟨w.task.interrupted (S.ticks w.calls), w.calls + 1,
        w.out ++ (S.executeOutput w.calls l ++ printed)⟩)
    match (S.kernel w.calls).execute S.kernelEnv (some l) (S.regs w.calls) with
    | .ok (.returned status, _) => some (answered status [])
    | .ok (.started _ _, _)     => some (answered (S.child w.calls).1 (S.child w.calls).2)
    | .error _                  => none

/-- What `terminal_read` prints. -/
def readOutput (n : ℕ) : List Byte :=
  if keybBuffLen ≤ (S.keys n).keybIndex then text "too much to read!!\n" else []

/-- A read from the terminal. -/
def readLine (buf nbytes : Word) : UserProgram Word := do
  let w ← get
  let cnt ← S.ece391Read 0 buf nbytes
  .change fun w' => some (cnt, { w' with out := w'.out ++ S.readOutput w.calls })

/-- `cnt` without the line break. -/
def shellCount (Sh : Shell) (cnt : Word) : UserProgram Word :=
  if (0#32).slt cnt then do
    let b ← load (Sh.buf + (cnt - 1#32))
    pure (if b = 10#8 then cnt - 1#32 else cnt)
  else pure cnt

/-- What is said about the result of `execute`. -/
def shellReport (Sh : Shell) (rval : Word) : UserProgram Unit :=
  if -1#32 = rval then S.ece391Fdputs 1 Sh.noSuch
  else if 256#32 = rval then S.ece391Fdputs 1 Sh.exception
  else if 0#32 ≠ rval then S.ece391Fdputs 1 Sh.abnormal
  else pure ()

def shellTurn (Sh : Shell) : UserProgram (Unit ⊕ Word) := do
  S.ece391Fdputs 1 Sh.prompt
  let cnt ← S.readLine Sh.buf 1023#32
  if -1#32 = cnt then do
    S.ece391Fdputs 1 Sh.readFailed
    pure (.inr 3#32)
  else do
    let cnt ← shellCount Sh cnt
    store (Sh.buf + cnt) 0#8
    let r ← ece391Strcmp Sh.buf Sh.exit
    if 0#32 = r then pure (.inr 0#32)
    else do
      let b ← load Sh.buf
      if 0#8 = b then pure (.inl ())
      else do
        let rval ← S.ece391Execute Sh.buf
        S.shellReport Sh rval
        pure (.inl ())

/-- `main` of `ece391shell.c`. -/
def shell (Sh : Shell) : UserProgram Word := do
  S.ece391Fdputs 1 Sh.starting
  .loop (fun () => S.shellTurn Sh) ()

end ShellSetting

/-! ### A session -/

/-- A line without its line break. -/
def chomp (l : List Byte) : List Byte := if l.getLast? = some 10#8 then l.dropLast else l

/-- What is read of a line; nothing, if it is too long. -/
def KeyBuffer.delivered (k : KeyBuffer) : List Byte :=
  if keybBuffLen ≤ k.keybIndex then [] else k.line

/-- What the shell makes of it. -/
def KeyBuffer.command (k : KeyBuffer) : List Byte := cString (chomp k.delivered)

def reportText (r : Word) : List Byte :=
  if r = -1#32 then text "no such command\n"
  else if r = 256#32 then text "program terminated by exception\n"
  else if r ≠ 0#32 then text "program terminated abnormally\n"
  else []

/-- What comes back for a line in the `n`-th call, and what a program has printed until then.
Without a free PCB the line is not parsed; otherwise its words have to fit those of `execute`. -/
inductive ShellSetting.Answers (S : ShellSetting) (n : ℕ) : List Byte → Word → List Byte → Prop
  | full (line : List Byte) (h : (S.kernel n).determineWhichPcbEmpty = none) :
      S.Answers n line 0#32 []
  | unknown (c : Command) (h : (S.kernel n).determineWhichPcbEmpty ≠ none)
      (hno : ∀ d, S.env.img.firstNamed c.firstWord = some d → ¬ S.env.img.Executable d) :
      S.Answers n c.text (-1#32) []
  | program (c : Command) (s : Slot) (d : Dentry)
      (h : (S.kernel n).determineWhichPcbEmpty = some s)
      (hd : S.env.img.firstNamed c.firstWord = some d) (hexec : S.env.img.Executable d)
      (hload : ((S.kernel n).forNew s).canLoad S.kernelEnv (c.program S.env.img d) = true)
      (hcaller : (S.kernel n).CallerOk s) : S.Answers n c.text (S.child n).1 (S.child n).2

/-- What is printed from the `n`-th call on, a prompt, for `k` lines and an `exit`. -/
inductive ShellSetting.Session (S : ShellSetting) : ℕ → ℕ → List Byte → Prop
  | exit {n : ℕ} (h : (S.keys (n + 1)).command = exitText) :
      S.Session 0 n (promptText ++ S.readOutput (n + 1))
  | blank {k n : ℕ} {out : List Byte} (h : (S.keys (n + 1)).command = [])
      (hs : S.Session k (n + 2) out) :
      S.Session (k + 1) n (promptText ++ S.readOutput (n + 1) ++ out)
  | command {k n : ℕ} {r : Word} {line l out : List Byte} (h : (S.keys (n + 1)).command = line)
      (hne : line ≠ []) (hexit : line ≠ exitText) (ha : S.Answers (n + 2) line r l)
      (hs : S.Session k (if reportText r = [] then n + 3 else n + 4) out) :
      S.Session (k + 1) n (promptText ++ S.readOutput (n + 1) ++
        (S.executeOutput (n + 2) line ++ l) ++ reportText r ++ out)

section

variable {S : ShellSetting} {Sh : Shell} {mem : Word → Byte} {w : World} {a r : Word} {n : ℕ}
  {line l out : List Byte} {Q : Unit → World → Prop}

/-! ### The number of a call -/

lemma sys_calls {S : Setting} {c : Call} {w' : World}
    (h : Ends (fun k => S.sys c k w) (r, w')) : w'.calls = w.calls + 1 := by
  obtain ⟨N, hN⟩ := h
  have hsys := hN N le_rfl
  simp only [Setting.sys, Routine.change] at hsys
  split at hsys
  · obtain ⟨-, rfl⟩ := Prod.mk.inj (Option.some.inj hsys)
    rfl
  · cases hsys

/-- `l` has been printed by one call. -/
structure World.PrintsOnce (w : World) (l : List Byte) (w' : World) : Prop
    extends w.Prints l w' where
  calls : w'.calls = w.calls + 1

lemma wp_fdputs_once (hpage : S.PageMapped) (hout : StdoutOpen w.task.table)
    (h : StringAt w.task.mem a l) (hQ : ∀ w', w.PrintsOnce l w' → Q () w') :
    WP (S.ece391Fdputs 1 a) Q w := by
  have hhigh := h.high
  have hlen : (BitVec.ofNat 32 l.length).toNat = l.length := by
    rw [BitVec.toNat_ofNat, Nat.mod_eq_of_lt h.length_lt]
  refine .bind (wp_strlen h (.bind ?_))
  have hwrite : WP (S.ece391Write 1 a (BitVec.ofNat 32 l.length))
      (fun _ w' => w.Prints l w' ∧ w'.calls = w.calls + 1) w := by
    refine .and_of_ends (wp_write_stdout hpage hout h.low (by omega) fun w' hprints => ?_)
      fun _ _ => sys_calls
    rwa [hlen, h.returned] at hprints
  exact hwrite.mono fun _ w' ⟨hprints, hcalls⟩ => .pure (hQ w' ⟨hprints, hcalls⟩)

/-! ### A line -/

lemma delivered_length_le (k : KeyBuffer) : k.delivered.length ≤ 127 := by
  unfold KeyBuffer.delivered
  split_ifs with hfull
  · exact Nat.zero_le _
  · simp only [KeyBuffer.line, List.length_map, List.length_range]
    rw [keybBuffLen] at hfull
    omega

/-- What the first `n` bytes from an address on are. -/
def BytesAt (mem : Word → Byte) (a : Word) (l : List Byte) : Prop :=
  ∀ i < l.length, mem (a + BitVec.ofNat 32 i) = l.getD i 0

/-- A string ends at the first terminator. -/
lemma getD_cString (i : ℕ) (hi : i ≤ (cString l).length) :
    (cString l).getD i 0 = l.getD i 0 := by
  induction l generalizing i with
  | nil => rfl
  | cons b l ih =>
    by_cases hb : b = 0#8
    · have hnil : cString (b :: l) = [] := List.takeWhile_cons_of_neg (by simpa using hb)
      rw [hnil, List.length_nil, Nat.le_zero] at hi
      rw [hnil, hi, hb]
      rfl
    · have hcons : cString (b :: l) = b :: cString l :=
        List.takeWhile_cons_of_pos (by simpa using hb)
      rw [hcons] at hi ⊢
      cases i with
      | zero => rfl
      | succ i => exact ih i (Nat.le_of_succ_le_succ hi)

/-- Bytes and a terminator behind them are a string. -/
lemma BytesAt.stringAt (h : BytesAt mem a l) (hlow : mb128 ≤ a.toNat)
    (hhigh : a.toNat + l.length < mb132) (hend : mem (a + BitVec.ofNat 32 l.length) = 0#8) :
    StringAt mem a (cString l) := by
  have hle : (cString l).length ≤ l.length := length_cString_le
  refine ⟨hlow, by omega, fun i hi => ?_, zero_not_mem_cString⟩
  rw [getD_cString i hi]
  rcases Nat.lt_or_eq_of_le (hi.trans hle) with hlt | rfl
  · exact h i hlt
  · rw [hend, List.getD_eq_default _ _ le_rfl]
    rfl

/-- The terminator is set. -/
lemma wp_terminate {buf : Word} (hbuf : Buffered buf) (h : BytesAt w.task.mem buf l)
    (hlen : l.length ≤ 127)
    (hQ : ∀ mem', StringAt mem' buf (cString l) → SameOutside buf 1024 w.task.mem mem' →
      Q () (w.withMem mem')) : WP (store (buf + BitVec.ofNat 32 l.length) 0#8) Q w := by
  have hlow := hbuf.low
  have hhigh := hbuf.high
  simp only [mb132] at hhigh
  refine wp_store (userPage_add hlow (by simp only [mb132]; omega)) (hQ _ ?_ ?_)
  · refine BytesAt.stringAt (fun i hi => ?_) hlow (by simp only [mb132]; omega)
      (Function.update_self ..)
    rw [Function.update_of_ne, h i hi]
    intro heq
    have hnat := add_ofNat_inj (by omega) (by omega) heq
    omega
  · exact .update (by omega) (by omega) _

lemma chomp_concat (l : List Byte) (b : Byte) :
    chomp (l ++ [b]) = if b = 10#8 then l else l ++ [b] := by
  simp [chomp]

lemma wp_shellCount {Q : Word → World → Prop} (hbuf : Buffered Sh.buf)
    (h : BytesAt w.task.mem Sh.buf l) (hlen : l.length ≤ 127)
    (hQ : BytesAt w.task.mem Sh.buf (chomp l) → (chomp l).length ≤ 127 →
      Q (BitVec.ofNat 32 (chomp l).length) w) :
    WP (ShellSetting.shellCount Sh (BitVec.ofNat 32 l.length)) Q w := by
  have hlow := hbuf.low
  have hhigh := hbuf.high
  simp only [mb132] at hhigh
  rcases l.eq_nil_or_concat' with rfl | ⟨l, b, rfl⟩
  · exact .pure (hQ h hlen)
  · rw [List.length_append, List.length_singleton] at hlen ⊢
    have hpos : (0#32).slt (BitVec.ofNat 32 (l.length + 1)) = true := by
      simp only [BitVec.slt_eq_decide, BitVec.toInt_eq_toNat_cond, BitVec.toNat_ofNat,
        decide_eq_true_eq]
      omega
    have hpred : BitVec.ofNat 32 (l.length + 1) - 1#32 = BitVec.ofNat 32 l.length := by
      rw [BitVec.ofNat_add, BitVec.add_sub_cancel]
    have hlast : w.task.mem (Sh.buf + BitVec.ofNat 32 l.length) = b := by
      rw [h l.length (by simp), List.getD_append_right _ _ _ _ le_rfl, Nat.sub_self]
      rfl
    have hbefore : BytesAt w.task.mem Sh.buf l := fun i hi => by
      rw [h i (by simp; omega), List.getD_append _ _ _ _ hi]
    rw [chomp_concat] at hQ
    rw [ShellSetting.shellCount, if_pos hpos, hpred]
    refine .bind (wp_load (userPage_add hlow (by simp only [mb132]; omega)) (.pure ?_))
    rw [hlast]
    by_cases hb : b = 10#8
    · rw [if_pos hb] at hQ ⊢
      exact hQ hbefore (by omega)
    · rw [if_neg hb, List.length_append, List.length_singleton] at hQ
      rw [if_neg hb]
      exact hQ h hlen

/-! ### Calls of the shell -/

/-- Descriptor 0, as `create_pcb` leaves it. -/
def StdinOpen (t : FileTable) : Prop := t 0 = createTable 0

lemma StdinOpen.ticked {t t' : FileTable} (h : StdinOpen t) (hticked : Ticked t t') :
    StdinOpen t' := by
  rw [StdinOpen, hticked.eq_of_inode ?_]
  · exact h
  · rw [h]
    decide

/-- Bytes that are stored, with one more behind them. -/
lemma bytesAt_fill {k : ℕ} {f : ℕ → Byte} {b : Byte} (hk : k < 2 ^ 32) :
    BytesAt (storeAll mem (fill a k f ++ [(a + BitVec.ofNat 32 k, b)])) a
      ((List.range k).map f) := by
  intro i hi
  rw [List.length_map, List.length_range] at hi
  have hget : ((List.range k).map f).getD i 0 = f i := by
    simp [List.getD_eq_getElem?_getD, hi]
  rw [storeAll_append, storeAll_of_forall_ne, storeAll_fill hk.le hi, hget]
  intro s hs heq
  rw [List.mem_singleton.mp hs] at heq
  have hnat := add_ofNat_inj hk (by omega) heq
  omega

/-- A line is read into the buffer. -/
lemma wp_readLine {Q : Word → World → Prop} (hpage : S.PageMapped) (hbuf : Buffered Sh.buf)
    (hin : StdinOpen w.task.table)
    (hQ : ∀ w', BytesAt w'.task.mem Sh.buf (S.keys w.calls).delivered →
      SameOutside Sh.buf 1024 w.task.mem w'.task.mem → Ticked w.task.table w'.task.table →
      w'.calls = w.calls + 1 → w'.out = w.out ++ S.readOutput w.calls →
      Q (BitVec.ofNat 32 (S.keys w.calls).delivered.length) w') :
    WP (S.readLine Sh.buf 1023#32) Q w := by
  have hlow := hbuf.low
  have hhigh := hbuf.high
  simp only [mb132] at hhigh
  have hticked := interrupted_ticked (S.ticks w.calls) w.task
  have hin' := hin.ticked hticked
  have hcall : callRead S.env (S.keys w.calls) 0 Sh.buf 1023#32
      (w.task.interrupted (S.ticks w.calls)) =
        terminalRead S.env (S.keys w.calls) Sh.buf (w.task.interrupted (S.ticks w.calls)) := by
    rw [callRead, hin']
    rfl
  have hflag : (w.task.table 0).flag ≠ 0#32 := by
    rw [hin]
    decide
  refine .bind (.get (.bind ?_))
  by_cases hfull : 128 ≤ (S.keys w.calls).keybIndex
  · have hnone : (S.keys w.calls).delivered = [] := if_pos hfull
    rw [hnone] at hQ
    refine wp_read (j := 0) (by decide) hflag hlow (by decide)
      (hcall.trans (if_pos hfull)) (.change rfl ?_)
    exact hQ _ (fun i hi => absurd hi (Nat.not_lt_zero i)) (.refl _) hticked rfl rfl
  · obtain ⟨k, hk⟩ : ∃ k, (S.keys w.calls).keybIndex = k := ⟨_, rfl⟩
    rw [hk] at hfull
    have hline : (S.keys w.calls).delivered = (List.range k).map (S.keys w.calls).keyBuffer := by
      rw [← hk]
      exact if_neg (by rw [hk]; exact hfull)
    have hstores : ∀ s ∈ fill Sh.buf k (S.keys w.calls).keyBuffer ++
        [(Sh.buf + BitVec.ofNat 32 k, 0#8)], ∃ i < 1024, s.1 = Sh.buf + BitVec.ofNat 32 i := by
      intro s hs
      rcases List.mem_append.mp hs with hs | hs
      · obtain ⟨i, hi, rfl⟩ := mem_fill.mp hs
        exact ⟨i, by omega, rfl⟩
      · rw [List.mem_singleton.mp hs]
        exact ⟨k, by omega, rfl⟩
    have huser : ∀ s ∈ fill Sh.buf k (S.keys w.calls).keyBuffer ++
        [(Sh.buf + BitVec.ofNat 32 k, 0#8)], UserPage s.1 := by
      intro s hs
      obtain ⟨i, hi, heq⟩ := hstores s hs
      rw [heq]
      exact userPage_add hlow (by simp only [mb132]; omega)
    have hst := store_of_mapped (τ := w.task.interrupted (S.ticks w.calls))
      fun s hs => hpage _ (huser s hs)
    have htable := store_table (fun s hs => userPage_not_kernelPage (huser s hs)) hst
    refine wp_read (j := 0) (by decide) hflag hlow (by decide)
      (hcall.trans (by rw [terminalRead, hk, if_neg hfull, hst]; rfl)) (.change rfl ?_)
    rw [hline, List.length_map, List.length_range] at hQ
    exact hQ _ (bytesAt_fill (by omega))
      (storeAll_sameOutside hstores (by simp only [mb132]; omega))
      (by rw [htable]; exact hticked) rfl rfl

/-- What is said about a result. -/
lemma wp_shellReport (hpage : S.PageMapped) (hout : StdoutOpen w.task.table)
    (hSh : Sh.Texts w.task.mem) (hQ : ∀ w', w.Prints (reportText r) w' →
      w'.calls = (if reportText r = [] then w.calls else w.calls + 1) → Q () w') :
    WP (S.shellReport Sh r) Q w := by
  have hputs : ∀ {p : Word} {l : List Byte}, TextAt w.task.mem Sh.buf 1024 p l → l ≠ [] →
      reportText r = l → WP (S.ece391Fdputs 1 p) Q w := by
    intro p l htext hne heq
    refine wp_fdputs_once hpage hout htext.holds fun w' h => hQ w' ?_ ?_
    · rw [heq]
      exact h.toPrints
    · rw [heq, if_neg hne]
      exact h.calls
  refine .ite (fun h => hputs hSh.noSuch (by decide) ?_) fun h₁ => .ite (fun h =>
    hputs hSh.exception (by decide) ?_) fun h₂ => .ite (fun h => hputs hSh.abnormal (by decide) ?_)
      fun h => .pure ?_
  · rw [reportText, if_pos h.symm]
  · rw [reportText, if_neg (Ne.symm h₁), if_pos h.symm]
  · rw [reportText, if_neg (Ne.symm h₁), if_neg (Ne.symm h₂), if_pos (Ne.symm h)]
  · have hnil : reportText r = [] := by
      rw [← not_not.mp h]
      decide
    rw [hnil] at hQ
    exact hQ w (.refl w) rfl

/-- What the kernel answers. -/
lemma ShellSetting.Answers.execute (hne : S.env.img.numInodes ≠ 0#32)
    (h : S.Answers n line r l) :
    (∃ k, (S.kernel n).execute S.kernelEnv (some line) (S.regs n) = .ok (.returned r, k) ∧
      l = []) ∨
    ∃ s eip k, (S.kernel n).execute S.kernelEnv (some line) (S.regs n) =
      .ok (.started s eip, k) ∧ S.child n = (r, l) := by
  cases h with
  | full line hfull => exact .inl ⟨_, Kernel.execute_full hfull, rfl⟩
  | unknown c hslot hno =>
    obtain ⟨s, hs⟩ := Option.ne_none_iff_exists'.mp hslot
    refine .inl ⟨_, Kernel.execute_rejected hs ?_, rfl⟩
    change checkExecutable S.env.img c.text = none
    rw [checkExecutable_command hne]
    cases hd : S.env.img.firstNamed c.firstWord with
    | none => rfl
    | some d => rw [Option.bind_some, if_neg (hno d hd)]
  | program c s d hs hd hexec hload hcaller =>
    obtain ⟨s', k, hstart⟩ : ∃ s' k, (S.kernel n).execute S.kernelEnv (some c.text) (S.regs n) =
        .ok (.started s' (S.env.img.entryPoint d), k) :=
      (Kernel.execute_started_iff hne hs hd hexec).mpr ⟨hload, hcaller⟩
    exact .inr ⟨s', _, k, hstart, rfl⟩

lemma wp_execute {Q : Word → World → Prop} (hne : S.env.img.numInodes ≠ 0#32)
    (h : StringAt w.task.mem a line) (ha : S.Answers w.calls line r l)
    (hQ : ∀ w', w.Prints (S.executeOutput w.calls line ++ l) w' → w'.calls = w.calls + 1 →
      Q r w') : WP (S.ece391Execute a) Q w := by
  have hlen : (BitVec.ofNat 32 line.length).toNat = line.length := by
    rw [BitVec.toNat_ofNat, Nat.mod_eq_of_lt h.length_lt]
  have htext := h.returned w.task.table
  refine .bind (wp_strlen h (.change ?_ (hQ ⟨w.task.interrupted (S.ticks w.calls), w.calls + 1,
    w.out ++ (S.executeOutput w.calls line ++ l)⟩ ⟨rfl, interrupted_ticked _ _, rfl⟩ rfl)))
  rcases ha.execute hne with ⟨k, hexec, rfl⟩ | ⟨s, eip, k, hexec, hchild⟩
  · simp only [hlen, htext, hexec]
  · simp only [hlen, htext, hexec, hchild]

/-! ### The loop -/

/-- The shell before its `n`-th call, a prompt. -/
structure Prompts (Sh : Shell) (n : ℕ) (w : World) : Prop where
  texts  : Sh.Texts w.task.mem
  stdin  : StdinOpen w.task.table
  stdout : StdoutOpen w.task.table
  calls  : w.calls = n

lemma Shell.Texts.frame {mem' : Word → Byte} (h : Sh.Texts mem)
    (hmem : SameOutside Sh.buf 1024 mem mem') : Sh.Texts mem' where
  starting   := h.starting.frame hmem
  prompt     := h.prompt.frame hmem
  readFailed := h.readFailed.frame hmem
  exit       := h.exit.frame hmem
  noSuch     := h.noSuch.frame hmem
  exception  := h.exception.frame hmem
  abnormal   := h.abnormal.frame hmem

/-- A turn up to the comparison: the prompt is printed, and the buffer holds the command. -/
lemma wp_shellTurn {Q : Unit ⊕ Word → World → Prop} (hpage : S.PageMapped) (hbuf : Buffered Sh.buf)
    (h : Prompts Sh n w)
    (hexit : ∀ w', Prompts Sh (n + 2) w' → w'.out = w.out ++ promptText ++ S.readOutput (n + 1) →
      (S.keys (n + 1)).command = exitText → Q (.inr 0#32) w')
    (hblank : ∀ w', Prompts Sh (n + 2) w' → w'.out = w.out ++ promptText ++ S.readOutput (n + 1) →
      (S.keys (n + 1)).command = [] → Q (.inl ()) w')
    (hcommand : ∀ w', Prompts Sh (n + 2) w' → w'.out = w.out ++ promptText ++ S.readOutput (n + 1) →
      StringAt w'.task.mem Sh.buf (S.keys (n + 1)).command →
      (S.keys (n + 1)).command ≠ exitText → (S.keys (n + 1)).command ≠ [] →
      WP (do
        let rval ← S.ece391Execute Sh.buf
        S.shellReport Sh rval
        pure (.inl ())) Q w') :
    WP (S.shellTurn Sh) Q w := by
  obtain ⟨htexts, hin, hout, rfl⟩ := h
  refine .bind (wp_fdputs_once hpage hout htexts.prompt.holds fun w₁ h₁ => ?_)
  have hin₁ := hin.ticked h₁.table
  refine .bind (wp_readLine hpage hbuf hin₁ fun w₂ hbytes hsame₂ hticked₂ hcalls₂ hout₂ => ?_)
  rw [h₁.calls] at hbytes hcalls₂ hout₂ ⊢
  have hcount : ∀ k ≤ 127, -1#32 ≠ BitVec.ofNat 32 k := by decide
  rw [if_neg (hcount _ (delivered_length_le _))]
  refine .bind (wp_shellCount hbuf hbytes (delivered_length_le _) fun hchomp hlen => ?_)
  refine .bind (wp_terminate hbuf hchomp hlen fun mem₃ hstring hsame₃ => ?_)
  have hprompts : Prompts Sh (w.calls + 2) (w₂.withMem mem₃) :=
    ⟨((h₁.mem ▸ htexts).frame hsame₂).frame hsame₃, hin₁.ticked hticked₂,
      (hout.ticked h₁.table).ticked hticked₂, hcalls₂⟩
  have hprinted : (w₂.withMem mem₃).out = w.out ++ promptText ++ S.readOutput (w.calls + 1) := by
    rw [← h₁.out]
    exact hout₂
  refine .bind (wp_strcmp (l := (S.keys (w.calls + 1)).command) hstring hprompts.texts.exit.holds
    fun r hr => .ite (fun hzero => .pure (hexit _ hprompts hprinted (hr.mp hzero.symm)))
      fun hne => ?_)
  have hnexit : (S.keys (w.calls + 1)).command ≠ exitText := fun heq => hne (hr.mpr heq).symm
  have hfirst : (w₂.withMem mem₃).task.mem Sh.buf =
      (S.keys (w.calls + 1)).command.getD 0 0 := hstring.first
  refine .bind (wp_load hstring.userPage_first ?_)
  rw [hfirst]
  refine .ite (fun hzero => .pure (hblank _ hprompts hprinted ?_)) fun hnz =>
    hcommand _ hprompts hprinted hstring hnexit ?_
  · have hle := (getD_eq_zero_iff hstring.noNul).mp hzero.symm
    exact List.length_eq_zero_iff.mp (Nat.le_zero.mp hle)
  · intro hnil
    rw [hnil] at hnz
    exact hnz rfl

/-- The loop, from a prompt on. -/
lemma wp_shellLoop {k : ℕ} (hpage : S.PageMapped) (hne : S.env.img.numInodes ≠ 0#32)
    (hbuf : Buffered Sh.buf) (h : Prompts Sh n w) (hs : S.Session k n out) :
    WP (.loop (fun () => S.shellTurn Sh) ()) (fun r w' => r = 0#32 ∧ w'.out = w.out ++ out) w := by
  refine .loop (fun k _ v => ∃ n rest, Prompts Sh n v ∧ S.Session k n rest ∧
    v.out ++ rest = w.out ++ out) ⟨n, out, h, hs, rfl⟩ ?_
  rintro k ⟨⟩ v ⟨n, rest, hprompts, hsession, htotal⟩
  cases hsession with
  | exit hline =>
    refine wp_shellTurn hpage hbuf hprompts (fun w' _ hout _ => ⟨rfl, ?_⟩)
      (fun _ _ _ hblank => ?_) fun _ _ _ _ hnexit _ => absurd hline hnexit
    · rw [hout, ← htotal, List.append_assoc]
    · rw [hline] at hblank
      exact absurd hblank (by decide)
  | @blank k n out' hline hnext =>
    refine wp_shellTurn hpage hbuf hprompts (fun _ _ _ hexit => ?_)
      (fun w' hprompts' hout _ => ⟨k, Nat.lt_succ_self k, n + 2, out', hprompts', hnext, ?_⟩)
      fun _ _ _ _ _ hne => absurd hline hne
    · rw [hline] at hexit
      exact absurd hexit (by decide)
    · rw [hout, ← htotal]
      simp only [List.append_assoc]
  | @command k n r line l out' hline hcne hcexit ha hnext =>
    refine wp_shellTurn hpage hbuf hprompts (fun _ _ _ hexit => absurd (hline ▸ hexit) hcexit)
      (fun _ _ _ hnil => absurd (hline ▸ hnil) hcne) fun w₁ hprompts₁ hout₁ hstring _ _ => ?_
    rw [hline] at hstring
    have hcalls := hprompts₁.calls
    rw [← hcalls] at ha
    refine .bind (wp_execute hne hstring ha fun w₂ h₂ hcalls₂ => .bind
      (wp_shellReport hpage (hprompts₁.stdout.ticked h₂.table) (h₂.mem ▸ hprompts₁.texts)
        fun w₃ h₃ hcalls₃ => .pure ⟨k, Nat.lt_succ_self k, _, out', ?_, hnext, ?_⟩))
    · refine ⟨h₃.mem ▸ h₂.mem ▸ hprompts₁.texts,
        (hprompts₁.stdin.ticked h₂.table).ticked h₃.table,
        (hprompts₁.stdout.ticked h₂.table).ticked h₃.table, ?_⟩
      rw [hcalls₃, hcalls₂, hcalls]
    · rw [h₃.out, h₂.out, hout₁, hcalls, ← htotal]
      simp only [List.append_assoc]

end

/-- For every session the shell returns 0, and prints what the session says. -/
theorem shell_session (S : ShellSetting) (Sh : Shell) (mem : Word → Byte) {k : ℕ} {out : List Byte}
    (hpage : S.PageMapped) (hne : S.env.img.numInodes ≠ 0#32) (hbuf : Buffered Sh.buf)
    (htexts : Sh.Texts mem) (hs : S.Session k 1 out) :
    ∃ w, Ends (fun n => S.shell Sh n (.start mem)) (0#32, w) ∧ w.out = startingText ++ out := by
  have hshell : WP (S.shell Sh) (fun r w => r = 0#32 ∧ w.out = startingText ++ out)
      (.start mem) := by
    have hstdout : StdoutOpen createTable := rfl
    have hstdin : StdinOpen createTable := rfl
    refine .bind (wp_fdputs_once hpage hstdout htexts.starting.holds fun w₁ h₁ => ?_)
    have hprompts : Prompts Sh 1 w₁ :=
      ⟨h₁.mem ▸ htexts, hstdin.ticked h₁.table, hstdout.ticked h₁.table, h₁.calls⟩
    have hloop := wp_shellLoop hpage hne hbuf hprompts hs
    rwa [h₁.out] at hloop
  obtain ⟨r, w, hends, rfl, hout⟩ := hshell
  exact ⟨w, hends, hout⟩

/-! ### A small session -/

def typed (s : String) : KeyBuffer := ⟨fun i => (text s).getD i 0, (text s).length⟩

/-- The first shell runs. A blank line, a command that does not exist, a program that ends with an
exception, and `exit`. -/
def smallShellSetting : ShellSetting where
  toSetting := { smallSetting catShell with
    keys := fun
      | 2 => typed "\n"
      | 4 => typed "cat\n"
      | 8 => typed "shell\n"
      | _ => typed "exit\n" }
  layout := smallKernel.layout
  kernel := fun _ => ((firstShell smallKernel ⟨0#32, 0#32⟩).map System.kernel).getD
    (bootKernel smallKernel.layout)
  regs := fun _ => ⟨0#32, 0#32⟩
  child := fun _ => (256#32, text "bye\n")

def shellTexts : List (List Byte) :=
  [startingText, promptText, text "read from keyboard failed\n", exitText,
    text "no such command\n", text "program terminated by exception\n",
    text "program terminated abnormally\n"]

def smallShell : Shell :=
  ⟨0x83ffbf0, 0x8048000, 0x8048040, 0x8048080, 0x80480c0, 0x8048100, 0x8048140, 0x8048180⟩

lemma smallShell_texts : smallShell.Texts (loadTexts shellTexts) where
  starting   := ⟨⟨by decide, by decide, by decide, by decide⟩, by decide⟩
  prompt     := ⟨⟨by decide, by decide, by decide, by decide⟩, by decide⟩
  readFailed := ⟨⟨by decide, by decide, by decide, by decide⟩, by decide⟩
  exit       := ⟨⟨by decide, by decide, by decide, by decide⟩, by decide⟩
  noSuch     := ⟨⟨by decide, by decide, by decide, by decide⟩, by decide⟩
  exception  := ⟨⟨by decide, by decide, by decide, by decide⟩, by decide⟩
  abnormal   := ⟨⟨by decide, by decide, by decide, by decide⟩, by decide⟩

lemma smallShellSetting_unknown :
    smallShellSetting.Answers 5 Kernel.catCommand.text (-1#32) [] := by
  refine .unknown _ (by decide +kernel) fun d hd => ?_
  have hnone : smallImage.firstNamed Kernel.catCommand.firstWord = none := rfl
  rw [show smallShellSetting.env.img = smallImage from rfl, hnone] at hd
  cases hd

lemma smallShellSetting_program :
    smallShellSetting.Answers 9 shellCommand.text 256#32 (text "bye\n") := by
  refine .program _ 1 (smallImage.dirEntries 2) (by decide +kernel) rfl (by decide +kernel)
    (by decide +kernel) (.inr ⟨0, by decide +kernel, .inr (.inr (by decide +kernel))⟩)

/-- What is printed after the first line. -/
def smallTranscript : List Byte :=
  text "391OS> 391OS> command is cat \nno such command\n391OS> command is shell \n" ++
    text "in terminal 1 now\nbye\nprogram terminated by exception\n391OS> "

lemma smallShellSetting_session : smallShellSetting.Session 3 1 smallTranscript :=
  .blank (by decide) (.command (by decide) (by decide) (by decide) smallShellSetting_unknown
    (.command (by decide) (by decide) (by decide)
      smallShellSetting_program (.exit (by decide))))

theorem shell_session_small : ∃ w,
    Ends (fun n => smallShellSetting.shell smallShell n (.start (loadTexts shellTexts)))
      (0#32, w) ∧ w.out = startingText ++ smallTranscript :=
  shell_session smallShellSetting smallShell (loadTexts shellTexts) smallEnv_page (by decide)
    ⟨by decide, by decide⟩ smallShell_texts smallShellSetting_session

end Osgods
