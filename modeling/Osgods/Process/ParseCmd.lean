import Osgods.Process.Command
import Osgods.Page.Isolation
import Osgods.Lib.Strings
import Osgods.Library.Words

/-!
# The loops of `parse_cmd`

The four loops share the index `i` into the command. The two results are local arrays of `execute`,
so the test of `buf` for null is left out; a store outside of an array does not change anything
else.
-/

namespace Osgods

open Loop Words

/-- A command: the characters before its terminator. An `int` can count them, since the page tables
map no range of 2 GB, see `exists_of_readable`. -/
structure CommandText where
  text  : List Byte
  noNul : 0 ∉ text
  small : text.length < 2 ^ 31

/-- What can be read as a string is shorter than 2 GB. -/
lemma length_lt_of_readable {L : Layout} {last : Option Slot} {pt : PageTables}
    (h : Isolated L last pt) {address : Word} {n : ℕ}
    (hread : ∀ i ≤ n, (pt.translate L false (address + BitVec.ofNat 32 i)).isSome) :
    n < 2 ^ 31 := by
  by_contra hlong
  -- one of the addresses lies in the upper half of the address space
  obtain ⟨i, hi, hupper⟩ : ∃ i ≤ n, 2 ^ 31 ≤ (address + BitVec.ofNat 32 i).toNat := by
    by_cases haddr : 2 ^ 31 ≤ address.toNat
    · exact ⟨0, Nat.zero_le n, by simpa using haddr⟩
    · refine ⟨2 ^ 31 - address.toNat, by omega, ?_⟩
      rw [BitVec.toNat_add, BitVec.toNat_ofNat]
      omega
  obtain ⟨pa, hpa⟩ := Option.isSome_iff_exists.mp (hread i hi)
  have hdir := dirIndex_toNat (address + BitVec.ofNat 32 i)
  have hlow : (dirIndex (address + BitVec.ofNat 32 i)).toNat ≤ 33 := by
    obtain h' | h' | h' | h' :=
      h.dirIndex_cases (entryAllows_present (translate_eq_some hpa).1)
    all_goals
      rw [h']
      decide
  rw [hdir, mb4] at hlow
  omega

/-- Every string that a system call can read is a command. -/
theorem CommandText.exists_of_readable {L : Layout} {last : Option Slot} {pt : PageTables}
    (h : Isolated L last pt) {address : Word} {l : List Byte} (hl : 0 ∉ l)
    (hread : ∀ i ≤ l.length, (pt.translate L false (address + BitVec.ofNat 32 i)).isSome) :
    ∃ c : CommandText, c.text = l :=
  ⟨⟨l, hl, length_lt_of_readable h hread⟩, rfl⟩

/-! ### The loops -/

/-- `for (; i < command_len && command[i] == ' '; i++)`. -/
def skipSpaces (command : ℕ → Byte) (commandLen : ℤ) (i fuel : ℕ) : Option ℕ :=
  loop (fun i : ℕ => i < commandLen ∧ command i = space) (fun i => some (i + 1)) fuel i

/-- The state of a loop that copies a word. -/
structure Copying where
  i      : ℕ
  dst    : Buffer Byte
  index  : ℕ
  failed : Bool

/-- `dst[index++] = command[i]`, and `i++`. -/
def Copying.turn (command : ℕ → Byte) (c : Copying) : Copying :=
  { c with i := c.i + 1, dst := c.dst.store c.index (command c.i), index := c.index + 1 }

def copyFilename (command : ℕ → Byte) (commandLen : ℤ) (i : ℕ) (filename : Buffer Byte)
    (fuel : ℕ) : Option Copying :=
  loop (fun c : Copying => c.i < commandLen ∧ command c.i ≠ space)
    (fun c => some (c.turn command)) fuel ⟨i, filename, 0, false⟩

/-- The last loop returns from `parse_cmd` at the 129th character. -/
def copyArgument (command : ℕ → Byte) (commandLen : ℤ) (i : ℕ) (buf : Buffer Byte) (fuel : ℕ) :
    Option Copying :=
  loop (fun c : Copying => c.failed = false ∧ c.i < commandLen ∧ command c.i ≠ space)
    (fun c => some (if maxArgumentSize ≤ c.index then { c with failed := true }
      else c.turn command)) fuel ⟨i, buf, 0, false⟩

/-- The value that `parse_cmd` returns, and its two buffers. -/
structure Parsed where
  ret      : ℤ
  filename : Buffer Byte
  buf      : Buffer Byte

namespace CommandText

/-- `command[i]`. -/
def command (c : CommandText) (i : ℕ) : Byte := c.text.getD i 0

/-- `parse_cmd`. -/
def parseCmd (c : CommandText) (filename buf : Buffer Byte) (fuel : ℕ) : Option Parsed :=
  (strlen c.command fuel).bind fun len =>
    let commandLen := (BitVec.ofNat 32 len).toInt
    (skipSpaces c.command commandLen 0 fuel).bind fun i =>
      (copyFilename c.command commandLen i filename fuel).bind fun f =>
        let filename := f.dst.store f.index 0
        (skipSpaces c.command commandLen f.i fuel).bind fun i =>
          (copyArgument c.command commandLen i buf fuel).map fun a =>
            if a.failed then ⟨-1, filename, a.dst⟩
            else ⟨0, filename, a.dst.store a.index 0⟩

end CommandText

/-! ### What the loops do -/

section

variable {text l : List Byte} {i : ℕ} {s : Copying}

/-- `strlen` of a text that an `int` can count. -/
lemma commandLen_eq (c : CommandText) :
    (BitVec.ofNat 32 c.text.length).toInt = c.text.length := by
  have hsmall := c.small
  rw [BitVec.toInt_eq_toNat_cond, BitVec.toNat_ofNat, Nat.mod_eq_of_lt (by omega),
    if_pos (by omega)]

lemma ends_strlen_command (c : CommandText) : Ends (strlen c.command) c.text.length := by
  exact ends_strlen (fun i hi => Scan.getD_ne_of_not_mem c.noNul hi)
    (List.getD_eq_default _ _ le_rfl)

lemma turns_skipSpaces (h : Scan.Rest text i l) :
    Turns (fun i : ℕ => (i : ℤ) < text.length ∧ text.getD i 0 = space) (fun _ i => some (i + 1)) i
      (i + (l.takeWhile (· = space)).length) := by
  induction l generalizing i with
  | nil =>
    refine .done fun hlt => ?_
    have hend := h.nil
    omega
  | cons ch l ih =>
    by_cases hspace : ch = space
    · have hlen : i + ((ch :: l).takeWhile (· = space)).length =
          i + 1 + (l.takeWhile (· = space)).length := by
        rw [List.takeWhile_cons_of_pos (by simpa using hspace), List.length_cons]
        omega
      rw [hlen]
      exact .turn ⟨Int.ofNat_lt.mpr h.lt, h.getD.trans hspace⟩ (.pure _) (ih h.tail)
    · rw [List.takeWhile_cons_of_neg (by simpa using hspace)]
      exact .done fun hguard => hspace (h.getD.symm.trans hguard.2)

lemma ends_skipSpaces (h : Scan.Rest text i l) : ∃ j,
    Ends (skipSpaces (fun i => text.getD i 0) text.length i) j ∧
      Scan.Rest text j (l.dropWhile (· = space)) :=
  ⟨_, (turns_skipSpaces h).ends, h.dropWhile _⟩

/-- The state after a word has been copied. -/
def Copying.copied (w : List Byte) (s : Copying) : Copying :=
  { s with i := s.i + w.length, dst := s.dst.storeAll s.index w, index := s.index + w.length }

lemma Copying.copied_cons (ch : Byte) (w : List Byte) (s : Copying)
    (h : text.getD s.i 0 = ch) :
    s.copied (ch :: w) = (s.turn fun i => text.getD i 0).copied w := by
  simp only [copied, turn, h, Buffer.storeAll, List.length_cons, Copying.mk.injEq, true_and,
    and_true]
  omega

lemma turns_copyFilename (h : Scan.Rest text s.i l) :
    Turns (fun c : Copying => (c.i : ℤ) < text.length ∧ text.getD c.i 0 ≠ space)
      (fun _ c => some (c.turn fun i => text.getD i 0)) s
        (s.copied (l.takeWhile (· ≠ space))) := by
  induction l generalizing s with
  | nil =>
    refine .done fun hlt => ?_
    have hend := h.nil
    omega
  | cons ch l ih =>
    by_cases hspace : ch = space
    · rw [List.takeWhile_cons_of_neg (by simpa using hspace)]
      exact .done fun hguard => hguard.2 (h.getD.trans hspace)
    · rw [List.takeWhile_cons_of_pos (by simpa using hspace), Copying.copied_cons ch _ s h.getD]
      refine .turn ⟨Int.ofNat_lt.mpr h.lt, ?_⟩ (.pure _) (ih h.tail)
      rwa [h.getD]

/-- The state after a word has been copied as far as the buffer goes. -/
def Copying.bounded (w : List Byte) (s : Copying) : Copying :=
  if s.index + w.length ≤ maxArgumentSize then s.copied w
  else { s.copied (w.take (maxArgumentSize - s.index)) with failed := true }

lemma turns_copyArgument (h : Scan.Rest text s.i l) (hgoes : s.failed = false)
    (hindex : s.index ≤ maxArgumentSize) :
    Turns (fun c : Copying => c.failed = false ∧ (c.i : ℤ) < text.length ∧ text.getD c.i 0 ≠ space)
      (fun _ c => some (if maxArgumentSize ≤ c.index then { c with failed := true }
        else c.turn fun i => text.getD i 0)) s (s.bounded (l.takeWhile (· ≠ space))) := by
  induction l generalizing s with
  | nil =>
    have hnone : s.bounded ([].takeWhile (· ≠ space)) = s := if_pos hindex
    rw [hnone]
    refine .done fun hguard => ?_
    have hend := h.nil
    omega
  | cons ch l ih =>
    by_cases hspace : ch = space
    · have hnone : s.bounded [] = s := if_pos hindex
      rw [List.takeWhile_cons_of_neg (by simpa using hspace), hnone]
      exact .done fun hguard => hguard.2.2 (h.getD.trans hspace)
    · rw [List.takeWhile_cons_of_pos (by simpa using hspace)]
      have hguard : s.failed = false ∧ (s.i : ℤ) < text.length ∧ text.getD s.i 0 ≠ space :=
        ⟨hgoes, Int.ofNat_lt.mpr h.lt, by rwa [h.getD]⟩
      refine .turn hguard (.pure _) ?_
      by_cases hfull : maxArgumentSize ≤ s.index
      · have hroom : maxArgumentSize - s.index = 0 := Nat.sub_eq_zero_of_le hfull
        have hend : s.bounded (ch :: l.takeWhile (· ≠ space)) = { s with failed := true } := by
          rw [Copying.bounded, if_neg (by rw [List.length_cons]; omega), hroom, List.take_zero]
          rfl
        rw [if_pos hfull, hend]
        exact .done fun hguard => by cases hguard.1
      · have hnext : (s.turn fun i => text.getD i 0).bounded (l.takeWhile (· ≠ space)) =
            s.bounded (ch :: l.takeWhile (· ≠ space)) := by
          have hroom : maxArgumentSize - s.index = maxArgumentSize - (s.index + 1) + 1 := by omega
          have hsum : s.index + (ch :: l.takeWhile (· ≠ space)).length =
              s.index + 1 + (l.takeWhile (· ≠ space)).length := by
            rw [List.length_cons]
            omega
          unfold Copying.bounded
          rw [hsum, hroom, List.take_succ_cons, Copying.copied_cons ch _ s h.getD,
            Copying.copied_cons ch _ s h.getD]
          rfl
        rw [if_neg hfull, ← hnext]
        exact ih h.tail hgoes (Nat.succ_le_of_lt (Nat.lt_of_not_le hfull))

lemma ends_copyFilename (h : Scan.Rest text i l) {w : List Byte}
    (hw : l.takeWhile (· ≠ space) = w) (filename : Buffer Byte) : ∃ j,
    Ends (copyFilename (fun i => text.getD i 0) text.length i filename)
      ⟨j, filename.storeAll 0 w, w.length, false⟩ ∧ Scan.Rest text j (l.dropWhile (· ≠ space)) := by
  have hturns := (turns_copyFilename (s := ⟨i, filename, 0, false⟩) h).ends
  simp only [Copying.copied, hw, Nat.zero_add] at hturns
  have hrest := h.dropWhile (· ≠ space)
  rw [hw] at hrest
  exact ⟨_, hturns, hrest⟩

lemma ends_copyArgument (h : Scan.Rest text i l) {w : List Byte}
    (hw : l.takeWhile (· ≠ space) = w) (buf : Buffer Byte) : ∃ j,
    Ends (copyArgument (fun i => text.getD i 0) text.length i buf)
      (if maxArgumentSize < w.length then
        ⟨j, buf.storeAll 0 (w.take maxArgumentSize), maxArgumentSize, true⟩
      else ⟨j, buf.storeAll 0 w, w.length, false⟩) := by
  have hturns := (turns_copyArgument (s := ⟨i, buf, 0, false⟩) h rfl (Nat.zero_le _)).ends
  simp only [Copying.bounded, Copying.copied, hw, Nat.zero_add, Nat.sub_zero] at hturns
  by_cases hlong : maxArgumentSize < w.length
  · rw [if_neg (by omega), List.length_take_of_le (Nat.le_of_lt hlong)] at hturns
    simp only [if_pos hlong]
    exact ⟨_, hturns⟩
  · rw [if_pos (by omega)] at hturns
    simp only [if_neg hlong]
    exact ⟨_, hturns⟩

end

namespace CommandText

variable (c : CommandText) (filename buf : Buffer Byte)

/-- The first word of a command, or nothing. -/
def first : List Byte := (words space c.text).getD 0 []

/-- The second word of a command, or nothing. -/
def second : List Byte := (words space c.text).getD 1 []

lemma first_eq : c.first = (cut space c.text).1 := getD_words_zero space c.text

lemma second_eq : c.second = (cut space (cut space c.text).2).1 := getD_words_one space c.text

lemma zero_not_mem_first : 0 ∉ c.first := by
  rw [first_eq]
  intro hmem
  exact c.noNul ((List.dropWhile_sublist _).mem ((List.takeWhile_sublist _).mem hmem))

lemma zero_not_mem_second : 0 ∉ c.second := by
  rw [second_eq]
  intro hmem
  have hrest := (List.dropWhile_sublist _).mem ((List.takeWhile_sublist _).mem hmem)
  exact c.noNul ((List.dropWhile_sublist _).mem ((List.dropWhile_sublist _).mem hrest))

/-- What `parse_cmd` makes of the two words. -/
def parsed : Parsed :=
  let filename := (filename.storeAll 0 c.first).store c.first.length 0
  if maxArgumentSize < c.second.length then
    ⟨-1, filename, buf.storeAll 0 (c.second.take maxArgumentSize)⟩
  else ⟨0, filename, (buf.storeAll 0 c.second).store c.second.length 0⟩

/-- The four loops tile the command. -/
theorem ends_parseCmd : Ends (c.parseCmd filename buf) (c.parsed filename buf) := by
  obtain ⟨i, hskip, hrest⟩ := ends_skipSpaces (Scan.Rest.zero c.text)
  obtain ⟨j, hcopy, hrest⟩ := ends_copyFilename hrest c.first_eq.symm filename
  obtain ⟨k, hskip', hrest⟩ := ends_skipSpaces hrest
  obtain ⟨l, hcopy'⟩ := ends_copyArgument hrest c.second_eq.symm buf
  unfold parseCmd
  refine (ends_strlen_command c).bind ?_
  rw [commandLen_eq]
  refine hskip.bind (hcopy.bind (hskip'.bind ?_))
  have hret := hcopy'.map fun a : Copying =>
    if a.failed then Parsed.mk (-1) ((filename.storeAll 0 c.first).store c.first.length 0) a.dst
    else ⟨0, (filename.storeAll 0 c.first).store c.first.length 0, a.dst.store a.index 0⟩
  unfold parsed
  by_cases hlong : maxArgumentSize < c.second.length
  · rw [if_pos hlong]
    rw [if_pos hlong] at hret
    exact hret
  · rw [if_neg hlong]
    rw [if_neg hlong] at hret
    exact hret

lemma parsed_of_lt (h : maxArgumentSize < c.second.length) : c.parsed filename buf =
    ⟨-1, (filename.storeAll 0 c.first).store c.first.length 0,
      buf.storeAll 0 (c.second.take maxArgumentSize)⟩ :=
  if_pos h

lemma parsed_of_le (h : c.second.length ≤ maxArgumentSize) : c.parsed filename buf =
    ⟨0, (filename.storeAll 0 c.first).store c.first.length 0,
      (buf.storeAll 0 c.second).store c.second.length 0⟩ :=
  if_neg (Nat.not_lt.mpr h)

/-- The loops compute what `execute` is told about a command. -/
theorem parseCmd_refines : Osgods.parseCmd c.text =
    if (c.parsed filename buf).ret = 0 then some (c.first ++ [0], c.second ++ [0]) else none := by
  have htext : cString c.text = c.text := by
    rw [cString, List.takeWhile_eq_self_iff]
    intro b hb
    simpa using ne_of_mem_of_not_mem hb c.noNul
  have hsplit : Osgods.parseCmd c.text =
      if maxArgumentSize < c.second.length then none
      else some (c.first ++ [0], c.second ++ [0]) := by
    rw [first_eq, second_eq, Osgods.parseCmd, htext]
    rfl
  rw [hsplit]
  by_cases hlong : maxArgumentSize < c.second.length
  · rw [parsed_of_lt c _ _ hlong, if_pos hlong]
    rfl
  · rw [parsed_of_le c _ _ (Nat.not_lt.mp hlong), if_neg hlong]
    rfl

end CommandText

/-! ### Memory safety -/

/-- Only the buffers have been stored to, and on success they hold strings. -/
structure Parsed.Safe (r : Parsed) : Prop where
  filename : r.filename.Inside fileNameSize
  buf      : r.buf.Inside maxArgumentSize
  strings  : r.ret = -1 ∨ r.ret = 0 ∧
    (∃ f, f.length < fileNameSize ∧ r.filename.Holds 0 f) ∧
      ∃ a, a.length < maxArgumentSize ∧ r.buf.Holds 0 a

lemma safe_parsed_iff (c : CommandText) (filename buf : ℕ → Byte) :
    (c.parsed (.fresh filename) (.fresh buf)).Safe ↔
      c.first.length < fileNameSize ∧ c.second.length ≠ maxArgumentSize := by
  have hname := Buffer.holds_storeAll (b := .fresh filename) (i := 0) c.zero_not_mem_first
  have harg := Buffer.holds_storeAll (b := .fresh buf) (i := 0) c.zero_not_mem_second
  rw [Nat.zero_add] at hname harg
  obtain hlong | hle := Nat.lt_or_ge maxArgumentSize c.second.length
  · rw [c.parsed_of_lt _ _ hlong]
    constructor
    · intro h
      exact ⟨(Buffer.inside_store.mp h.filename).1, hlong.ne'⟩
    · rintro ⟨hfirst, -⟩
      refine ⟨?_, ?_, Or.inl rfl⟩
      · rw [Buffer.inside_store, Buffer.inside_storeAll]
        exact ⟨hfirst, fun _ => by omega, Buffer.inside_fresh _⟩
      · rw [Buffer.inside_storeAll, List.length_take]
        exact ⟨fun _ => by omega, Buffer.inside_fresh _⟩
  · rw [c.parsed_of_le _ _ hle]
    constructor
    · intro h
      exact ⟨(Buffer.inside_store.mp h.filename).1, (Buffer.inside_store.mp h.buf).1.ne⟩
    · rintro ⟨hfirst, hsecond⟩
      have hlt := Nat.lt_of_le_of_ne hle hsecond
      refine ⟨?_, ?_, Or.inr ⟨rfl, ⟨_, hfirst, hname⟩, _, hlt, harg⟩⟩
      · rw [Buffer.inside_store, Buffer.inside_storeAll]
        exact ⟨hfirst, fun _ => by omega, Buffer.inside_fresh _⟩
      · rw [Buffer.inside_store, Buffer.inside_storeAll]
        exact ⟨hlt, fun _ => by omega, Buffer.inside_fresh _⟩

/-- `parse_cmd` keeps to its buffers exactly if the first word has fewer than 32 characters and the
second one does not have 128. -/
theorem parseCmd_safe_iff (c : CommandText) (filename buf : ℕ → Byte) :
    (∃ r, Ends (c.parseCmd (.fresh filename) (.fresh buf)) r ∧ r.Safe) ↔
      c.first.length < fileNameSize ∧ c.second.length ≠ maxArgumentSize := by
  rw [← safe_parsed_iff c filename buf]
  constructor
  · rintro ⟨r, hr, hsafe⟩
    rwa [hr.unique (c.ends_parseCmd _ _)] at hsafe
  · intro hsafe
    exact ⟨_, c.ends_parseCmd _ _, hsafe⟩

/-- A command of 32 characters. -/
def longCommand : CommandText := ⟨List.replicate 32 0x61, by decide, by decide⟩

/-- The terminator of its name is stored behind `filename`. -/
theorem not_parseCmd_safe_long : ¬ ∃ r,
    Ends (longCommand.parseCmd (.fresh fun _ => 0) (.fresh fun _ => 0)) r ∧ r.Safe := by
  rintro ⟨r, hr, hsafe⟩
  rw [hr.unique (longCommand.ends_parseCmd _ _), safe_parsed_iff] at hsafe
  exact absurd hsafe.1 (by decide)

/-! ### Word splitting -/

/-- `parse_cmd` delivers the first two words within its buffers, however they are spaced. -/
theorem parseCmd_words (c : CommandText) (hfirst : c.first.length ≤ 31)
    (hsecond : c.second.length ≤ 127) (filename buf : ℕ → Byte) :
    ∃ r, Ends (c.parseCmd (.fresh filename) (.fresh buf)) r ∧ r.ret = 0 ∧
      r.filename.Holds 0 c.first ∧ r.buf.Holds 0 c.second ∧ r.Safe ∧
        ∀ c' : CommandText, Respaced space c.text c'.text →
          Ends (c'.parseCmd (.fresh filename) (.fresh buf)) r := by
  have hname := Buffer.holds_storeAll (b := .fresh filename) (i := 0) c.zero_not_mem_first
  have harg := Buffer.holds_storeAll (b := .fresh buf) (i := 0) c.zero_not_mem_second
  have hfits : c.second.length ≤ maxArgumentSize := hsecond.trans (by decide)
  have hsafe := (safe_parsed_iff c filename buf).mpr
    ⟨Nat.lt_succ_of_le hfirst, (Nat.lt_succ_of_le hsecond).ne⟩
  rw [Nat.zero_add] at hname harg
  refine ⟨_, c.ends_parseCmd _ _, ?_, ?_, ?_, hsafe, fun c' hspaced => ?_⟩
  · rw [c.parsed_of_le _ _ hfits]
  · rw [c.parsed_of_le _ _ hfits]
    exact hname
  · rw [c.parsed_of_le _ _ hfits]
    exact harg
  · have hwords := words_of_respaced hspaced
    have hparsed : c'.parsed (.fresh filename) (.fresh buf) =
        c.parsed (.fresh filename) (.fresh buf) := by
      rw [CommandText.parsed, CommandText.parsed, CommandText.first, CommandText.second, hwords]
      rfl
    rw [← hparsed]
    exact c'.ends_parseCmd _ _

/-- `" cat  a "`. -/
theorem parseCmd_words_small : ∃ r,
    Ends (CommandText.parseCmd ⟨[0x20, 0x63, 0x61, 0x74, 0x20, 0x20, 0x61, 0x20], by decide,
      by decide⟩ (.fresh fun _ => 0) (.fresh fun _ => 0)) r ∧ r.ret = 0 ∧
        r.filename.Holds 0 [0x63, 0x61, 0x74] ∧ r.buf.Holds 0 [0x61] := by
  obtain ⟨r, hr, hret, hname, harg, -⟩ := parseCmd_words
    ⟨[0x20, 0x63, 0x61, 0x74, 0x20, 0x20, 0x61, 0x20], by decide, by decide⟩ (by decide) (by decide)
      (fun _ => 0) fun _ => 0
  exact ⟨r, hr, hret, hname, harg⟩

end Osgods
