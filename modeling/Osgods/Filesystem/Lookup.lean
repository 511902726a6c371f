import Osgods.Filesystem.Basic

/-!
# Looking up a name

The name in a directory entry is what precedes the first zero of its field, if there is one.
`read_dentry_by_name` compares that name with the first 32 characters of the one it is given, so it
is exact for all names but those that go on after 32 characters.
-/

namespace Osgods

/-! ### `strncmp` -/

section

variable {s s₁ s₂ : List Byte} {i n : ℕ}

/-- A string from index `i` on, one character at a time. -/
lemma cString_drop (s : List Byte) (i : ℕ) : cString (s.drop i) =
    if s.getD i 0 = 0 then [] else s.getD i 0 :: cString (s.drop (i + 1)) := by
  by_cases hi : i < s.length
  · have hget : s.getD i 0 = s[i] := by simp [List.getD_eq_getElem?_getD, hi]
    rw [List.drop_eq_getElem_cons hi, cString, List.takeWhile_cons, hget]
    by_cases hzero : s[i] = 0#8
    · simp [hzero]
    · simp [hzero, cString]
  · have hle : s.length ≤ i := Nat.le_of_not_lt hi
    have hget : s.getD i 0 = 0 := by simp [List.getD_eq_getElem?_getD, hle]
    rw [List.drop_of_length_le hle, hget]
    rfl

/-- `strncmp` compares two strings up to their terminators, but no more than `n` characters. -/
lemma strncmpFrom_eq_zero :
    strncmpFrom s₁ s₂ i n = 0 ↔ (cString (s₁.drop i)).take n = (cString (s₂.drop i)).take n := by
  induction n generalizing i with
  | zero => simp [strncmpFrom]
  | succ n ih =>
    rw [strncmpFrom, cString_drop s₁, cString_drop s₂]
    generalize s₁.getD i 0 = a
    generalize s₂.getD i 0 = b
    by_cases heq : a = b
    · subst heq
      by_cases hzero : a = 0#8
      · simp [hzero]
      · simp [hzero, ih]
    · have hne : a.toInt - b.toInt ≠ 0 := by
        intro h
        exact heq (BitVec.toInt_inj.mp (by omega))
      have htake : List.take (n + 1) (if a = 0 then [] else a :: cString (s₁.drop (i + 1))) ≠
          List.take (n + 1) (if b = 0 then [] else b :: cString (s₂.drop (i + 1))) := by
        by_cases ha : a = 0#8
        · have hb : b ≠ 0#8 := fun hb => heq (ha.trans hb.symm)
          simp [ha, hb]
        · by_cases hb : b = 0#8
          · simp [ha, hb]
          · simp [ha, hb, heq]
      rw [if_pos (Or.inl heq)]
      exact iff_of_false hne htake

lemma strncmp_eq_zero : strncmp s₁ s₂ n = 0 ↔ (cString s₁).take n = (cString s₂).take n :=
  strncmpFrom_eq_zero

lemma length_cString_le : (cString s).length ≤ s.length :=
  (List.takeWhile_sublist _).length_le

/-- The characters before a terminator. -/
lemma cString_append_zero (h : 0#8 ∉ s) : cString (s ++ [0#8]) = s := by
  rw [cString, List.takeWhile_append_of_pos]
  · simp
  · intro b hb
    simpa using ne_of_mem_of_not_mem hb h

lemma zero_not_mem_cString : 0#8 ∉ cString s := by
  intro h
  have hpos := List.all_eq_true.mp (List.all_takeWhile (l := s)) 0#8 h
  simp at hpos

end

/-! ### Directory entries -/

/-- The name in a directory entry. -/
def Dentry.name (d : Dentry) : List Byte := cString d.fileName

/-- The entries that a lookup goes through. -/
def Image.entries (img : Image) : List Dentry :=
  (List.range img.numDirEntries.toInt.toNat).map img.dirEntries

/-- Some file has this name. -/
def Image.Named (img : Image) (name : List Byte) : Prop := ∃ d ∈ img.entries, d.name = name

/-- The first file of this name. -/
def Image.firstNamed (img : Image) (name : List Byte) : Option Dentry :=
  img.entries.find? fun d => d.name = name

/-- `read_dentry_by_name` with the entry that it fills: its result, and the entry after it. -/
def fillDentryByName (img : Image) (fname : List Byte) (dentry : Dentry) : Word × Dentry :=
  match readDentryByName img fname with
  | some d => (0, d)
  | none   => (-1, dentry)

/-- What a lookup is for: the first entry with the whole name is copied, or nothing is. -/
def ExactLookup (img : Image) (fname : List Byte) : Prop :=
  ∀ dentry, fillDentryByName img fname dentry =
    match img.firstNamed (cString fname) with
    | some d => (0, d)
    | none   => (-1, dentry)

/-- A name that goes on after 32 characters, the first of which are the name of a file. -/
def Truncated (img : Image) (fname : List Byte) : Prop :=
  fileNameSize < (cString fname).length ∧ img.Named ((cString fname).take fileNameSize)

section

variable {img : Image} {fname : List Byte} {d : Dentry}

lemma length_name_le : d.name.length ≤ fileNameSize :=
  length_cString_le.trans d.fileName_length.le

/-- A name in a directory entry is compared as a whole, the given one in its first characters. -/
lemma strncmp_fileName :
    strncmp d.fileName fname fileNameSize = 0 ↔ d.name = (cString fname).take fileNameSize := by
  rw [strncmp_eq_zero, ← Dentry.name, List.take_of_length_le length_name_le]

lemma readDentryByName_eq :
    readDentryByName img fname = img.firstNamed ((cString fname).take fileNameSize) := by
  simp only [readDentryByName, strncmp_fileName, Image.firstNamed, Image.entries]

lemma readDentryByName_of_length_le (h : (cString fname).length ≤ fileNameSize) :
    readDentryByName img fname = img.firstNamed (cString fname) := by
  rw [readDentryByName_eq, List.take_of_length_le h]

variable {name : List Byte}

lemma firstNamed_eq_some (h : img.firstNamed name = some d) : d ∈ img.entries ∧ d.name = name := by
  rw [Image.firstNamed] at h
  exact ⟨List.mem_of_find?_eq_some h, by simpa using List.find?_some h⟩

lemma firstNamed_eq_none : img.firstNamed name = none ↔ ¬ img.Named name := by
  simp [Image.firstNamed, Image.Named]

/-- No entry has room for a longer name. -/
lemma not_named_of_length (h : fileNameSize < name.length) : ¬ img.Named name := by
  rintro ⟨d, -, rfl⟩
  exact absurd h (Nat.not_lt.mpr length_name_le)

/-- What a lookup finds has the given name, unless that is cut off. -/
lemma named_of_readDentryByName (hnot : ¬ Truncated img fname)
    (h : readDentryByName img fname = some d) : img.Named (cString fname) := by
  rw [readDentryByName_eq] at h
  obtain ⟨hmem, hname⟩ := firstNamed_eq_some h
  by_cases hlen : (cString fname).length ≤ fileNameSize
  · rw [List.take_of_length_le hlen] at hname
    exact ⟨d, hmem, hname⟩
  · exact absurd ⟨Nat.lt_of_not_le hlen, d, hmem, hname⟩ hnot

lemma not_exactLookup (h : Truncated img fname) : ¬ ExactLookup img fname := by
  obtain ⟨hlong, d, hmem, hname⟩ := h
  intro hexact
  have hsome : readDentryByName img fname ≠ none := by
    rw [readDentryByName_eq, Ne, firstNamed_eq_none]
    exact not_not.mpr ⟨d, hmem, hname⟩
  obtain ⟨e, he⟩ := Option.ne_none_iff_exists'.mp hsome
  have hd := hexact d
  rw [fillDentryByName, firstNamed_eq_none.mpr (not_named_of_length hlong), he] at hd
  have hret : (0 : Word) = -1 := congrArg Prod.fst hd
  exact absurd hret (by decide)

lemma exactLookup_of_not_truncated (h : ¬ Truncated img fname) : ExactLookup img fname := by
  intro dentry
  have hfind : readDentryByName img fname = img.firstNamed (cString fname) := by
    by_cases hlen : (cString fname).length ≤ fileNameSize
    · exact readDentryByName_of_length_le hlen
    · have hlong := Nat.lt_of_not_le hlen
      have hno : ¬ img.Named ((cString fname).take fileNameSize) := fun hn => h ⟨hlong, hn⟩
      rw [readDentryByName_eq, firstNamed_eq_none.mpr hno,
        firstNamed_eq_none.mpr (not_named_of_length hlong)]
  rw [fillDentryByName, hfind]

end

end Osgods
