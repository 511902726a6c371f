import Osgods.User.Basic

/-!
# Strings in the page of a program

There is one rule for each function of `ece391support.c` that works on strings, given what lies at
its pointers.
-/

namespace Osgods

open Loop ByteCopy Routine

/-- The string `l` and its terminator lie in the page, from `a` on. -/
structure StringAt (mem : Word → Byte) (a : Word) (l : List Byte) : Prop where
  low   : mb128 ≤ a.toNat
  high  : a.toNat + l.length < mb132
  bytes : ∀ i ≤ l.length, mem (a + BitVec.ofNat 32 i) = l.getD i 0
  noNul : 0#8 ∉ l

/-- Two memories that differ in the `n` bytes from `a` on at most. -/
def SameOutside (a : Word) (n : ℕ) (mem mem' : Word → Byte) : Prop :=
  ∀ x : Word, x.toNat < a.toNat ∨ a.toNat + n ≤ x.toNat → mem' x = mem x

section

variable {w : World} {mem mem' mem'' : Word → Byte} {a b : Word} {l l' : List Byte} {m n i : ℕ}
  {Q : Word → World → Prop}

/-! ### Addresses and strings -/

lemma add_ofNat_toNat (h : a.toNat + i < 2 ^ 32) : (a + BitVec.ofNat 32 i).toNat = a.toNat + i := by
  rw [BitVec.toNat_add, BitVec.toNat_ofNat]
  omega

lemma userPage_add (hlow : mb128 ≤ a.toNat) (hhigh : a.toNat + i < mb132) :
    UserPage (a + BitVec.ofNat 32 i) := by
  have hsum := add_ofNat_toNat (a := a) (i := i) (by simp only [mb132] at hhigh; omega)
  constructor <;> omega

namespace SameOutside

lemma refl (mem : Word → Byte) : SameOutside a n mem mem := fun _ _ => rfl

lemma trans (h : SameOutside a n mem mem') (h' : SameOutside a n mem' mem'') :
    SameOutside a n mem mem'' :=
  fun x hx => (h' x hx).trans (h x hx)

/-- A range within another one. -/
lemma mono (h : SameOutside b m mem mem') (hlow : a.toNat ≤ b.toNat)
    (hhigh : b.toNat + m ≤ a.toNat + n) : SameOutside a n mem mem' :=
  fun x hx => h x (by omega)

lemma update (h : a.toNat + i < 2 ^ 32) (hi : i < n) (c : Byte) :
    SameOutside a n mem (Function.update mem (a + BitVec.ofNat 32 i) c) := by
  intro x hx
  refine Function.update_of_ne ?_ _ _
  rintro rfl
  rw [add_ofNat_toNat h] at hx
  omega

end SameOutside

/-- A string that has no byte in common with a range. -/
lemma StringAt.frame (h : StringAt mem b l) (hmem : SameOutside a n mem mem')
    (hoff : b.toNat + l.length < a.toNat ∨ a.toNat + n ≤ b.toNat) : StringAt mem' b l := by
  have hlow := h.low
  have hhigh := h.high
  refine ⟨hlow, hhigh, fun i hi => ?_, h.noNul⟩
  rw [← h.bytes i hi]
  apply hmem
  simp only [mb132] at hhigh
  rw [add_ofNat_toNat (by omega)]
  omega

lemma StringAt.userPage (h : StringAt mem a l) (hi : i ≤ l.length) :
    UserPage (a + BitVec.ofNat 32 i) :=
  userPage_add h.low (by have := h.high; omega)

lemma StringAt.first (h : StringAt mem a l) : mem a = l.getD 0 0 := by
  simpa using h.bytes 0 (Nat.zero_le _)

lemma StringAt.userPage_first (h : StringAt mem a l) : UserPage a := by
  simpa using h.userPage (i := 0) (Nat.zero_le _)

/-- The end of a string. -/
lemma StringAt.drop (h : StringAt mem a l) (hi : i ≤ l.length) :
    StringAt mem (a + BitVec.ofNat 32 i) (l.drop i) := by
  have hlow := h.low
  have hhigh := h.high
  have hsum := add_ofNat_toNat (a := a) (i := i) (by simp only [mb132] at hhigh; omega)
  refine ⟨by omega, by rw [List.length_drop]; omega, fun k hk => ?_, ?_⟩
  · rw [List.length_drop] at hk
    rw [BitVec.add_assoc, ← BitVec.ofNat_add, h.bytes (i + k) (by omega)]
    simp [List.getD_eq_getElem?_getD]
  · exact fun hmem => h.noNul (List.mem_of_mem_drop hmem)

/-- Two strings are compared byte by byte, their terminators included. -/
lemma take_eq_take_iff (hl : 0#8 ∉ l) (hl' : 0#8 ∉ l') :
    l.take n = l'.take n ↔ ∀ k < n, l.getD k 0 = l'.getD k 0 := by
  constructor
  · intro h k hk
    have hget := congrArg (fun s : List Byte => s.getD k 0) h
    simpa [List.getD_eq_getElem?_getD, List.getElem?_take_of_lt hk] using hget
  · intro h
    apply List.ext_getElem?
    intro k
    by_cases hk : k < n
    · rw [List.getElem?_take_of_lt hk, List.getElem?_take_of_lt hk]
      have hget := h k hk
      by_cases hlt : k < l.length
      · have hne := Scan.getD_ne_of_not_mem (d := 0) hl hlt
        by_cases hlt' : k < l'.length
        · rw [List.getD_eq_getElem _ _ hlt, List.getD_eq_getElem _ _ hlt'] at hget
          rw [List.getElem?_eq_getElem hlt, List.getElem?_eq_getElem hlt', hget]
        · rw [List.getD_eq_default l' _ (by omega)] at hget
          exact absurd hget hne
      · by_cases hlt' : k < l'.length
        · rw [List.getD_eq_default l _ (by omega)] at hget
          exact absurd hget.symm (Scan.getD_ne_of_not_mem hl' hlt')
        · rw [List.getElem?_eq_none (by omega), List.getElem?_eq_none (by omega)]
    · rw [List.getElem?_take_eq_none (by omega), List.getElem?_take_eq_none (by omega)]

lemma eq_iff_forall_getD (hl : 0#8 ∉ l) (hl' : 0#8 ∉ l') :
    l = l' ↔ ∀ k, l.getD k 0 = l'.getD k 0 := by
  refine ⟨fun h k => by rw [h], fun h => ?_⟩
  have htake := (take_eq_take_iff (n := max l.length l'.length) hl hl').mpr fun k _ => h k
  rwa [List.take_of_length_le (by omega), List.take_of_length_le (by omega)] at htake

/-- The byte of a string is its terminator exactly at its end. -/
lemma getD_eq_zero_iff (hl : 0#8 ∉ l) : l.getD i 0 = 0#8 ↔ l.length ≤ i := by
  constructor
  · intro h
    by_contra hlt
    exact Scan.getD_ne_of_not_mem hl (by omega) h
  · intro h
    exact List.getD_eq_default _ _ h

/-! ### Memory and strings -/

def World.withMem (mem : Word → Byte) (w : World) : World :=
  { w with task := { w.task with mem := mem } }

@[simp] lemma store_task_mem (c : Byte) :
    (w.store a c).task.mem = Function.update w.task.mem a c := rfl

@[simp] lemma withMem_task_mem : (w.withMem mem).task.mem = mem := rfl

@[simp] lemma withMem_task_table : (w.withMem mem).task.table = w.task.table := rfl

@[simp] lemma withMem_out : (w.withMem mem).out = w.out := rfl

lemma wp_load {Q : Byte → World → Prop} (h : UserPage a) (hQ : Q (w.task.mem a) w) :
    WP (load a) Q w :=
  .change (if_pos h) hQ

lemma wp_store {Q : Unit → World → Prop} {c : Byte} (h : UserPage a) (hQ : Q () (w.store a c)) :
    WP (store a c) Q w :=
  .change (if_pos h) hQ

lemma StringAt.length_lt (h : StringAt mem a l) : l.length < 2 ^ 32 := by
  have hhigh := h.high
  simp only [mb132] at hhigh
  omega

/-- The next byte of a string. -/
lemma next_address (a : Word) (i : ℕ) :
    a + BitVec.ofNat 32 i + 1 = a + BitVec.ofNat 32 (i + 1) := by
  rw [BitVec.add_assoc, BitVec.ofNat_add]
  rfl

lemma wp_strlen (h : StringAt w.task.mem a l) (hQ : Q (BitVec.ofNat 32 l.length) w) :
    WP (ece391Strlen a) Q w := by
  refine .loop (fun k p v => v = w ∧ ∃ i, k + i = l.length ∧
    p = (a + BitVec.ofNat 32 i, BitVec.ofNat 32 i)) ⟨rfl, 0, Nat.add_zero _, by simp⟩ ?_
  rintro k _ _ ⟨rfl, i, hi, rfl⟩
  refine .bind (wp_load (h.userPage (by omega)) ?_)
  rw [h.bytes i (by omega)]
  refine .ite (fun hzero => .pure ?_) fun hne => .pure ?_
  · obtain rfl : i = l.length := by
      have hend := (getD_eq_zero_iff h.noNul).mp hzero
      omega
    exact hQ
  · have hlt := mt (getD_eq_zero_iff h.noNul).mpr hne
    exact ⟨k - 1, by omega, rfl, i + 1, by omega, by rw [next_address, BitVec.ofNat_add]; rfl⟩

lemma byteDifference_ne_zero {c c' : Byte} (h : c ≠ c') : byteDifference c c' ≠ 0#32 := by
  intro hzero
  apply h
  have hc := c.isLt
  have hc' := c'.isLt
  apply BitVec.eq_of_toNat_eq
  have hnat := congrArg BitVec.toNat hzero
  simp only [byteDifference, BitVec.toNat_sub, BitVec.toNat_setWidth, BitVec.toNat_ofNat] at hnat
  omega

lemma wp_strcmp (h : StringAt w.task.mem a l) (h' : StringAt w.task.mem b l')
    (hQ : ∀ r, (r = 0#32 ↔ l = l') → Q r w) : WP (ece391Strcmp a b) Q w := by
  refine .loop (fun k p v => v = w ∧ ∃ i, k + i = l.length ∧ i ≤ l'.length ∧
    p = (a + BitVec.ofNat 32 i, b + BitVec.ofNat 32 i) ∧ ∀ k < i, l.getD k 0 = l'.getD k 0)
    ⟨rfl, 0, Nat.add_zero _, Nat.zero_le _, by simp, by simp⟩ ?_
  rintro k _ _ ⟨rfl, i, hi, hi', rfl, hpre⟩
  refine .bind (wp_load (h.userPage (by omega)) (.bind (wp_load (h'.userPage hi') ?_)))
  rw [h.bytes i (by omega), h'.bytes i hi']
  refine .ite (fun hne => .pure (hQ _ (iff_of_false (byteDifference_ne_zero hne) ?_))) fun heq => ?_
  · rintro rfl
    exact hne rfl
  · have heq := not_not.mp heq
    refine .ite (fun hzero => .pure (hQ _ (iff_of_true rfl ?_))) fun hne => .pure ?_
    · rw [eq_iff_forall_getD h.noNul h'.noNul]
      intro k
      by_cases hk : k < i
      · exact hpre k hk
      · have hend := (getD_eq_zero_iff h.noNul).mp hzero
        have hend' := (getD_eq_zero_iff h'.noNul).mp (heq ▸ hzero)
        rw [List.getD_eq_default _ _ (by omega), List.getD_eq_default _ _ (by omega)]
    · have hlt := mt (getD_eq_zero_iff h.noNul).mpr hne
      have hlt' := mt (getD_eq_zero_iff h'.noNul).mpr (heq ▸ hne)
      refine ⟨k - 1, by omega, rfl, i + 1, by omega, by omega, by simp only [next_address], ?_⟩
      intro k hk
      rcases Nat.lt_succ_iff_lt_or_eq.mp hk with hk | rfl
      · exact hpre k hk
      · exact heq

lemma wp_strncmp {n : Word} (h : StringAt w.task.mem a l) (h' : StringAt w.task.mem b l')
    (hQ : ∀ r, (r = 0#32 ↔ l.take n.toNat = l'.take n.toNat) → Q r w) :
    WP (ece391Strncmp a b n) Q w := by
  have hn := n.isLt
  refine .ite (fun hzero => .pure (hQ _ (by simp [hzero]))) fun hne => ?_
  have hpos : n.toNat ≠ 0 := fun hzero => hne (BitVec.eq_of_toNat_eq hzero)
  refine .loop (fun k p v => v = w ∧ ∃ i, k + i = n.toNat ∧ 0 < k ∧ i ≤ l.length ∧ i ≤ l'.length ∧
    p = (a + BitVec.ofNat 32 i, b + BitVec.ofNat 32 i, BitVec.ofNat 32 k) ∧
      ∀ k < i, l.getD k 0 = l'.getD k 0)
    ⟨rfl, 0, Nat.add_zero _, by omega, Nat.zero_le _, Nat.zero_le _, by simp, by simp⟩ ?_
  rintro k _ _ ⟨rfl, i, hi, hk, hil, hil', rfl, hpre⟩
  refine .bind (wp_load (h.userPage hil) (.bind (wp_load (h'.userPage hil') ?_)))
  rw [h.bytes i hil, h'.bytes i hil']
  have htake := take_eq_take_iff (n := n.toNat) h.noNul h'.noNul
  refine .ite (fun hne => .pure (hQ _ (iff_of_false (byteDifference_ne_zero hne) ?_))) fun heq => ?_
  · exact fun hall => hne (htake.mp hall i (by omega))
  · have heq := not_not.mp heq
    have hone : BitVec.ofNat 32 k - 1 = BitVec.ofNat 32 (k - 1) := by
      apply BitVec.eq_of_toNat_eq
      simp only [BitVec.toNat_sub, BitVec.toNat_ofNat, BitVec.ofNat_eq_ofNat]
      omega
    refine .ite (fun hend => .pure (hQ _ (iff_of_true rfl (htake.mpr fun j hj => ?_))))
      fun hmore => .pure ?_
    · by_cases hji : j < i
      · exact hpre j hji
      · rcases hend with hzero | hlast
        · have hend := (getD_eq_zero_iff h.noNul).mp hzero
          have hend' := (getD_eq_zero_iff h'.noNul).mp (heq ▸ hzero)
          rw [List.getD_eq_default _ _ (by omega), List.getD_eq_default _ _ (by omega)]
        · have hnat := congrArg BitVec.toNat (hone.symm.trans hlast)
          simp only [BitVec.toNat_ofNat] at hnat
          obtain rfl : j = i := by omega
          exact heq
    · obtain ⟨hne, hlast⟩ := not_or.mp hmore
      have hlt := mt (getD_eq_zero_iff h.noNul).mpr hne
      have hlt' := mt (getD_eq_zero_iff h'.noNul).mpr (heq ▸ hne)
      have hk' : k - 1 ≠ 0 := by
        intro hzero
        rw [hone, hzero] at hlast
        exact hlast rfl
      refine ⟨k - 1, by omega, rfl, i + 1, by omega, by omega, by omega, by omega,
        by simp only [next_address, hone], ?_⟩
      intro j hj
      rcases Nat.lt_succ_iff_lt_or_eq.mp hj with hj | rfl
      · exact hpre j hj
      · exact heq

/-- A string is copied towards lower addresses, where it may overlap itself. -/
lemma wp_strcpy {Q : Unit → World → Prop} (h : StringAt w.task.mem b l) (hlow : mb128 ≤ a.toNat)
    (hle : a.toNat ≤ b.toNat)
    (hQ : ∀ mem', StringAt mem' a l → SameOutside a (l.length + 1) w.task.mem mem' →
      Q () (w.withMem mem')) : WP (ece391Strcpy a b) Q w := by
  have hhigh := h.high
  simp only [mb132] at hhigh
  refine .loop (fun k p v => ∃ i mem', k + i = l.length ∧ v = w.withMem mem' ∧
    p = (a + BitVec.ofNat 32 i, b + BitVec.ofNat 32 i) ∧
    SameOutside a i w.task.mem mem' ∧ ∀ j < i, mem' (a + BitVec.ofNat 32 j) = l.getD j 0)
    ⟨0, w.task.mem, Nat.add_zero _, rfl, by simp, .refl _, by simp⟩ ?_
  rintro k _ _ ⟨i, mem', hi, rfl, rfl, hsame, hcopied⟩
  have hsrc := add_ofNat_toNat (a := b) (i := i) (by omega)
  have hdst := add_ofNat_toNat (a := a) (i := i) (by omega)
  -- what is still to be copied has not been stored to
  have hbyte : mem' (b + BitVec.ofNat 32 i) = l.getD i 0 := by
    rw [← h.bytes i (by omega)]
    exact hsame _ (by omega)
  have hstored : ∀ j < i + 1, Function.update mem' (a + BitVec.ofNat 32 i) (l.getD i 0)
      (a + BitVec.ofNat 32 j) = l.getD j 0 := by
    intro j hj
    rcases Nat.lt_succ_iff_lt_or_eq.mp hj with hj | rfl
    · have hne : a + BitVec.ofNat 32 j ≠ a + BitVec.ofNat 32 i := fun heq =>
        absurd (add_ofNat_inj (by omega) (by omega) heq) (by omega)
      rw [Function.update_of_ne hne, hcopied j hj]
    · rw [Function.update_self]
  have hsame' : SameOutside a (i + 1) w.task.mem
      (Function.update mem' (a + BitVec.ofNat 32 i) (l.getD i 0)) :=
    (hsame.mono le_rfl (by omega)).trans (.update (by omega) (by omega) _)
  refine .bind (wp_load (h.userPage (by omega)) (.bind (wp_store ?_ ?_)))
  · exact userPage_add hlow (by simp only [mb132]; omega)
  rw [withMem_task_mem, hbyte]
  refine .ite (fun hzero => .pure ?_) fun hne => .pure ?_
  · obtain rfl : i = l.length := by
      have hend := (getD_eq_zero_iff h.noNul).mp hzero
      omega
    refine hQ _ ⟨hlow, by simp only [mb132]; omega, fun j hj => hstored j (by omega),
      h.noNul⟩ hsame'
  · have hlt := mt (getD_eq_zero_iff h.noNul).mpr hne
    exact ⟨k - 1, by omega, i + 1, _, by omega, rfl, by simp only [next_address], hsame', hstored⟩

end

end Osgods
