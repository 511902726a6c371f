import Osgods.Terminal.KeyBuffer

/-!
# Where the saved lines lie

`terminal_init` runs on the boot stack, and the three rows that it leaves in `keyb_buffer` are those
of a local array. The boot stack begins at 8MB, and so does the kernel stack of process 0: here the
rows and the kernel stacks are bytes of one memory, and the stack operations of the processes are
steps of their own. As long as process 0 does not need the stack below the end of the rows, this is
the keyboard of `Osgods.Terminal.Keyboard`, which keeps the saved lines apart.
-/

namespace Osgods

open Transition

/-! ### Addresses -/

/-- `sizeof(pcb_t)`. -/
abbrev pcbSize : ℕ := 264

/-- The end of the 8 KB block with the PCB and the kernel stack of a process. -/
def blockEnd (p : Slot) : ℕ := mb8 - kb8 * p

/-- Where an empty kernel stack begins: `esp0`. -/
def stackTop (p : Slot) : ℕ := (kernelStackTop (slotWord p)).toNat

/-- The kernel stack of a process. -/
def InStack (p : Slot) (x : ℕ) : Prop := blockEnd p - kb8 + pcbSize ≤ x ∧ x < blockEnd p

instance (p : Slot) (x : ℕ) : Decidable (InStack p x) := inferInstanceAs (Decidable (_ ∧ _))

/-- Where the compiler has put `keyb_buffer[3][128]`: on the boot stack, below the two arguments of
`entry` and two return addresses, and less than a block deep. -/
structure BootFrame where
  rows  : ℕ
  above : rows + 3 * keybBuffLen + 16 ≤ mb8
  below : mb8 - kb8 + pcbSize ≤ rows

def BootFrame.row (B : BootFrame) (t : Tid) : ℕ := B.rows + keybBuffLen * t

/-- `n` bytes of memory replaced from `x` on. -/
def overlay (mem : ℕ → Byte) (x n : ℕ) (f : ℕ → Byte) : ℕ → Byte :=
  fun y => if x ≤ y ∧ y < x + n then f (y - x) else mem y

/-! ### Steps -/

/-- The memory, the kernel stack pointer of each process, the live key buffer, and what
`terminal_list` holds about the saved ones. -/
structure LineState where
  mem     : ℕ → Byte
  esp     : Slot → ℕ
  keys    : KeyBuffer
  index   : Tid → ℕ
  display : Tid

/-- Everything that a push, a call or an interrupt stores is a `push`; `pop` takes it off again, and
`store` is one to a local variable. `data` is a store to a PCB or to anything else of the kernel
outside the stacks. -/
inductive LineAction where
  | push (p : Slot) (bytes : List Byte)
  | store (p : Slot) (x : ℕ) (b : Byte)
  | pop (p : Slot) (n : ℕ)
  | data (x : ℕ) (b : Byte)
  | key (key : Key)
  | read

namespace KeyBuffer

/-- `update_keyb_buf`. -/
def replace (new b : KeyBuffer) : KeyBuffer :=
  if new.keybIndex = 0 then clean ⟨b.keyBuffer, 0⟩ else b.load new.keyBuffer new.keybIndex

/-- A character key. -/
def charKey (ch : Byte) (b : KeyBuffer) : KeyBuffer :=
  if ch = chBackspace then if b.keybIndex = 0 then b else b.pop
  else b.push ch

end KeyBuffer

namespace LineState

/-- The bytes of a process's kernel stack that are in use. -/
def Live (s : LineState) (p : Slot) (x : ℕ) : Prop := s.esp p ≤ x ∧ x < stackTop p

instance (s : LineState) (p : Slot) (x : ℕ) : Decidable (s.Live p x) :=
  inferInstanceAs (Decidable (_ ∧ _))

/-- The line that is saved in a row. -/
def rowBuffer (B : BootFrame) (s : LineState) (t : Tid) : KeyBuffer :=
  ⟨fun i => s.mem (B.row t + i), s.index t⟩

/-- The loop of `terminal_switch` stores through `keyb_buffer`. -/
def saveLine (B : BootFrame) (s : LineState) : LineState :=
  { s with
    index := Function.update s.index s.display s.keys.keybIndex
    mem   := overlay s.mem (B.row s.display) s.keys.keybIndex s.keys.keyBuffer }

def terminalSwitch (B : BootFrame) (next : Tid) (s : LineState) : LineState :=
  if s.display = next then s
  else
    let s := s.saveLine B
    { s with keys := (s.rowBuffer B next).replace s.keys, display := next }

def handleKey (B : BootFrame) (key : Key) (s : LineState) : LineState :=
  match key with
  | .switch next => s.terminalSwitch B next
  | .char ch     => { s with keys := s.keys.charKey ch }
  | .modifier _  => s
  | .clear       => s
  | .other       => s

def push (p : Slot) (bytes : List Byte) (s : LineState) : LineState :=
  { s with
    esp := Function.update s.esp p (s.esp p - bytes.length)
    mem := overlay s.mem (s.esp p - bytes.length) bytes.length fun i => bytes.getD i 0 }

end LineState

def lineStep (B : BootFrame) (s : LineState) : LineAction → Option LineState
  | .push p bytes => if bytes.length ≤ s.esp p then some (s.push p bytes) else none
  | .store p x b  => if s.Live p x then some { s with mem := Function.update s.mem x b } else none
  | .pop p n      =>
    if s.esp p + n ≤ stackTop p then
      some { s with esp := Function.update s.esp p (s.esp p + n) }
    else none
  | .data x b     =>
    if ∃ p, InStack p x then none else some { s with mem := Function.update s.mem x b }
  | .key key      => some (s.handleKey B key)
  | .read         => some { s with keys := s.keys.clean }

/-- The first shell is about to run: no process is in the kernel, and nothing has been typed. -/
structure LineState.Booted (s : LineState) : Prop where
  esp     : ∀ p, s.esp p = stackTop p
  keys    : s.keys.keybIndex = 0
  index   : ∀ t, s.index t = 0
  display : s.display = 0

/-- The kernel stack of process 0 stays above the rows, and no more than a row is saved. -/
def KeepsRows (B : BootFrame) (s : LineState) : LineAction → Prop
  | .push p bytes        => p = 0 → B.rows + 3 * keybBuffLen ≤ s.esp 0 - bytes.length
  | .key (.switch next)  => s.display ≠ next → s.keys.keybIndex ≤ keybBuffLen
  | .key (.char _)       => True
  | .key (.modifier _)   => True
  | .key .clear          => True
  | .key .other          => True
  | .store _ _ _         => True
  | .pop _ _             => True
  | .data _ _            => True
  | .read                => True

instance (B : BootFrame) (s : LineState) (a : LineAction) : Decidable (KeepsRows B s a) :=
  match a with
  | .push _ _            => inferInstanceAs (Decidable (_ → _))
  | .key (.switch _)     => inferInstanceAs (Decidable (_ → _))
  | .key (.char _)       => .isTrue trivial
  | .key (.modifier _)   => .isTrue trivial
  | .key .clear          => .isTrue trivial
  | .key .other          => .isTrue trivial
  | .store _ _ _         => .isTrue trivial
  | .pop _ _             => .isTrue trivial
  | .data _ _            => .isTrue trivial
  | .read                => .isTrue trivial

/-- The rows change only where the line of their terminal is saved. -/
def RowsKept (B : BootFrame) (s s' : LineState) (a : LineAction) : Prop :=
  ∀ t j, j < keybBuffLen → s'.mem (B.row t + j) ≠ s.mem (B.row t + j) →
    ∃ next, a = .key (.switch next) ∧ s.display = t ∧ next ≠ t

/-- A terminal switch stores to no live byte of a kernel stack. -/
def StacksKept (s s' : LineState) (a : LineAction) : Prop :=
  ∀ next, a = .key (.switch next) → ∀ p x, s.Live p x → s'.mem x = s.mem x

section

variable {B : BootFrame} {s s' : LineState} {a : LineAction} {mem : ℕ → Byte} {x y n j : ℕ}
  {f : ℕ → Byte} {t next : Tid} {p : Slot} {bytes : List Byte} {b : Byte}

/-! ### Which bytes a step stores to -/

lemma overlay_of_mem (h : j < n) : overlay mem x n f (x + j) = f j := by
  rw [overlay, if_pos (by omega), Nat.add_sub_cancel_left]

lemma overlay_of_not_mem (h : y < x ∨ x + n ≤ y) : overlay mem x n f y = mem y :=
  if_neg (by omega)

lemma stackTop_eq : ∀ p : Slot, stackTop p = blockEnd p - 4 := by decide

/-- The rows lie in the kernel stack of process 0. -/
lemma BootFrame.row_bounds (B : BootFrame) (hj : j < keybBuffLen) :
    B.rows ≤ B.row t + j ∧ B.row t + j < B.rows + 3 * keybBuffLen := by
  have ht := t.isLt
  simp only [row, keybBuffLen] at hj ⊢
  omega

lemma BootFrame.row_inStack (B : BootFrame) (hj : j < keybBuffLen) : InStack 0 (B.row t + j) := by
  have hrow := B.row_bounds (t := t) hj
  have habove := B.above
  have hbelow := B.below
  simp only [InStack, blockEnd, keybBuffLen, mb8, kb8, pcbSize] at habove hbelow hrow ⊢
  constructor
  · simpa using hbelow.trans hrow.1
  · simp only [Fin.val_zero]
    omega

/-- Those of the others lie below. -/
lemma BootFrame.lt_rows (B : BootFrame) (hp : p ≠ 0) : stackTop p < B.rows := by
  have hblock : ∀ p : Slot, p ≠ 0 → stackTop p < mb8 - kb8 + pcbSize := by decide
  exact (hblock p hp).trans_le B.below

/-- Two rows do not overlap. -/
lemma BootFrame.row_disjoint (B : BootFrame) {u : Tid} (htu : t ≠ u) (hj : j < keybBuffLen)
    (hn : n ≤ keybBuffLen) : B.row t + j < B.row u ∨ B.row u + n ≤ B.row t + j := by
  have hne : t.val ≠ u.val := fun h => htu (Fin.ext h)
  simp only [row, keybBuffLen] at hj hn ⊢
  omega

/-! ### One step -/

/-- No stack pointer is above its stack, and that of process 0 is above the rows. -/
structure LineState.Ok (B : BootFrame) (s : LineState) : Prop where
  esp  : ∀ p, s.esp p ≤ stackTop p
  rows : B.rows + 3 * keybBuffLen ≤ s.esp 0

namespace LineState

lemma Booted.ok (h : s.Booted) : s.Ok B where
  esp  := fun p => (h.esp p).le
  rows := by
    have habove := B.above
    rw [h.esp 0, stackTop_eq]
    simp only [blockEnd, keybBuffLen, mb8, kb8, Fin.val_zero] at habove ⊢
    omega

@[simp] lemma push_mem : (s.push p bytes).mem =
    overlay s.mem (s.esp p - bytes.length) bytes.length fun i => bytes.getD i 0 := rfl

@[simp] lemma saveLine_mem : (s.saveLine B).mem =
    overlay s.mem (B.row s.display) s.keys.keybIndex s.keys.keyBuffer := rfl

@[simp] lemma saveLine_index :
    (s.saveLine B).index = Function.update s.index s.display s.keys.keybIndex := rfl

lemma handleKey_esp (key : Key) : (s.handleKey B key).esp = s.esp := by
  cases key with
  | switch next =>
    simp only [handleKey, terminalSwitch]
    split_ifs <;> rfl
  | char ch => rfl
  | modifier status => rfl
  | clear => rfl
  | other => rfl

/-- What a key stores to: the row of the terminal that is left. -/
lemma handleKey_mem (key : Key) : (s.handleKey B key).mem = s.mem ∨
    ∃ next, key = .switch next ∧ s.display ≠ next ∧ (s.handleKey B key).mem =
      overlay s.mem (B.row s.display) s.keys.keybIndex s.keys.keyBuffer := by
  cases key with
  | switch next =>
    simp only [handleKey, terminalSwitch]
    by_cases hnext : s.display = next
    · rw [if_pos hnext]
      exact Or.inl rfl
    · rw [if_neg hnext]
      exact Or.inr ⟨next, rfl, hnext, rfl⟩
  | char ch => exact Or.inl rfl
  | modifier status => exact Or.inl rfl
  | clear => exact Or.inl rfl
  | other => exact Or.inl rfl

lemma Ok.step (h : s.Ok B) (hstep : lineStep B s a = some s') (hkeep : KeepsRows B s a) :
    s'.Ok B := by
  cases a with
  | push p bytes =>
    simp only [lineStep] at hstep
    split_ifs at hstep with hlen
    cases hstep
    refine ⟨fun q => ?_, ?_⟩
    · have hq := h.esp q
      by_cases hqp : q = p
      · subst hqp
        simp only [LineState.push, Function.update_self]
        omega
      · simpa [LineState.push, Function.update_of_ne hqp] using hq
    · by_cases hp : (0 : Slot) = p
      · subst hp
        simpa [LineState.push] using hkeep rfl
      · simpa [LineState.push, Function.update_of_ne hp] using h.rows
  | store p x b =>
    simp only [lineStep] at hstep
    split_ifs at hstep
    cases hstep
    exact ⟨h.esp, h.rows⟩
  | pop p n =>
    simp only [lineStep] at hstep
    split_ifs at hstep with htop
    cases hstep
    refine ⟨fun q => ?_, ?_⟩
    · by_cases hqp : q = p
      · subst hqp
        simpa using htop
      · simpa [Function.update_of_ne hqp] using h.esp q
    · by_cases hp : (0 : Slot) = p
      · subst hp
        have hrows := h.rows
        simp only [Function.update_self]
        omega
      · simpa [Function.update_of_ne hp] using h.rows
  | data x b =>
    simp only [lineStep] at hstep
    split_ifs at hstep
    cases hstep
    exact ⟨h.esp, h.rows⟩
  | key key =>
    cases hstep
    refine ⟨fun p => ?_, ?_⟩
    · rw [handleKey_esp]
      exact h.esp p
    · rw [handleKey_esp]
      exact h.rows
  | read =>
    cases hstep
    exact ⟨h.esp, h.rows⟩

/-- A stack operation stores to no row. -/
lemma Ok.push_row (h : s.Ok B) (hlen : bytes.length ≤ s.esp p)
    (hkeep : KeepsRows B s (.push p bytes)) (hj : j < keybBuffLen) :
    (s.push p bytes).mem (B.row t + j) = s.mem (B.row t + j) := by
  obtain ⟨hlo, hhi⟩ := B.row_bounds (t := t) hj
  rw [push_mem]
  refine overlay_of_not_mem ?_
  by_cases hp : p = 0
  · subst hp
    exact Or.inl (hhi.trans_le (hkeep rfl))
  · have hlow := B.lt_rows hp
    have htop := h.esp p
    omega

/-- A live byte of a stack does not lie in a row. -/
lemma Ok.live_ne (h : s.Ok B) (hx : s.Live p x) : x < B.rows ∨ B.rows + 3 * keybBuffLen ≤ x := by
  by_cases hp : p = 0
  · subst hp
    exact Or.inr (h.rows.trans hx.1)
  · exact Or.inl (hx.2.trans (B.lt_rows hp))

lemma Ok.rowsKept (h : s.Ok B) (hstep : lineStep B s a = some s') (hkeep : KeepsRows B s a) :
    RowsKept B s s' a := by
  intro t j hj hne
  have hrow := B.row_bounds (t := t) hj
  cases a with
  | push p bytes =>
    simp only [lineStep] at hstep
    split_ifs at hstep with hlen
    cases hstep
    exact absurd (h.push_row hlen hkeep hj) hne
  | store p x b =>
    simp only [lineStep] at hstep
    split_ifs at hstep with hlive
    cases hstep
    have hx := h.live_ne hlive
    have hrx : B.row t + j ≠ x := by omega
    exact absurd (Function.update_of_ne hrx _ _) hne
  | pop p n =>
    simp only [lineStep] at hstep
    split_ifs at hstep
    cases hstep
    exact absurd rfl hne
  | data x b =>
    simp only [lineStep] at hstep
    split_ifs at hstep with hdata
    cases hstep
    have hrx : B.row t + j ≠ x := by
      rintro rfl
      exact hdata ⟨0, B.row_inStack hj⟩
    exact absurd (Function.update_of_ne hrx _ _) hne
  | key key =>
    cases hstep
    rcases handleKey_mem (B := B) (s := s) key with heq | ⟨next, rfl, hnext, heq⟩
    · rw [heq] at hne
      exact absurd rfl hne
    · by_cases ht : t = s.display
      · exact ⟨next, rfl, ht.symm, fun h => hnext (ht.symm.trans h.symm)⟩
      · rw [heq, overlay_of_not_mem (B.row_disjoint ht hj (hkeep hnext))] at hne
        exact absurd rfl hne
  | read =>
    cases hstep
    exact absurd rfl hne

lemma Ok.stacksKept (h : s.Ok B) (hstep : lineStep B s a = some s') (hkeep : KeepsRows B s a) :
    StacksKept s s' a := by
  rintro next rfl p x hx
  cases hstep
  rcases handleKey_mem (B := B) (s := s) (.switch next) with heq | ⟨next', hkey, hnext, heq⟩
  · rw [heq]
  · cases hkey
    have hindex : s.keys.keybIndex ≤ keybBuffLen := hkeep hnext
    have hdisplay := s.display.isLt
    have hne := h.live_ne hx
    rw [heq]
    refine overlay_of_not_mem ?_
    simp only [BootFrame.row, keybBuffLen] at hindex hne ⊢
    omega

/-- A push that reaches the rows changes one, unless it happens to store what was there. -/
lemma Ok.push_reaches (h : s.Ok B) (hn : n ≤ s.esp 0)
    (hreach : s.esp 0 - n < B.rows + 3 * keybBuffLen) :
    ∃ bytes s', bytes.length = n ∧ lineStep B s (.push 0 bytes) = some s' ∧
      ¬ RowsKept B s s' (.push 0 bytes) := by
  have hrows := h.rows
  -- the last byte of the last row
  have hlast : B.row 2 + 127 = B.rows + 3 * keybBuffLen - 1 := by
    simp only [BootFrame.row, keybBuffLen, Fin.val_two]
    omega
  refine ⟨List.replicate n (s.mem (B.row 2 + 127) + 1#8), _, List.length_replicate,
    if_pos (by rwa [List.length_replicate]), fun hkept => ?_⟩
  obtain ⟨next, hkey, -⟩ := hkept 2 127 (by decide) (by
    have hoffset : B.row 2 + 127 - (s.esp 0 - n) < n := by omega
    have hbetween : s.esp 0 - n ≤ B.row 2 + 127 ∧ B.row 2 + 127 < s.esp 0 - n + n := by omega
    simp only [push_mem, overlay, List.length_replicate, if_pos hbetween]
    rw [List.getD_eq_getElem _ _ (by rwa [List.length_replicate]), List.getElem_replicate]
    simp)
  cases hkey

end LineState

end

/-- Along every run from boot in which process 0 keeps its stack above the rows and no more than a
row is saved, the rows change only where the line of their terminal is saved, and no save touches a
live stack. A push of process 0 that goes further can change them. -/
theorem saved_lines (B : BootFrame) {s₀ s : LineState} {as : List LineAction} (hs₀ : s₀.Booted)
    (hrun : Run (Guarded (Graph (lineStep B)) (KeepsRows B)) s₀ as s) :
    (∀ a s', lineStep B s a = some s' → KeepsRows B s a →
      RowsKept B s s' a ∧ StacksKept s s' a) ∧
    ∀ p n, n ≤ s.esp p →
      ((∀ bytes s', bytes.length = n → lineStep B s (.push p bytes) = some s' →
        RowsKept B s s' (.push p bytes)) ↔ (p = 0 → B.rows + 3 * keybBuffLen ≤ s.esp 0 - n)) := by
  have hs : s.Ok B := hrun.invariant (I := LineState.Ok B)
    (fun _ _ _ h hstep => h.step hstep.1 hstep.2) hs₀.ok
  refine ⟨fun a s' hstep hkeep => ⟨hs.rowsKept hstep hkeep, hs.stacksKept hstep hkeep⟩,
    fun p n hn => ⟨fun hall hp => ?_, fun hkeep bytes s' hlen hstep => ?_⟩⟩
  · subst hp
    by_contra hreach
    obtain ⟨bytes, s', hlen, hstep, hnot⟩ := hs.push_reaches hn (Nat.lt_of_not_le hreach)
    exact hnot (hall bytes s' hlen hstep)
  · subst hlen
    exact hs.rowsKept hstep hkeep

/-- A frame of `terminal_init` that ends 128 bytes below 8MB. -/
def smallFrame : BootFrame := ⟨0x7ffe00, by decide, by decide⟩

def bootLines : LineState := ⟨fun _ => 0, stackTop, ⟨fun _ => 0, 0⟩, fun _ => 0, 0⟩

lemma bootLines_booted : bootLines.Booted := ⟨fun _ => rfl, rfl, fun _ => rfl, rfl⟩

/-- An interrupt of process 0 brings a character and a switch to the second terminal. -/
theorem saved_lines_small : ∃ s : LineState, s.display = 1 ∧ s.index 0 = 1 ∧
    (∀ a s', lineStep smallFrame s a = some s' → KeepsRows smallFrame s a →
      RowsKept smallFrame s s' a ∧ StacksKept s s' a) ∧
    ∀ p n, n ≤ s.esp p →
      ((∀ bytes s', bytes.length = n → lineStep smallFrame s (.push p bytes) = some s' →
        RowsKept smallFrame s s' (.push p bytes)) ↔
          (p = 0 → smallFrame.rows + 3 * keybBuffLen ≤ s.esp 0 - n)) := by
  have has : (runFrom (guardedStep (lineStep smallFrame) fun s a => KeepsRows smallFrame s a)
      bootLines [.push 0 (List.replicate 20 0), .key (.char 0x61), .pop 0 20,
        .push 0 (List.replicate 20 0), .key (.switch 1)]).any
          (fun s => s.display = 1 ∧ s.index 0 = 1) = true := by
    decide
  obtain ⟨s, hrun, hs⟩ := exists_run_of_any has
  obtain ⟨hdisplay, hindex⟩ := of_decide_eq_true hs
  have hguarded := guarded_graph (P := KeepsRows smallFrame) (fun _ _ h => of_decide_eq_true h) hrun
  exact ⟨s, hdisplay, hindex, saved_lines smallFrame bootLines_booted hguarded⟩

/-- A character has been typed on the third terminal when a call of process 0 takes 400 bytes of
stack: it stores over the third row, and the line that is saved next over the stack. -/
theorem saved_lines_overlap : ∃ (as : List LineAction) (s s₁ s₂ : LineState),
    bootLines.Booted ∧ Run (Graph (lineStep smallFrame)) bootLines as s ∧
      lineStep smallFrame s (.push 0 (List.replicate 400 1)) = some s₁ ∧
      ¬ RowsKept smallFrame s s₁ (.push 0 (List.replicate 400 1)) ∧
      lineStep smallFrame s₁ (.key (.switch 0)) = some s₂ ∧
      ¬ StacksKept s₁ s₂ (.key (.switch 0)) := by
  have has : (runFrom (lineStep smallFrame) bootLines
      [.key (.switch 2), .key (.char 0x61)]).any (fun s =>
        (lineStep smallFrame s (.push 0 (List.replicate 400 1))).any fun s₁ =>
          (lineStep smallFrame s₁ (.key (.switch 0))).any fun s₂ =>
            s₁.mem (smallFrame.row 2 + 127) ≠ s.mem (smallFrame.row 2 + 127) ∧
              s₁.Live 0 (smallFrame.row 2) ∧
              s₂.mem (smallFrame.row 2) ≠ s₁.mem (smallFrame.row 2)) = true := by
    decide +kernel
  obtain ⟨s, hrun, hs⟩ := exists_run_of_any has
  obtain ⟨s₁, hs₁, hs⟩ := (Option.any_eq_true _ _).mp hs
  obtain ⟨s₂, hs₂, hs⟩ := (Option.any_eq_true _ _).mp hs
  obtain ⟨hrow, hlive, hstack⟩ := of_decide_eq_true hs
  refine ⟨_, s, s₁, s₂, bootLines_booted, hrun, hs₁, fun hkept => ?_, hs₂, fun hkept => ?_⟩
  · obtain ⟨next, hkey, -⟩ := hkept 2 127 (by decide) hrow
    cases hkey
  · exact hstack (hkept 0 rfl 0 _ hlive)

/-! ### The keyboard that keeps the saved lines apart -/

/-- What the keyboard and the number of the displayed terminal become. -/
def keyboardStep (kd : Keyboard × Tid) : LineAction → Keyboard × Tid
  | .key key     => (kd.1.handleKey kd.2 key, key.display kd.2)
  | .read        => (kd.1.terminalRead.2, kd.2)
  | .push _ _    => kd
  | .store _ _ _ => kd
  | .pop _ _     => kd
  | .data _ _    => kd

/-- The rows hold the lines that the keyboard has saved. -/
structure Matches (B : BootFrame) (s : LineState) (kd : Keyboard × Tid) : Prop where
  display : kd.2 = s.display
  keys    : kd.1.keys = s.keys
  index   : ∀ t, (kd.1.saved t).keybIndex = s.index t
  length  : ∀ t, s.index t ≤ keybBuffLen
  rows    : ∀ t j, j < keybBuffLen → (kd.1.saved t).keyBuffer j = s.mem (B.row t + j)

section

variable {B : BootFrame} {s s' : LineState} {kd : Keyboard × Tid} {a : LineAction} {ch : Byte}
  {next : Tid}

lemma charKey_keys (k : Keyboard) (ch : Byte) :
    (k.charKey ch).keys = k.keys.charKey ch ∧ (k.charKey ch).saved = k.saved := by
  rw [Keyboard.charKey, KeyBuffer.charKey]
  split_ifs <;> exact ⟨rfl, rfl⟩

lemma updateKeybBuf_keys (k : Keyboard) (new : KeyBuffer) :
    (k.updateKeybBuf new).keys = new.replace k.keys ∧ (k.updateKeybBuf new).saved = k.saved := by
  rw [Keyboard.updateKeybBuf, KeyBuffer.replace]
  split_ifs <;> exact ⟨rfl, rfl⟩

lemma switchBuffers_keys (k : Keyboard) (curr next : Tid) :
    (k.switchBuffers curr next).keys =
        (Function.update k.saved curr
          ((k.saved curr).load k.keys.keyBuffer k.keys.keybIndex) next).replace k.keys ∧
      (k.switchBuffers curr next).saved =
        Function.update k.saved curr ((k.saved curr).load k.keys.keyBuffer k.keys.keybIndex) :=
  updateKeybBuf_keys _ _

/-- Only the bytes before the index are copied. -/
lemma replace_congr {new new' b : KeyBuffer} (hindex : new'.keybIndex = new.keybIndex)
    (hkeys : ∀ j < new.keybIndex, new'.keyBuffer j = new.keyBuffer j) :
    new'.replace b = new.replace b := by
  rw [KeyBuffer.replace, KeyBuffer.replace, hindex]
  split_ifs with hzero
  · rfl
  · rw [KeyBuffer.load, KeyBuffer.load]
    congr 1
    funext j
    split_ifs with hj
    · exact hkeys j hj
    · rfl

namespace Matches

/-- A step that leaves the rows and the keys alone. -/
lemma congr (h : Matches B s kd) (hdisplay : s'.display = s.display) (hkeys : s'.keys = s.keys)
    (hindex : s'.index = s.index)
    (hrows : ∀ t j, j < keybBuffLen → s'.mem (B.row t + j) = s.mem (B.row t + j)) :
    Matches B s' kd where
  display := h.display.trans hdisplay.symm
  keys    := h.keys.trans hkeys.symm
  index   := fun t => by
    rw [hindex]
    exact h.index t
  length  := fun t => by
    rw [hindex]
    exact h.length t
  rows    := fun t j hj => by
    rw [hrows t j hj]
    exact h.rows t j hj

lemma switch (h : Matches B s kd) (hnext : s.display ≠ next)
    (hlen : s.keys.keybIndex ≤ keybBuffLen) :
    Matches B (s.terminalSwitch B next) (kd.1.switchBuffers kd.2 next, next) := by
  obtain ⟨k, display⟩ := kd
  obtain rfl : display = s.display := h.display
  have hkeys : k.keys = s.keys := h.keys
  obtain ⟨hnewkeys, hsaved⟩ := switchBuffers_keys k s.display next
  rw [hkeys] at hnewkeys hsaved
  have hindex : ∀ t, ((k.switchBuffers s.display next).saved t).keybIndex =
      (s.saveLine B).index t := by
    intro t
    rw [hsaved]
    by_cases ht : t = s.display
    · subst ht
      rw [LineState.saveLine_index, Function.update_self, Function.update_self]
      rfl
    · rw [LineState.saveLine_index, Function.update_of_ne ht, Function.update_of_ne ht]
      exact h.index t
  have hrows : ∀ t j, j < keybBuffLen →
      ((k.switchBuffers s.display next).saved t).keyBuffer j =
        (s.saveLine B).mem (B.row t + j) := by
    intro t j hj
    rw [hsaved]
    by_cases ht : t = s.display
    · subst ht
      rw [Function.update_self, KeyBuffer.load]
      by_cases hjn : j < s.keys.keybIndex
      · rw [LineState.saveLine_mem, overlay_of_mem hjn]
        exact if_pos hjn
      · rw [LineState.saveLine_mem, overlay_of_not_mem (by omega)]
        exact (if_neg hjn).trans (h.rows _ j hj)
    · rw [LineState.saveLine_mem, overlay_of_not_mem (B.row_disjoint ht hj hlen),
        Function.update_of_ne ht]
      exact h.rows t j hj
  have hlength : ∀ t, (s.saveLine B).index t ≤ keybBuffLen := by
    intro t
    by_cases ht : t = s.display
    · subst ht
      rw [LineState.saveLine_index, Function.update_self]
      exact hlen
    · rw [LineState.saveLine_index, Function.update_of_ne ht]
      exact h.length t
  rw [LineState.terminalSwitch, if_neg hnext]
  refine ⟨rfl, ?_, hindex, hlength, hrows⟩
  rw [hnewkeys, ← hsaved]
  refine replace_congr (hindex next) fun j hj => hrows next j ?_
  exact hj.trans_le (hlength next)

/-- One step, in lockstep. -/
lemma step (h : Matches B s kd) (hs : s.Ok B) (hstep : lineStep B s a = some s')
    (hkeep : KeepsRows B s a) : Matches B s' (keyboardStep kd a) := by
  have hrows : (∀ key, a ≠ .key key) → ∀ t j, j < keybBuffLen →
      s'.mem (B.row t + j) = s.mem (B.row t + j) := by
    intro hkey t j hj
    by_contra hne
    obtain ⟨next, rfl, -⟩ := hs.rowsKept hstep hkeep t j hj hne
    exact hkey _ rfl
  cases a with
  | push p bytes =>
    simp only [lineStep] at hstep
    split_ifs at hstep
    cases hstep
    exact h.congr rfl rfl rfl (hrows (by simp))
  | store p x b =>
    simp only [lineStep] at hstep
    split_ifs at hstep
    cases hstep
    exact h.congr rfl rfl rfl (hrows (by simp))
  | pop p n =>
    simp only [lineStep] at hstep
    split_ifs at hstep
    cases hstep
    exact h.congr rfl rfl rfl (hrows (by simp))
  | data x b =>
    simp only [lineStep] at hstep
    split_ifs at hstep
    cases hstep
    exact h.congr rfl rfl rfl (hrows (by simp))
  | key key =>
    cases hstep
    cases key with
    | switch next =>
      simp only [LineState.handleKey, keyboardStep, Keyboard.handleKey, Key.display, h.display]
      by_cases hnext : s.display = next
      · subst hnext
        rw [if_pos rfl, LineState.terminalSwitch, if_pos rfl]
        exact ⟨rfl, h.keys, h.index, h.length, h.rows⟩
      · have hswitch := h.switch hnext (hkeep hnext)
        rw [h.display] at hswitch
        rwa [if_neg hnext]
    | char ch =>
      obtain ⟨hkeys, hsaved⟩ := charKey_keys kd.1 ch
      simp only [LineState.handleKey, keyboardStep, Keyboard.handleKey, Key.display]
      refine ⟨h.display, by rw [hkeys, h.keys], fun t => ?_, h.length, fun t j hj => ?_⟩
      · rw [hsaved]
        exact h.index t
      · rw [hsaved]
        exact h.rows t j hj
    | modifier status => exact ⟨h.display, h.keys, h.index, h.length, h.rows⟩
    | clear => exact h
    | other => exact h
  | read =>
    cases hstep
    have hread : kd.1.terminalRead.2.keys = kd.1.keys.clean ∧
        kd.1.terminalRead.2.saved = kd.1.saved := by
      rw [Keyboard.terminalRead]
      split_ifs <;> exact ⟨rfl, rfl⟩
    simp only [keyboardStep]
    refine ⟨h.display, by rw [hread.1, h.keys], fun t => ?_, h.length, fun t j hj => ?_⟩
    · rw [hread.2]
      exact h.index t
    · rw [hread.2]
      exact h.rows t j hj

end Matches

/-- In the same runs, the rows hold the lines that the keyboard of the other modules keeps apart. -/
theorem saved_lines_refine {s₀ : LineState} {as : List LineAction} (hs₀ : s₀.Ok B)
    (hkd : Matches B s₀ kd) (hrun : Run (Guarded (Graph (lineStep B)) (KeepsRows B)) s₀ as s) :
    Matches B s (as.foldl keyboardStep kd) := by
  induction hrun generalizing kd with
  | refl s => exact hkd
  | cons hstep hrun ih =>
    exact ih (hs₀.step hstep.1 hstep.2) (hkd.step hs₀ hstep.1 hstep.2)

end

end Osgods
