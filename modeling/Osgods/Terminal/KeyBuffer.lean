import Osgods.Terminal.Sound
import Mathlib.Data.List.GetD

/-!
# What a step does to the key buffers

The console is not asked: what becomes of the keyboard depends on the key and on the terminal that
is displayed, and on nothing else. From this, the bounds of the buffers along a whole run.
-/

namespace Osgods

open Transition

/-- What a key does to the keyboard while `display` is displayed. -/
def Keyboard.handleKey (display : Tid) (key : Key) (k : Keyboard) : Keyboard :=
  match key with
  | .modifier status => { k with status := status }
  | .switch next     => if display = next then k else k.switchBuffers display next
  | .char ch         => k.charKey ch
  | .clear           => k
  | .other           => k

/-- The terminal that is displayed after a key. -/
def Key.display (display : Tid) : Key → Tid
  | .switch next => next
  | _            => display

/-- A key that is stored finds room. -/
def Keyboard.HasRoom (k : Keyboard) : Key → Prop
  | .char ch => ch = chBackspace ∨ k.keys.keybIndex < keybBuffLen
  | _        => True

instance (k : Keyboard) (key : Key) : Decidable (k.HasRoom key) :=
  match key with
  | .char _     => inferInstanceAs (Decidable (_ ∨ _))
  | .modifier _ => .isTrue trivial
  | .clear      => .isTrue trivial
  | .switch _   => .isTrue trivial
  | .other      => .isTrue trivial

/-- One keyboard interrupt, seen from the keyboard and the number of the displayed terminal. -/
def Keyboard.press (s : Keyboard × Tid) (code : Byte) : Keyboard × Tid :=
  (s.1.handleKey s.2 (keyOf s.1.status code), (keyOf s.1.status code).display s.2)

section

variable {env : Env} {m m' : Machine} {regs : Regs}

/-! ### Steps -/

namespace Kernel

lemma keybEnd_currTerminalNum (k : Kernel) : k.keybEnd.currTerminalNum = k.currTerminalNum := by
  unfold keybEnd
  dsimp only
  split_ifs <;> rfl

lemma memorySwitch_currTerminalNum (k : Kernel) :
    k.memorySwitch.currTerminalNum = k.currTerminalNum := by
  obtain ⟨x, y, v, p, heq, -⟩ := memorySwitch_eq k
  rw [heq]

lemma terminalSwitch_currTerminalNum (k : Kernel) (next : Tid) :
    (k.terminalSwitch next).currTerminalNum = next := by
  unfold terminalSwitch
  split_ifs with hdisplay
  · exact hdisplay
  · exact memorySwitch_currTerminalNum _

end Kernel

namespace Console

lemma putc_currTerminalNum (c : Console) (ch : Byte) :
    (c.putc ch).kernel.currTerminalNum = c.kernel.currTerminalNum := by
  rcases c.putc_kernel ch with heq | ⟨x, y, heq⟩
  · rw [heq]
  · rw [heq]
    rfl

lemma putAll_currTerminalNum (c : Console) (l : List Byte) :
    (c.putAll l).kernel.currTerminalNum = c.kernel.currTerminalNum := by
  induction l generalizing c with
  | nil => rfl
  | cons ch l ih => rw [putAll_cons, ih, putc_currTerminalNum]

end Console

namespace Machine

lemma handleKey_keyboard (m : Machine) (key : Key) : (m.handleKey key).keyboard =
    m.keyboard.handleKey m.console.kernel.currTerminalNum key := by
  cases key with
  | modifier status => rfl
  | clear => rfl
  | switch next =>
    obtain ⟨hself, heq⟩ | ⟨hself, heq⟩ := m.handleKey_switch next
    · rw [heq]
      exact (if_pos hself).symm
    · rw [heq]
      exact (if_neg hself).symm
  | char ch =>
    obtain ⟨⟨hch, hindex⟩, heq⟩ | ⟨-, heq⟩ := m.handleKey_char ch
    · rw [heq]
      show m.keyboard = m.keyboard.charKey ch
      rw [Keyboard.charKey, if_pos hch, if_pos hindex]
    · rw [heq]
      rfl
  | other => rfl

lemma handleKey_currTerminalNum (m : Machine) (key : Key) :
    (m.handleKey key).console.kernel.currTerminalNum =
      key.display m.console.kernel.currTerminalNum := by
  cases key with
  | modifier status => rfl
  | clear => rfl
  | switch next =>
    obtain ⟨hself, heq⟩ | ⟨-, heq⟩ := m.handleKey_switch next
    · rw [heq]
      exact hself
    · rw [heq]
      exact Kernel.terminalSwitch_currTerminalNum _ next
  | char ch =>
    obtain ⟨-, heq⟩ | ⟨-, heq⟩ := m.handleKey_char ch
    · rw [heq]
      rfl
    · rw [heq]
      exact Console.putc_currTerminalNum _ ch
  | other => rfl

lemma keybIntrHandler_keyboard (m : Machine) (code : Byte) : (m.keybIntrHandler code).keyboard =
    m.keyboard.handleKey m.console.kernel.currTerminalNum (keyOf m.keyboard.status code) :=
  handleKey_keyboard (m.onKernel Kernel.cli) _

lemma keybIntrHandler_currTerminalNum (m : Machine) (code : Byte) :
    (m.keybIntrHandler code).console.kernel.currTerminalNum =
      (keyOf m.keyboard.status code).display m.console.kernel.currTerminalNum :=
  (Kernel.keybEnd_currTerminalNum _).trans (handleKey_currTerminalNum (m.onKernel Kernel.cli) _)

/-- One key after the other. -/
lemma exists_keys (env : Env) (m : Machine) (codes : List Byte) :
    ∃ m', Run (Graph (step env)) m (codes.map .key) m' ∧
      (m'.keyboard, m'.console.kernel.currTerminalNum) =
        codes.foldl Keyboard.press (m.keyboard, m.console.kernel.currTerminalNum) := by
  induction codes generalizing m with
  | nil => exact ⟨m, .refl m, rfl⟩
  | cons code codes ih =>
    obtain ⟨m', hrun, heq⟩ := ih (m.keybIntrHandler code)
    refine ⟨m', .cons rfl hrun, heq.trans ?_⟩
    rw [keybIntrHandler_keyboard, keybIntrHandler_currTerminalNum]
    rfl

lemma tick_keyboard (h : m.tick env regs = some m') : m'.keyboard = m.keyboard := by
  obtain ⟨s, -, rfl⟩ := Option.map_eq_some_iff.mp h
  rfl

end Machine

end

/-! ### The bounds -/

/-- A character that some key of the map stands for. -/
def KeyChar (ch : Byte) : Prop := ch ≠ 0 ∧ ∃ row ∈ keyboardMap, ch ∈ row

/-- The key is not stored, or it is one that stands for a character and there is room for it. -/
def Keyboard.KeyOk (k : Keyboard) : Key → Prop
  | .char ch => ch = chBackspace ∨ ch ≠ 0 ∧ k.keys.keybIndex < keybBuffLen
  | _        => True

instance (k : Keyboard) (key : Key) : Decidable (k.KeyOk key) :=
  match key with
  | .char _     => inferInstanceAs (Decidable (_ ∨ _))
  | .modifier _ => inferInstanceAs (Decidable True)
  | .clear      => inferInstanceAs (Decidable True)
  | .switch _   => inferInstanceAs (Decidable True)
  | .other      => inferInstanceAs (Decidable True)

def Machine.KeyOk (m : Machine) : Machine.Action → Prop
  | .key code => m.keyboard.KeyOk (keyOf m.keyboard.status code)
  | _         => True

instance (m : Machine) (a : Machine.Action) : Decidable (m.KeyOk a) :=
  match a with
  | .key _   => inferInstanceAs (Decidable (Keyboard.KeyOk _ _))
  | .tick _  => inferInstanceAs (Decidable True)
  | .write _ => inferInstanceAs (Decidable True)
  | .read    => inferInstanceAs (Decidable True)

/-- A buffer of 128 bytes that holds characters up to its index. -/
structure KeyBuffer.Good (b : KeyBuffer) : Prop where
  index : b.keybIndex ≤ keybBuffLen
  chars : ∀ ch ∈ b.line, KeyChar ch

structure Keyboard.Safe (k : Keyboard) : Prop where
  keys   : k.keys.Good
  saved  : ∀ t, (k.saved t).Good
  inside : k.stray = false

section

variable {k : Keyboard} {b : KeyBuffer} {ch : Byte} {display : Tid}

lemma Keyboard.touch_stray {ok : Bool} (h : k.stray = false) (hok : ok = true) :
    (k.touch ok).stray = false := by
  show (k.stray || !ok) = false
  rw [h, hok]
  rfl

namespace KeyBuffer.Good

lemma clean (b : KeyBuffer) : b.clean.Good := by
  constructor
  · exact Nat.zero_le _
  · intro ch hch
    cases hch

lemma load (h : b.Good) (old : KeyBuffer) : (old.load b.keyBuffer b.keybIndex).Good := by
  constructor
  · exact h.index
  · rw [line_load]
    exact h.chars

lemma push (h : b.Good) (hch : KeyChar ch) (hlt : b.keybIndex < keybBuffLen) :
    (b.push ch).Good := by
  constructor
  · exact hlt
  · intro ch' hch'
    rw [line_push, List.mem_append, List.mem_singleton] at hch'
    rcases hch' with hmem | rfl
    · exact h.chars ch' hmem
    · exact hch

lemma pop (h : b.Good) : b.pop.Good := by
  constructor
  · exact (Nat.sub_le _ _).trans h.index
  · intro ch' hch'
    rw [line_pop] at hch'
    exact h.chars ch' (List.mem_of_mem_dropLast hch')

end KeyBuffer.Good

namespace Keyboard.Safe

lemma cleanKeybBuffer (h : k.Safe) : k.cleanKeybBuffer.Safe where
  keys   := .clean _
  saved  := h.saved
  inside := touch_stray h.inside (decide_eq_true h.keys.index)

lemma updateKeybBuf (h : k.Safe) (hb : b.Good) : (k.updateKeybBuf b).Safe := by
  unfold Keyboard.updateKeybBuf
  split_ifs
  · exact ⟨.clean _, h.saved, touch_stray h.inside rfl⟩
  · exact ⟨hb.load _, h.saved, touch_stray h.inside (decide_eq_true hb.index)⟩

lemma switchBuffers (h : k.Safe) (curr next : Tid) : (k.switchBuffers curr next).Safe := by
  have hcopy : ({ k with
      saved := Function.update k.saved curr
        ((k.saved curr).load k.keys.keyBuffer k.keys.keybIndex) }.touch
          (k.keys.keybIndex ≤ keybBuffLen)).Safe := by
    refine ⟨h.keys, fun t => ?_, touch_stray h.inside (decide_eq_true h.keys.index)⟩
    show (Function.update k.saved curr _ t).Good
    rw [Function.update_apply]
    split_ifs
    · exact h.keys.load _
    · exact h.saved t
  exact hcopy.updateKeybBuf (hcopy.saved next)

lemma charKey (h : k.Safe) (hmap : ∃ row ∈ keyboardMap, ch ∈ row) (hok : k.KeyOk (.char ch)) :
    (k.charKey ch).Safe := by
  unfold Keyboard.charKey
  by_cases hback : ch = chBackspace
  · rw [if_pos hback]
    split_ifs
    · exact h
    · exact ⟨h.keys.pop, h.saved, h.inside⟩
  · obtain ⟨hzero, hlt⟩ := hok.resolve_left hback
    have hstore : (k.storeKey ch).Safe :=
      ⟨h.keys.push ⟨hzero, hmap⟩ hlt, h.saved, touch_stray h.inside (decide_eq_true hlt)⟩
    rw [if_neg hback]
    dsimp only
    split_ifs
    · exact ⟨hstore.keys, hstore.saved, hstore.inside⟩
    · exact hstore

lemma terminalRead (h : k.Safe) : k.terminalRead.2.Safe := by
  have hread : { k with readEnable := false }.Safe := ⟨h.keys, h.saved, h.inside⟩
  unfold Keyboard.terminalRead
  dsimp only
  split_ifs
  · exact hread.cleanKeybBuffer
  · exact hread.cleanKeybBuffer

end Keyboard.Safe

/-- Any other key is one too many, or leaves a NUL. -/
lemma Keyboard.keyOk_of_safe (h : (k.charKey ch).Safe) : k.KeyOk (.char ch) := by
  by_cases hback : ch = chBackspace
  · exact Or.inl hback
  · have hkeys : (k.charKey ch).keys = k.keys.push ch := by
      rw [charKey, if_neg hback]
      dsimp only
      split_ifs <;> rfl
    have hlast := h.keys.chars ch (by rw [hkeys, KeyBuffer.line_push]; simp)
    have hindex := h.keys.index
    rw [hkeys] at hindex
    exact Or.inr ⟨hlast.1, hindex⟩

/-- A key that is looked up in the map stands for an entry of it. -/
lemma displayChar_mem (s : Status) {code : Byte} (hlt : code.toNat < keybMapLength) :
    ∃ row ∈ keyboardMap, displayChar s code ∈ row := by
  have hrow : s.row < keyboardMap.length := by
    unfold Status.row
    split_ifs <;> decide
  have hlength : ∀ row ∈ keyboardMap, row.length = keybMapLength := by
    decide +kernel
  refine ⟨keyboardMap[s.row], List.getElem_mem hrow, ?_⟩
  have hcode : code.toNat < (keyboardMap[s.row]).length := by
    rwa [hlength _ (List.getElem_mem hrow)]
  rw [displayChar, List.getD_eq_getElem _ _ hrow, List.getD_eq_getElem _ _ hcode]
  exact List.getElem_mem hcode

lemma keyOf_char {s : Status} {code : Byte} (h : keyOf s code = .char ch) :
    code.toNat < keybMapLength ∧ ch = displayChar s code := by
  unfold keyOf at h
  split at h
  · cases h
  · split_ifs at h with hclear hfirst hsecond hthird hlt
    cases h
    exact ⟨hlt, rfl⟩

lemma Keyboard.Safe.handleKey {code : Byte} (h : k.Safe) (hok : k.KeyOk (keyOf k.status code)) :
    (k.handleKey display (keyOf k.status code)).Safe := by
  cases hkey : keyOf k.status code with
  | modifier status => exact ⟨h.keys, h.saved, h.inside⟩
  | clear => exact h
  | switch next =>
    unfold Keyboard.handleKey
    dsimp only
    split_ifs
    · exact h
    · exact h.switchBuffers _ _
  | char ch =>
    obtain ⟨hlt, rfl⟩ := keyOf_char hkey
    rw [hkey] at hok
    exact h.charKey (displayChar_mem _ hlt) hok
  | other => exact h

end

namespace Machine

variable {env : Env} {m₀ m m' : Machine} {as : List Action}

/-- A key keeps the buffers safe exactly if it meets the condition. -/
lemma safe_key_iff (h : m.keyboard.Safe) (code : Byte) :
    (m.keybIntrHandler code).keyboard.Safe ↔ m.KeyOk (.key code) := by
  rw [keybIntrHandler_keyboard, KeyOk]
  constructor
  · intro hsafe
    cases hkey : keyOf m.keyboard.status code with
    | char ch =>
      rw [hkey] at hsafe
      exact Keyboard.keyOk_of_safe hsafe
    | modifier status => trivial
    | clear => trivial
    | switch next => trivial
    | other => trivial
  · exact h.handleKey

lemma safe_step {a : Action} (h : m.keyboard.Safe) (hok : m.KeyOk a)
    (hstep : m.step env a = some m') : m'.keyboard.Safe := by
  cases a with
  | key code =>
    cases hstep
    exact (safe_key_iff h code).mpr hok
  | tick regs =>
    rw [tick_keyboard hstep]
    exact h
  | write bytes =>
    cases hstep
    exact h
  | read =>
    unfold step at hstep
    split_ifs at hstep
    cases hstep
    exact h.terminalRead

lemma Boot.keyboard (h : Boot env m) : m.keyboard = Keyboard.boot := by
  obtain ⟨d, argument, -, -, rfl⟩ := h.exists_console
  rfl

lemma Boot.currTerminalNum (h : Boot env m) : m.console.kernel.currTerminalNum = 0 := by
  obtain ⟨d, argument, hkernel, -, rfl⟩ := h.exists_console
  dsimp only
  rw [Console.putAll_currTerminalNum, hkernel]
  rfl

lemma boot_safe : Keyboard.boot.Safe := by
  have hempty : KeyBuffer.Good ⟨fun _ => 0, 0⟩ := by
    constructor
    · exact Nat.zero_le _
    · intro ch hch
      cases hch
  exact ⟨hempty, fun _ => hempty, rfl⟩

end Machine

/-- Along every run in which each key that is stored stands for a character and finds room, every
access stays in its buffer, and the live buffer holds characters only; and that is what the next key
has to do as well. -/
theorem key_buffer_safety {env : Env} {m₀ m : Machine} {as : List Machine.Action}
    (hboot : Machine.Boot env m₀)
    (hrun : Run (Guarded (Graph (Machine.step env)) Machine.KeyOk) m₀ as m) :
    m.keyboard.keys.keybIndex ≤ 128 ∧ (∀ t, (m.keyboard.saved t).keybIndex ≤ 128) ∧
      m.keyboard.stray = false ∧ (∀ ch ∈ m.keyboard.keys.line, KeyChar ch) ∧
      ∀ code, (m.keybIntrHandler code).keyboard.Safe ↔ m.KeyOk (.key code) := by
  have hsafe : m.keyboard.Safe := by
    refine hrun.invariant (I := fun m => m.keyboard.Safe) ?_ ?_
    · intro m a m' hm hstep
      exact Machine.safe_step hm hstep.2 hstep.1
    · rw [hboot.keyboard]
      exact Machine.boot_safe
  exact ⟨hsafe.keys.index, fun t => (hsafe.saved t).index, hsafe.inside, hsafe.keys.chars,
    Machine.safe_key_iff hsafe⟩

/-- One `a` is typed. -/
theorem key_buffer_safety_small : ∃ m₀ m, Machine.Boot smallKernel m₀ ∧
    Run (Graph (Machine.step smallKernel)) m₀ [.key 0x1E] m ∧ m.keyboard.stray = false := by
  obtain ⟨m₀, hboot⟩ := Machine.exists_boot_small
  have hok : m₀.KeyOk (.key 0x1E) := by
    rw [Machine.KeyOk, hboot.keyboard]
    decide
  have hrun : Run (Guarded (Graph (Machine.step smallKernel)) Machine.KeyOk) m₀ [.key 0x1E]
      (m₀.keybIntrHandler 0x1E) := .cons ⟨rfl, hok⟩ (.refl _)
  have hsafety := key_buffer_safety hboot hrun
  exact ⟨m₀, _, hboot, hrun.of_guarded, hsafety.2.2.1⟩

/-- Esc stores a NUL; and of 129 keys that nobody reads the last is stored behind the buffer. -/
theorem key_buffer_safety_full : ∃ m₀, Machine.Boot smallKernel m₀ ∧
    (∃ m, Run (Graph (Machine.step smallKernel)) m₀ [.key 0x01] m ∧
      0 ∈ m.keyboard.keys.line ∧ ¬ KeyChar 0) ∧
    ∃ m, Run (Graph (Machine.step smallKernel)) m₀ (List.replicate 129 (.key 0x1E)) m ∧
      m.keyboard.keys.keybIndex = 129 ∧ m.keyboard.stray = true := by
  obtain ⟨m₀, hboot⟩ := Machine.exists_boot_small
  have hkeys := Machine.exists_keys smallKernel m₀
  rw [hboot.keyboard, hboot.currTerminalNum] at hkeys
  refine ⟨m₀, hboot, ?_, ?_⟩
  · have hesc :
        (([0x01] : List Byte).foldl Keyboard.press (Keyboard.boot, 0)).1.keys.line = [0] := by
      decide
    obtain ⟨m, hrun, heq⟩ := hkeys [0x01]
    have hkeyboard : m.keyboard = _ := congrArg Prod.fst heq
    have hline : m.keyboard.keys.line = [0] := by
      rw [hkeyboard]
      exact hesc
    exact ⟨m, hrun, by simp [hline], fun h => h.1 rfl⟩
  · have hfull : ((List.replicate 129 (0x1E : Byte)).foldl Keyboard.press
        (Keyboard.boot, 0)).1.keys.keybIndex = 129 ∧
        ((List.replicate 129 (0x1E : Byte)).foldl Keyboard.press
          (Keyboard.boot, 0)).1.stray = true := by
      decide +kernel
    obtain ⟨m, hrun, heq⟩ := hkeys (List.replicate 129 0x1E)
    rw [List.map_replicate] at hrun
    have hkeyboard : m.keyboard = _ := congrArg Prod.fst heq
    refine ⟨m, hrun, ?_⟩
    rw [hkeyboard]
    exact hfull

end Osgods
