import Osgods.Terminal.Console
import Osgods.Syscall.Basic
import Mathlib.Data.List.Range

/-!
# The keyboard buffer (`keyboard.c`, and what `terminal.c` does with it)

One live buffer holds what has been typed on the displayed terminal since its last line was read.
A terminal switch saves it for the terminal that it leaves and loads the one it goes to. `stray`
remembers an access beyond the 128 bytes of the live buffer or of a saved one.
-/

namespace Osgods

abbrev keybBuffLen : ℕ := 128

/-! ### Scancodes -/

/-- The shift, control, caps lock and alt keys: `true` is `DOWN`. -/
structure Status where
  leftShift : Bool
  leftCtrl  : Bool
  capslk    : Bool
  alt       : Bool
  deriving DecidableEq

def keyboardMap : List (List Byte) := [
  text "\x00\x001234567890-=\x08\tqwertyuiop[]\n\x00asdfghjkl;'`\x00\\zxcvbnm,./\x00\x00\x00 \x00",
  text "\x00\x00!@#$%^&*()_+\x08\tQWERTYUIOP\x7b\x7d\n\x00ASDFGHJKL:\"~\x00|ZXCVBNM<>?\x00\x00\x00 \x00",
  text "\x00\x001234567890-=\x08\tQWERTYUIOP[]\n\x00ASDFGHJKL;'`\x00\\ZXCVBNM,./\x00\x00\x00 \x00",
  text "\x00\x00!@#$%^&*()_+\x08\tqwertyuiop\x7b\x7d\n\x00asdfghjkl:\"~\x00|zxcvbnm<>?\x00\x00\x00 \x00"]

abbrev keybMapLength : ℕ := 59

/-- The row of the map: shift is 1, caps lock 2, both are 3. -/
def Status.row (s : Status) : ℕ :=
  if s.leftShift ∧ ¬ s.capslk then 1
  else if s.capslk ∧ ¬ s.leftShift then 2
  else if s.capslk ∧ s.leftShift then 3
  else 0

/-- `keyboard_map[row][keyb_input]`. -/
def displayChar (s : Status) (code : Byte) : Byte :=
  (keyboardMap.getD s.row []).getD code.toNat 0

/-- The change of `status` by a key that is only a modifier. -/
def modifier (code : Byte) (s : Status) : Option Status :=
  if code = 0x2A then some { s with leftShift := true }
  else if code = 0xAA then some { s with leftShift := false }
  else if code = 0x1D then some { s with leftCtrl := true }
  else if code = 0x9D then some { s with leftCtrl := false }
  else if code = 0x38 then some { s with alt := true }
  else if code = 0xB8 then some { s with alt := false }
  else if code = 0x3A then some { s with capslk := !s.capslk }
  else none

/-- What the handler makes of a scancode. -/
inductive Key where
  | modifier (status : Status)
  | clear
  | switch (next : Tid)
  | char (ch : Byte)
  | other
  deriving DecidableEq

/-- The tests of `keyb_intr_handler`, in their order. -/
def keyOf (s : Status) (code : Byte) : Key :=
  match modifier code s with
  | some s' => .modifier s'
  | none    =>
    if s.leftCtrl ∧ code = 38 then .clear
    else if s.alt ∧ code = 0x3B then .switch 0
    else if s.alt ∧ code = 0x3C then .switch 1
    else if s.alt ∧ code = 0x3D then .switch 2
    else if code.toNat < keybMapLength then .char (displayChar s code)
    else .other

/-! ### Buffers -/

namespace KeyBuffer

/-- The bytes before `keyb_index`. -/
def line (b : KeyBuffer) : List Byte := (List.range b.keybIndex).map b.keyBuffer

/-- A loop that copies the first `n` bytes of `src` and sets the index. -/
def load (src : ℕ → Byte) (n : ℕ) (b : KeyBuffer) : KeyBuffer :=
  ⟨fun i => if i < n then src i else b.keyBuffer i, n⟩

/-- The loop of `clean_keyb_buffer`. -/
def clean (b : KeyBuffer) : KeyBuffer :=
  ⟨fun i => if i < b.keybIndex then 0 else b.keyBuffer i, 0⟩

/-- `key_buffer[keyb_index++] = ch`. -/
def push (ch : Byte) (b : KeyBuffer) : KeyBuffer :=
  ⟨Function.update b.keyBuffer b.keybIndex ch, b.keybIndex + 1⟩

/-- `--keyb_index`. -/
def pop (b : KeyBuffer) : KeyBuffer := ⟨b.keyBuffer, b.keybIndex - 1⟩

end KeyBuffer

/-- `saved t` is `terminal_list[t].keyb_buffer` with its index, taken as a buffer of its own
(`Osgods.Terminal.SavedLines` has it where it lies in memory), and `readEnable` is
`terminal_read_enable_signal`. -/
structure Keyboard where
  status     : Status
  keys       : KeyBuffer
  saved      : Tid → KeyBuffer
  readEnable : Bool
  stray      : Bool

namespace Keyboard

def touch (ok : Bool) (k : Keyboard) : Keyboard := { k with stray := k.stray || !ok }

def cleanKeybBuffer (k : Keyboard) : Keyboard :=
  { k with keys := k.keys.clean }.touch (k.keys.keybIndex ≤ keybBuffLen)

/-- The index is set before the buffer is cleaned or copied. -/
def updateKeybBuf (new : KeyBuffer) (k : Keyboard) : Keyboard :=
  if new.keybIndex = 0 then { k with keys := ⟨k.keys.keyBuffer, 0⟩ }.cleanKeybBuffer
  else { k with keys := k.keys.load new.keyBuffer new.keybIndex }.touch
    (new.keybIndex ≤ keybBuffLen)

/-- What `terminal_switch` does with the buffers. -/
def switchBuffers (curr next : Tid) (k : Keyboard) : Keyboard :=
  let k := { k with
    saved := Function.update k.saved curr
      ((k.saved curr).load k.keys.keyBuffer k.keys.keybIndex) }.touch
        (k.keys.keybIndex ≤ keybBuffLen)
  k.updateKeybBuf (k.saved next)

def setSignalEnable (k : Keyboard) : Keyboard := { k with readEnable := true }

def storeKey (ch : Byte) (k : Keyboard) : Keyboard :=
  { k with keys := k.keys.push ch }.touch (k.keys.keybIndex < keybBuffLen)

/-- A character key in `keyb_intr_handler`. -/
def charKey (ch : Byte) (k : Keyboard) : Keyboard :=
  if ch = chBackspace then
    if k.keys.keybIndex = 0 then k else { k with keys := k.keys.pop }
  else
    let k := k.storeKey ch
    if ch = chNewline then k.setSignalEnable else k

/-- What `terminal_read` does once its wait has ended: the bytes that it returns, and the keyboard
after it. A full buffer is only cleaned. -/
def terminalRead (k : Keyboard) : List Byte × Keyboard :=
  let k := { k with readEnable := false }
  if keybBuffLen ≤ k.keys.keybIndex then ([], k.cleanKeybBuffer)
  else (k.keys.line, k.cleanKeybBuffer)

/-- Everything is zero at boot. -/
def boot : Keyboard where
  status     := ⟨false, false, false, false⟩
  keys       := ⟨fun _ => 0, 0⟩
  saved      := fun _ => ⟨fun _ => 0, 0⟩
  readEnable := false
  stray      := false

end Keyboard

/-! ### Lines -/

namespace KeyBuffer

variable (b : KeyBuffer)

@[simp] lemma length_line : b.line.length = b.keybIndex := by
  rw [line, List.length_map, List.length_range]

lemma getElem?_line {i : ℕ} (hi : i < b.keybIndex) : b.line[i]? = some (b.keyBuffer i) := by
  rw [line, List.getElem?_map, List.getElem?_range hi]
  rfl

lemma line_congr {b b' : KeyBuffer} (hindex : b'.keybIndex = b.keybIndex)
    (hkeys : ∀ i, i < b.keybIndex → b'.keyBuffer i = b.keyBuffer i) : b'.line = b.line := by
  rw [line, line, hindex]
  apply List.map_congr_left
  intro i hi
  exact hkeys i (List.mem_range.mp hi)

@[simp] lemma line_load (src : KeyBuffer) :
    (b.load src.keyBuffer src.keybIndex).line = src.line := by
  refine line_congr rfl ?_
  intro i hi
  exact if_pos hi

@[simp] lemma line_push (ch : Byte) : (b.push ch).line = b.line ++ [ch] := by
  have hkeep :
      (List.range b.keybIndex).map (Function.update b.keyBuffer b.keybIndex ch) = b.line := by
    apply List.map_congr_left
    intro i hi
    exact Function.update_of_ne (List.mem_range.mp hi).ne _ _
  have hlast : (b.push ch).line = (List.range b.keybIndex).map
      (Function.update b.keyBuffer b.keybIndex ch) ++
        [Function.update b.keyBuffer b.keybIndex ch b.keybIndex] := by
    rw [line, push, List.range_succ, List.map_append, List.map_singleton]
  rw [hlast, hkeep, Function.update_self]

@[simp] lemma line_pop : b.pop.line = b.line.dropLast := by
  rw [line, line, pop, ← List.map_dropLast]
  congr 1
  cases b.keybIndex with
  | zero => rfl
  | succ n => rw [List.range_succ, List.dropLast_concat, Nat.add_sub_cancel]

end KeyBuffer

end Osgods
