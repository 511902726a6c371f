import Osgods.Terminal.Lines

/-!
# `terminal_read` under keyboard interrupts

One call of `terminal_read`, statement by statement, with interrupts on throughout. The length is
sampled once, but the terminator, the loop of `clean_keyb_buffer` and the index that it resets are
those of the live buffer, where the keyboard goes on typing. `ReadCall.Keeps` says which keys do no
harm.
-/

namespace Osgods

open Transition

/-- The statement that comes next, with the locals of the call. -/
inductive ReadStage where
  | wait
  | clearSignal
  | check
  | sample
  | copy (n i : ℕ)
  | terminate (n : ℕ)
  | clean (n i : ℕ)
  | cleanStore (n i : ℕ)
  | reset (n : ℕ)
  | done (n : ℕ)
  deriving DecidableEq

/-- Where a call is: outside, before it takes the length, before it stores the terminator, or before
it resets the index. -/
inductive ReadPhase where
  | outside
  | entered
  | sampled
  | cleaning
  deriving DecidableEq

def ReadStage.phase : ReadStage → ReadPhase
  | .wait | .done _                           => .outside
  | .clearSignal | .check | .sample           => .entered
  | .copy _ _ | .terminate _                  => .sampled
  | .clean _ _ | .cleanStore _ _ | .reset _   => .cleaning

/-- The keyboard, the numbers of the displayed and of the scheduled terminal, the memory behind
`buf`, and the call. `line t` is what has been typed on terminal `t` and been neither erased nor
sampled; `sampled` is what there was when the call took the length. -/
structure ReadCall where
  keyboard  : Keyboard
  display   : Tid
  scheduled : Tid
  buf       : ℕ → Byte
  stage     : ReadStage
  sampled   : List Byte
  line      : Tid → List Byte

inductive ReadEvent where
  | statement
  | key (code : Byte)
  deriving DecidableEq

namespace ReadCall

/-! ### Steps -/

/-- The next statement of the call. A full buffer is only cleaned. -/
def statement (r : ReadCall) : Option ReadCall :=
  match r.stage with
  | .wait =>
    if r.keyboard.readEnable = true ∧ r.scheduled = r.display then
      some { r with stage := .clearSignal }
    else some r
  | .clearSignal =>
    some { r with keyboard := { r.keyboard with readEnable := false }, stage := .check }
  | .check =>
    if keybBuffLen ≤ r.keyboard.keys.keybIndex then some { r with stage := .clean 0 0 }
    else some { r with stage := .sample }
  | .sample =>
    some { r with
      stage   := .copy r.keyboard.keys.keybIndex 0
      sampled := r.line r.scheduled
      line    := Function.update r.line r.scheduled [] }
  | .copy n i =>
    if i < n then
      some { r with
        keyboard := r.keyboard.touch (i < keybBuffLen)
        buf      := Function.update r.buf i (r.keyboard.keys.keyBuffer i)
        stage    := .copy n (i + 1) }
    else some { r with stage := .terminate n }
  | .terminate n =>
    some { r with buf := Function.update r.buf r.keyboard.keys.keybIndex 0, stage := .clean n 0 }
  | .clean n i =>
    if i < r.keyboard.keys.keybIndex then some { r with stage := .cleanStore n i }
    else some { r with stage := .reset n }
  | .cleanStore n i =>
    let keys := { r.keyboard.keys with keyBuffer := Function.update r.keyboard.keys.keyBuffer i 0 }
    some { r with
      keyboard := { r.keyboard with keys := keys }.touch (i < keybBuffLen)
      stage    := .clean n (i + 1) }
  | .reset n =>
    some { r with
      keyboard := { r.keyboard with keys := ⟨r.keyboard.keys.keyBuffer, 0⟩ }
      stage    := .done n }
  | .done _ => none

/-- One keyboard interrupt. -/
def key (code : Byte) (r : ReadCall) : ReadCall :=
  let key := keyOf r.keyboard.status code
  { r with
    keyboard := r.keyboard.handleKey r.display key
    display  := key.display r.display
    line     := (Typing.press key ⟨r.keyboard.status, r.display, r.scheduled, r.line⟩).line }

def step (r : ReadCall) : ReadEvent → Option ReadCall
  | .statement => r.statement
  | .key code  => some (r.key code)

/-- What is pending on each terminal. -/
def pending (r : ReadCall) : Tid → List Byte := (r.keyboard.bank r.display).view

/-- The first `n` bytes of `buf`. -/
def bytes (r : ReadCall) (n : ℕ) : List Byte := KeyBuffer.line ⟨r.buf, n⟩

/-- A call that comes to its wait, with what is pending on each terminal. -/
def start (k : Keyboard) (display scheduled : Tid) (buf : ℕ → Byte) : ReadCall where
  keyboard  := k
  display   := display
  scheduled := scheduled
  buf       := buf
  stage     := .wait
  sampled   := []
  line      := (k.bank display).view

/-- What has been typed on terminal `t` since it was last read before the call. -/
def typed (r : ReadCall) (t : Tid) : List Byte :=
  if t = r.scheduled then r.sampled ++ r.line t else r.line t

/-- When the call has returned, all that has been typed on its terminal is what it returns followed
by what is pending, and what has been typed on another terminal is pending there. -/
def Delivers (r : ReadCall) : Prop :=
  ∀ n, r.stage = .done n → ∀ t, r.typed t =
    if t = r.scheduled then r.bytes n ++ r.pending t else r.pending t

/-- Between the end of the wait and the reset of the index the user switches to no other terminal;
between the sample and the reset no key is stored, and none is erased before the terminator is
stored. A key that is stored finds room. -/
def KeyKeeps (r : ReadCall) : Key → Prop
  | .switch next => r.display = next ∨ r.stage.phase = .outside
  | .char ch     =>
    match r.stage.phase with
    | .outside | .entered => r.keyboard.HasRoom (.char ch)
    | .sampled            => ch = chBackspace ∧ r.keyboard.keys.keybIndex = 0
    | .cleaning           => ch = chBackspace
  | _            => True

/-- Less than 128 bytes are pending when that is checked. -/
def Keeps (r : ReadCall) : ReadEvent → Prop
  | .statement => r.stage = .check → r.keyboard.keys.keybIndex < keybBuffLen
  | .key code  => r.KeyKeeps (keyOf r.keyboard.status code)

/-! ### The invariant -/

/-- Between the sample and the reset. -/
structure Reading (r : ReadCall) : Prop where
  display : r.display = r.scheduled
  taken   : r.line r.scheduled = []
  others  : ∀ t, t ≠ r.scheduled → r.pending t = r.line t

/-- What holds of a call at each of its statements. -/
def Inv (r : ReadCall) : Prop :=
  match r.stage with
  | .wait        => r.pending = r.line ∧ r.sampled = []
  | .clearSignal | .check | .sample =>
    r.display = r.scheduled ∧ r.pending = r.line ∧ r.sampled = []
  | .copy n i    =>
    r.Reading ∧ r.keyboard.keys.line = r.sampled ∧ n = r.sampled.length ∧ i ≤ n ∧
      r.bytes i = r.sampled.take i
  | .terminate n =>
    r.Reading ∧ r.keyboard.keys.line = r.sampled ∧ n = r.sampled.length ∧ r.bytes n = r.sampled
  | .clean n _ | .cleanStore n _ | .reset n => r.Reading ∧ r.bytes n = r.sampled
  | .done n      => r.pending = r.line ∧ r.bytes n = r.sampled

section

variable {r r' : ReadCall} {code : Byte} {n i : ℕ}

lemma pending_display (r : ReadCall) : r.pending r.display = r.keyboard.keys.line :=
  (r.keyboard.bank r.display).view_active

/-- What is pending elsewhere does not depend on the live buffer. -/
lemma pending_of_ne {t : Tid} (ht : t ≠ r.display) : r.pending t = (r.keyboard.saved t).line :=
  (r.keyboard.bank r.display).view_of_ne ht

lemma Reading.congr (h : r.Reading) (hdisplay : r'.display = r.display)
    (hscheduled : r'.scheduled = r.scheduled) (hline : r'.line = r.line)
    (hsaved : r'.keyboard.saved = r.keyboard.saved) : r'.Reading where
  display := by
    rw [hdisplay, hscheduled]
    exact h.display
  taken   := by
    rw [hline, hscheduled]
    exact h.taken
  others  := fun t ht => by
    rw [hscheduled] at ht
    have hne : t ≠ r.display := by
      rwa [h.display]
    have hne' : t ≠ r'.display := by
      rwa [hdisplay]
    rw [pending_of_ne hne', hsaved, hline, ← pending_of_ne hne]
    exact h.others t ht

lemma Reading.pending_eq (h : r.Reading) (hlive : r.keyboard.keys.line = []) :
    r.pending = r.line := by
  funext t
  by_cases ht : t = r.scheduled
  · subst ht
    rw [h.taken, ← h.display, pending_display, hlive]
  · exact h.others t ht

/-! ### A statement -/

lemma bytes_update (r : ReadCall) (i : ℕ) (ch : Byte) :
    KeyBuffer.line ⟨Function.update r.buf i ch, i + 1⟩ = r.bytes i ++ [ch] :=
  KeyBuffer.line_push ⟨r.buf, i⟩ ch

lemma Inv.statement (h : r.Inv) (hkeeps : r.Keeps .statement) (hstep : r.statement = some r') :
    r'.Inv := by
  unfold ReadCall.statement at hstep
  cases hstage : r.stage with
  | wait =>
    simp only [Inv, hstage] at h
    simp only [hstage] at hstep
    split_ifs at hstep with hready
    · cases hstep
      exact ⟨hready.2.symm, h⟩
    · cases hstep
      simp only [Inv, hstage]
      exact h
  | clearSignal =>
    simp only [Inv, hstage] at h
    simp only [hstage] at hstep
    cases hstep
    exact h
  | check =>
    simp only [Inv, hstage] at h
    simp only [hstage] at hstep
    have hshort := hkeeps hstage
    rw [if_neg (Nat.not_le.mpr hshort)] at hstep
    cases hstep
    exact h
  | sample =>
    simp only [Inv, hstage] at h
    obtain ⟨hdisplay, hpending, -⟩ := h
    simp only [hstage] at hstep
    cases hstep
    have hline : r.keyboard.keys.line = r.line r.scheduled := by
      rw [← hpending, ← hdisplay, pending_display]
    refine ⟨⟨hdisplay, Function.update_self _ _ _, fun t ht => ?_⟩, hline, ?_, Nat.zero_le _, rfl⟩
    · have hsame : r.pending t = Function.update r.line r.scheduled [] t := by
        rw [hpending]
        exact (Function.update_of_ne ht _ _).symm
      exact hsame
    · rw [← hline, KeyBuffer.length_line]
  | copy n i =>
    simp only [Inv, hstage] at h
    obtain ⟨hreading, hline, hn, hi, hbytes⟩ := h
    simp only [hstage] at hstep
    split_ifs at hstep with hlt
    · cases hstep
      have hindex : i < r.keyboard.keys.keybIndex := by
        rwa [← KeyBuffer.length_line, hline, ← hn]
      refine ⟨hreading.congr rfl rfl rfl rfl, hline, hn, hlt, ?_⟩
      have hnext : r.sampled[i]? = some (r.keyboard.keys.keyBuffer i) := by
        rw [← hline, KeyBuffer.getElem?_line _ hindex]
      show KeyBuffer.line ⟨_, i + 1⟩ = _
      rw [bytes_update, hbytes, List.take_add_one, hnext, Option.toList_some]
    · cases hstep
      have hall : i = n := Nat.le_antisymm hi (Nat.not_lt.mp hlt)
      refine ⟨hreading.congr rfl rfl rfl rfl, hline, hn, ?_⟩
      rw [hall, hn, List.take_length] at hbytes
      rw [hn]
      exact hbytes
  | terminate n =>
    simp only [Inv, hstage] at h
    obtain ⟨hreading, hline, hn, hbytes⟩ := h
    simp only [hstage] at hstep
    cases hstep
    have hindex : r.keyboard.keys.keybIndex = n := by
      rw [← KeyBuffer.length_line, hline, hn]
    refine ⟨hreading.congr rfl rfl rfl rfl, ?_⟩
    rw [← hbytes]
    refine KeyBuffer.line_congr rfl fun i hi => ?_
    have hne : i ≠ r.keyboard.keys.keybIndex := by
      rw [hindex]
      exact Nat.ne_of_lt hi
    exact Function.update_of_ne hne _ _
  | clean n i =>
    simp only [Inv, hstage] at h
    simp only [hstage] at hstep
    split_ifs at hstep
    · cases hstep
      exact ⟨h.1.congr rfl rfl rfl rfl, h.2⟩
    · cases hstep
      exact ⟨h.1.congr rfl rfl rfl rfl, h.2⟩
  | cleanStore n i =>
    simp only [Inv, hstage] at h
    simp only [hstage] at hstep
    cases hstep
    exact ⟨h.1.congr rfl rfl rfl rfl, h.2⟩
  | reset n =>
    simp only [Inv, hstage] at h
    obtain ⟨hreading, hbytes⟩ := h
    simp only [hstage] at hstep
    cases hstep
    exact ⟨Reading.pending_eq (hreading.congr rfl rfl rfl rfl) rfl, hbytes⟩
  | done n =>
    simp only [hstage] at hstep
    cases hstep

/-! ### A key -/

lemma key_stage (r : ReadCall) (code : Byte) : (r.key code).stage = r.stage := rfl

/-- Outside the call's window a key does to what is pending what it does to the lines. -/
lemma key_pending (h : r.pending = r.line) (code : Byte) :
    (r.key code).pending = (r.key code).line :=
  (Typing.press_line (keyOf r.keyboard.status code) (k := r.keyboard)
    (g := ⟨r.keyboard.status, r.display, r.scheduled, r.line⟩) rfl h.symm).symm

/-- A key that switches to no other terminal and stores no character. -/
structure Quiet (r : ReadCall) (key : Key) : Prop where
  switch : ∀ next, key = .switch next → r.display = next
  char   : ∀ ch, key = .char ch → ch = chBackspace

lemma Quiet.display {key : Key} (h : r.Quiet key) : key.display r.display = r.display := by
  cases key with
  | switch next => exact (h.switch next rfl).symm
  | modifier status => rfl
  | clear => rfl
  | char ch => rfl
  | other => rfl

lemma Quiet.saved {key : Key} (h : r.Quiet key) :
    (r.keyboard.handleKey r.display key).saved = r.keyboard.saved := by
  cases key with
  | switch next => exact congrArg Keyboard.saved (if_pos (h.switch next rfl))
  | modifier status => rfl
  | clear => rfl
  | char ch =>
    obtain rfl := h.char ch rfl
    show (if _ then _ else _ : Keyboard).saved = _
    split_ifs <;> rfl
  | other => rfl

/-- Nothing that has been typed is left for it to erase. -/
lemma Quiet.line {key : Key} (h : r.Quiet key) (hempty : r.line r.display = []) :
    (Typing.press key ⟨r.keyboard.status, r.display, r.scheduled, r.line⟩).line = r.line := by
  cases key with
  | switch next => rfl
  | modifier status => rfl
  | clear => rfl
  | char ch =>
    obtain rfl := h.char ch rfl
    show Function.update r.line r.display (edit chBackspace (r.line r.display)) = r.line
    rw [hempty, ← Function.update_eq_self r.display r.line, hempty]
    exact Function.update_idem _ _ _
  | other => rfl

lemma Quiet.keys {key : Key} (h : r.Quiet key)
    (hempty : ∀ ch, key = .char ch → r.keyboard.keys.keybIndex = 0) :
    (r.keyboard.handleKey r.display key).keys = r.keyboard.keys := by
  cases key with
  | switch next => exact congrArg Keyboard.keys (if_pos (h.switch next rfl))
  | modifier status => rfl
  | clear => rfl
  | char ch =>
    obtain rfl := h.char ch rfl
    show (if _ then (if _ then _ else _) else _ : Keyboard).keys = _
    rw [if_pos rfl, if_pos (hempty _ rfl)]
  | other => rfl

lemma Reading.key (h : r.Reading) (hquiet : r.Quiet (keyOf r.keyboard.status code)) :
    (r.key code).Reading := by
  have hempty : r.line r.display = [] := by
    rw [h.display]
    exact h.taken
  exact h.congr hquiet.display rfl (hquiet.line hempty) hquiet.saved

lemma KeyKeeps.quiet {key : Key} (h : r.KeyKeeps key)
    (hphase : r.stage.phase = .sampled ∨ r.stage.phase = .cleaning) : r.Quiet key := by
  constructor
  · rintro next rfl
    refine h.resolve_right fun houtside => ?_
    rw [houtside] at hphase
    rcases hphase with hphase | hphase
    · cases hphase
    · cases hphase
  · rintro ch rfl
    unfold KeyKeeps at h
    rcases hphase with hphase | hphase
    · rw [hphase] at h
      exact h.1
    · rw [hphase] at h
      exact h

/-- Before the terminator is stored a key leaves the live buffer alone. -/
lemma KeyKeeps.keys {key : Key} (h : r.KeyKeeps key) (hphase : r.stage.phase = .sampled) :
    (r.keyboard.handleKey r.display key).keys = r.keyboard.keys := by
  refine (h.quiet (Or.inl hphase)).keys ?_
  rintro ch rfl
  unfold KeyKeeps at h
  rw [hphase] at h
  exact h.2

/-- While a call is in, a key does not change the displayed terminal. -/
lemma KeyKeeps.display {key : Key} (h : r.KeyKeeps key) (hphase : r.stage.phase ≠ .outside) :
    key.display r.display = r.display := by
  cases key with
  | switch next => exact (h.resolve_right hphase).symm
  | modifier status => rfl
  | clear => rfl
  | char ch => rfl
  | other => rfl

lemma Inv.key (h : r.Inv) (hkeeps : r.Keeps (.key code)) : (r.key code).Inv := by
  have hkey : r.KeyKeeps (keyOf r.keyboard.status code) := hkeeps
  unfold Inv
  rw [key_stage]
  cases hstage : r.stage with
  | wait =>
    simp only [Inv, hstage] at h
    exact ⟨key_pending h.1 code, h.2⟩
  | clearSignal =>
    simp only [Inv, hstage] at h
    have hdisplay := hkey.display (by rw [hstage]; decide)
    exact ⟨hdisplay.trans h.1, key_pending h.2.1 code, h.2.2⟩
  | check =>
    simp only [Inv, hstage] at h
    have hdisplay := hkey.display (by rw [hstage]; decide)
    exact ⟨hdisplay.trans h.1, key_pending h.2.1 code, h.2.2⟩
  | sample =>
    simp only [Inv, hstage] at h
    have hdisplay := hkey.display (by rw [hstage]; decide)
    exact ⟨hdisplay.trans h.1, key_pending h.2.1 code, h.2.2⟩
  | copy n i =>
    simp only [Inv, hstage] at h
    obtain ⟨hreading, hline, hrest⟩ := h
    have hphase : r.stage.phase = .sampled := by
      rw [hstage]
      rfl
    exact ⟨hreading.key (hkey.quiet (Or.inl hphase)),
      (congrArg KeyBuffer.line (hkey.keys hphase)).trans hline, hrest⟩
  | terminate n =>
    simp only [Inv, hstage] at h
    obtain ⟨hreading, hline, hrest⟩ := h
    have hphase : r.stage.phase = .sampled := by
      rw [hstage]
      rfl
    exact ⟨hreading.key (hkey.quiet (Or.inl hphase)),
      (congrArg KeyBuffer.line (hkey.keys hphase)).trans hline, hrest⟩
  | clean n i =>
    simp only [Inv, hstage] at h
    have hquiet := hkey.quiet (Or.inr (by rw [hstage]; rfl))
    exact ⟨h.1.key hquiet, h.2⟩
  | cleanStore n i =>
    simp only [Inv, hstage] at h
    have hquiet := hkey.quiet (Or.inr (by rw [hstage]; rfl))
    exact ⟨h.1.key hquiet, h.2⟩
  | reset n =>
    simp only [Inv, hstage] at h
    have hquiet := hkey.quiet (Or.inr (by rw [hstage]; rfl))
    exact ⟨h.1.key hquiet, h.2⟩
  | done n =>
    simp only [Inv, hstage] at h
    exact ⟨key_pending h.1 code, h.2⟩

/-! ### A call that nothing interrupts -/

lemma touch_self {ok : Bool} (k : Keyboard) (hok : ok = true) : k.touch ok = k := by
  rw [Keyboard.touch, hok]
  simp

/-- `g` with the cells from `i` to `n` set to those of `f`. -/
def splice (f g : ℕ → Byte) (i n : ℕ) : ℕ → Byte := fun j => if i ≤ j ∧ j < n then f j else g j

lemma splice_self (f g : ℕ → Byte) (n : ℕ) : splice f g n n = g := by
  funext j
  exact if_neg fun h => absurd h.1 (Nat.not_le.mpr h.2)

/-- The first cell may be set beforehand. -/
lemma splice_succ (f g : ℕ → Byte) (hlt : i < n) :
    splice f (Function.update g i (f i)) (i + 1) n = splice f g i n := by
  funext j
  unfold splice
  by_cases hj : j = i
  · subst hj
    rw [if_neg (by omega), if_pos ⟨le_refl j, hlt⟩, Function.update_self]
  · have hle : i + 1 ≤ j ↔ i ≤ j := by omega
    rw [Function.update_of_ne hj]
    simp only [hle]

/-- The loop that copies the bytes from `i` on. -/
lemma run_copy (hn : n ≤ keybBuffLen) {d : ℕ} (hd : n = i + d) (hstage : r.stage = .copy n i) :
    ∃ m, Run (Graph step) r (List.replicate m .statement)
      { r with buf := splice r.keyboard.keys.keyBuffer r.buf i n, stage := .terminate n } := by
  induction d generalizing i r with
  | zero =>
    subst hd
    refine ⟨1, .cons ?_ (.refl _)⟩
    rw [splice_self, Transition.Graph, step, statement, hstage]
    simp
  | succ d ih =>
    have hlt : i < n := by omega
    obtain ⟨m, hrun⟩ := ih (i := i + 1) (r := { r with
      buf := Function.update r.buf i (r.keyboard.keys.keyBuffer i), stage := .copy n (i + 1) })
      (by omega) rfl
    rw [splice_succ _ _ hlt] at hrun
    refine ⟨m + 1, .cons ?_ hrun⟩
    rw [Transition.Graph, step, statement, hstage]
    simp only [if_pos hlt]
    rw [touch_self _ (decide_eq_true (Nat.lt_of_lt_of_le hlt hn))]

/-- The loop of `clean_keyb_buffer` from `i` on. -/
lemma run_clean (hindex : r.keyboard.keys.keybIndex ≤ keybBuffLen) {d : ℕ}
    (hd : r.keyboard.keys.keybIndex = i + d) (hstage : r.stage = .clean n i) :
    ∃ m, Run (Graph step) r (List.replicate m .statement)
      { r with
        keyboard := { r.keyboard with
          keys := ⟨splice (fun _ => 0) r.keyboard.keys.keyBuffer i r.keyboard.keys.keybIndex,
            r.keyboard.keys.keybIndex⟩ }
        stage    := .reset n } := by
  induction d generalizing i r with
  | zero =>
    rw [Nat.add_zero] at hd
    refine ⟨1, .cons ?_ (.refl _)⟩
    rw [hd, splice_self, Transition.Graph, step, statement, hstage, ← hd]
    simp
  | succ d ih =>
    have hlt : i < r.keyboard.keys.keybIndex := by omega
    obtain ⟨m, hrun⟩ := ih (i := i + 1) (r := { r with
      keyboard := { r.keyboard with
        keys := ⟨Function.update r.keyboard.keys.keyBuffer i 0, r.keyboard.keys.keybIndex⟩ }
      stage    := .clean n (i + 1) }) hindex (by dsimp only; omega) rfl
    dsimp only at hrun
    rw [splice_succ (fun _ => 0) _ hlt] at hrun
    have hstore : step { r with stage := .cleanStore n i } .statement = some { r with
        keyboard := { r.keyboard with
          keys := ⟨Function.update r.keyboard.keys.keyBuffer i 0, r.keyboard.keys.keybIndex⟩ }
        stage    := .clean n (i + 1) } := by
      rw [step, statement]
      simp only []
      rw [touch_self _ (decide_eq_true (Nat.lt_of_lt_of_le hlt hindex))]
    refine ⟨m + 2, .cons ?_ (.cons hstore hrun)⟩
    rw [Transition.Graph, step, statement, hstage]
    exact if_pos hlt

/-- The end of a call, from `clean_keyb_buffer` on. -/
lemma run_clean_done (hindex : r.keyboard.keys.keybIndex ≤ keybBuffLen)
    (hstage : r.stage = .clean n 0) :
    ∃ m, Run (Graph step) r (List.replicate m .statement)
      { r with keyboard := r.keyboard.cleanKeybBuffer, stage := .done n } := by
  obtain ⟨m, hrun⟩ := run_clean hindex (Nat.zero_add _).symm hstage
  have hclean : r.keyboard.cleanKeybBuffer = { r.keyboard with
      keys := ⟨splice (fun _ => 0) r.keyboard.keys.keyBuffer 0 r.keyboard.keys.keybIndex, 0⟩ } := by
    have hkeys : r.keyboard.keys.clean =
        ⟨splice (fun _ => 0) r.keyboard.keys.keyBuffer 0 r.keyboard.keys.keybIndex, 0⟩ := by
      unfold KeyBuffer.clean splice
      simp
    rw [Keyboard.cleanKeybBuffer, touch_self _ (decide_eq_true hindex), hkeys]
  refine ⟨m + 1, ?_⟩
  rw [List.replicate_succ', hclean]
  exact hrun.snoc rfl

/-- The same from the sample on. -/
lemma run_copy_done (hindex : r.keyboard.keys.keybIndex ≤ keybBuffLen)
    (hstage : r.stage = .copy r.keyboard.keys.keybIndex 0) :
    ∃ m, Run (Graph step) r (List.replicate m .statement)
      { r with
        keyboard := r.keyboard.cleanKeybBuffer
        buf      := Function.update (splice r.keyboard.keys.keyBuffer r.buf 0
          r.keyboard.keys.keybIndex) r.keyboard.keys.keybIndex 0
        stage    := .done r.keyboard.keys.keybIndex } := by
  obtain ⟨m, hcopy⟩ := run_copy hindex (Nat.zero_add _).symm hstage
  obtain ⟨m', hclean⟩ := run_clean_done (n := r.keyboard.keys.keybIndex) (r := { r with
    buf   := Function.update (splice r.keyboard.keys.keyBuffer r.buf 0
      r.keyboard.keys.keybIndex) r.keyboard.keys.keybIndex 0
    stage := .clean r.keyboard.keys.keybIndex 0 }) hindex rfl
  refine ⟨m + (m' + 1), ?_⟩
  rw [← List.replicate_append_replicate, List.replicate_succ]
  refine hcopy.append (.cons ?_ hclean)
  rfl

/-- A call that finds a line and that nothing interrupts is `terminal_read` as a whole step. -/
theorem run_alone (hindex : r.keyboard.keys.keybIndex ≤ keybBuffLen) (hstage : r.stage = .wait)
    (hready : r.keyboard.readEnable = true ∧ r.scheduled = r.display) :
    ∃ m r', Run (Graph step) r (List.replicate m .statement) r' ∧
      r'.keyboard = r.keyboard.terminalRead.2 ∧
      ∃ n, r'.stage = .done n ∧ r'.bytes n = r.keyboard.terminalRead.1 := by
  have hwait : r.step .statement = some { r with stage := .clearSignal } := by
    rw [step, statement, hstage]
    exact if_pos hready
  by_cases hfull : keybBuffLen ≤ r.keyboard.keys.keybIndex
  · obtain ⟨m, hrun⟩ := run_clean_done (n := 0) (r := { r with
      keyboard := { r.keyboard with readEnable := false }, stage := .clean 0 0 }) hindex rfl
    have hread : r.keyboard.terminalRead =
        ([], { r.keyboard with readEnable := false }.cleanKeybBuffer) := if_pos hfull
    rw [hread]
    refine ⟨m + 3, _, .cons hwait (.cons rfl (.cons ?_ hrun)), rfl, 0, rfl, rfl⟩
    exact if_pos hfull
  · obtain ⟨m, hrun⟩ := run_copy_done (r := { r with
      keyboard := { r.keyboard with readEnable := false }
      stage    := .copy r.keyboard.keys.keybIndex 0
      sampled  := r.line r.scheduled
      line     := Function.update r.line r.scheduled [] }) hindex rfl
    have hread : r.keyboard.terminalRead =
        (r.keyboard.keys.line, { r.keyboard with readEnable := false }.cleanKeybBuffer) :=
      if_neg hfull
    have hcheck : step { r with
        keyboard := { r.keyboard with readEnable := false }, stage := .check } .statement =
          some { r with
            keyboard := { r.keyboard with readEnable := false }, stage := .sample } :=
      if_neg hfull
    rw [hread]
    refine ⟨m + 4, _, .cons hwait (.cons rfl (.cons hcheck (.cons ?_ hrun))), rfl, _, rfl, ?_⟩
    · rfl
    · refine KeyBuffer.line_congr rfl fun j hj => ?_
      have hne : j ≠ r.keyboard.keys.keybIndex := Nat.ne_of_lt hj
      dsimp only
      rw [Function.update_of_ne hne]
      exact if_pos ⟨Nat.zero_le j, hj⟩

end

/-! ### Delivery -/

instance (r : ReadCall) (key : Key) : Decidable (r.KeyKeeps key) :=
  match key with
  | .switch next => inferInstanceAs (Decidable (r.display = next ∨ _))
  | .char ch     => by
    unfold KeyKeeps
    dsimp only
    split <;> infer_instance
  | .modifier _  => inferInstanceAs (Decidable True)
  | .clear       => inferInstanceAs (Decidable True)
  | .other       => inferInstanceAs (Decidable True)

instance (r : ReadCall) (e : ReadEvent) : Decidable (r.Keeps e) :=
  match e with
  | .statement => inferInstanceAs (Decidable (_ → _))
  | .key code  => inferInstanceAs (Decidable (r.KeyKeeps (keyOf r.keyboard.status code)))

section

variable {k : Keyboard} {display scheduled : Tid} {buf : ℕ → Byte} {r : ReadCall}
  {es : List ReadEvent}

lemma start_inv (k : Keyboard) (display scheduled : Tid) (buf : ℕ → Byte) :
    (start k display scheduled buf).Inv :=
  ⟨rfl, rfl⟩

lemma Inv.delivers (h : r.Inv) : r.Delivers := by
  intro n hdone t
  simp only [Inv, hdone] at h
  obtain ⟨hpending, hbytes⟩ := h
  rw [typed, hpending, hbytes]

/-- As long as no step loses a key, all that is typed is returned or pending, once and in order. -/
theorem read_delivers
    (hrun : Run (Guarded (Graph step) Keeps) (start k display scheduled buf) es r) :
    r.Delivers := by
  have hinv : r.Inv := by
    refine hrun.invariant (fun r e r' hr ⟨hstep, hkeeps⟩ => ?_) (start_inv k display scheduled buf)
    cases e with
    | statement => exact hr.statement hkeeps hstep
    | key code =>
      cases hstep
      exact hr.key hkeeps
  exact hinv.delivers

end

/-- `ab` and Enter, with the `b` typed when the wait is over, and then `c`. -/
theorem read_delivers_small : ∃ r : ReadCall,
    (r.stage = .done 3 ∧ r.typed 0 = text "a\nbc") ∧ r.Delivers := by
  obtain ⟨s, r, hs, hrun, hr⟩ := exists_guarded_run_of_any (f := step) (P := Keeps)
    (o := some Keyboard.boot) (g := fun k => start k 0 0 fun _ => 0)
    (l := [.key 0x1E, .key 0x1C, .statement, .key 0x30] ++ List.replicate 16 .statement ++
      [.key 0x2E])
    (q := fun r => r.stage = .done 3 ∧ r.typed 0 = text "a\nbc") (by decide)
  cases hs
  exact ⟨r, of_decide_eq_true hr, read_delivers hrun⟩

/-- A line, and a key between two steps of the copy: the key is neither returned nor pending. -/
theorem read_delivers_late : ∃ es r, Run (Graph step) (start Keyboard.boot 0 0 fun _ => 0) es r ∧
    (r.stage = .done 2 ∧ r.typed 0 = text "a\nb" ∧ r.bytes 2 = text "a\n" ∧ r.pending 0 = []) ∧
    ¬ r.Delivers := by
  obtain ⟨r, hrun, hr⟩ := exists_run_of_any (f := step)
    (s := start Keyboard.boot 0 0 fun _ => 0)
    (l := [.key 0x1E, .key 0x1C, .statement, .statement, .statement, .statement, .statement,
      .key 0x30] ++ List.replicate 11 .statement)
    (q := fun r => r.stage = .done 2 ∧ r.typed 0 = text "a\nb" ∧ r.bytes 2 = text "a\n" ∧
      r.pending 0 = [] ∧ r.scheduled = 0) (by decide)
  obtain ⟨hdone, htyped, hbytes, hpending, hscheduled⟩ := of_decide_eq_true hr
  refine ⟨_, r, hrun, ⟨hdone, htyped, hbytes, hpending⟩, fun hdelivers => ?_⟩
  have hall := hdelivers 2 hdone 0
  rw [if_pos hscheduled.symm, htyped, hbytes, hpending] at hall
  revert hall
  decide

end ReadCall

end Osgods
