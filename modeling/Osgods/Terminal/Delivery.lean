import Osgods.Terminal.Station

/-!
# Whose input a read returns

Each terminal has a line of its own as long as nothing is stored over the rows and no read comes
within a switch. Both can happen.
-/

namespace Osgods

open Transition

/-- No line is longer than 127 characters. -/
def Desk.Short (B : BootFrame) (d : Desk) : Prop := ∀ t, (d.pending B t).length ≤ 127

instance (B : BootFrame) (d : Desk) : Decidable (d.Short B) :=
  inferInstanceAs (Decidable (∀ _, _))

section

variable {B : BootFrame} {env : Env} {d₀ d d' : Station} {as : List DeskMove}

namespace Desk

variable {e : Desk}

/-- Outside of a switch the live buffer is the line of the displayed terminal. -/
lemma pending_display (h : e.target = none) : e.pending B e.display = e.keys.line := by
  rw [pending, bank_of_target h]
  exact Bank.view_active _

/-- A read returns all that has been typed, unless that is too much. -/
lemma terminalRead_fst (h : e.target = none) : (e.keyboard B).terminalRead.1 =
    if 128 ≤ (e.pending B e.display).length then [] else e.pending B e.display := by
  have hkeys : (e.keyboard B).keys = e.keys := rfl
  rw [pending_display h, KeyBuffer.length_line, Keyboard.terminalRead]
  dsimp only
  rw [hkeys]
  split_ifs <;> rfl

/-- A key comes only when no other is being handled, and so to the displayed line. -/
lemma Short.hasRoom {a : DeskMove} {e' : Desk} (h : e.Short B) (hstep : e.step B a = some e') :
    e.HasRoom B a := by
  cases a with
  | key code =>
    simp only [step] at hstep
    split_ifs at hstep with hhandler
    have htarget : e.target = none := by
      rw [target, hhandler]
      rfl
    have hle := h e.display
    rw [pending_display htarget, KeyBuffer.length_line] at hle
    rw [HasRoom]
    cases keyOf e.status code with
    | char ch => exact Or.inr (Nat.lt_succ_of_le hle)
    | modifier status => trivial
    | clear => trivial
    | switch next => trivial
    | other => trivial
  | statement => trivial
  | tick regs => trivial
  | write bytes => trivial
  | read => trivial
  | push p bytes => trivial
  | store p x b => trivial
  | pop p n => trivial

end Desk

namespace Station

/-- A read comes after its wait, on the displayed terminal. -/
lemma step_read (hsound : d.Sound) (hread : d.step B env .read = some d') :
    d.desk.ReadReady ∧ d' = d.withMachine (d.machine B).terminalRead.2 := by
  simp only [step] at hread
  split_ifs at hread with hready
  exact ⟨(readReady_iff hsound).mp hready.2, (Option.some.inj hread).symm⟩

section

variable {P : Desk → DeskMove → Prop}

/-- Along a run from boot whose steps meet the condition, the keys have made of each line what is
pending there. -/
lemma Boot.pending_run (h : d₀.Boot env) (leave : List Byte → List Byte)
    (hP : ∀ e a e', e.step B a = some e' → P e a → e.HasRoom B a ∧ e.Undisturbed B a ∧
      (a = .read → leave (e.pending B e.scheduled) = []))
    (hrun : Run (Guarded (Graph (step B env)) fun d a => P d.desk a) d₀ as d) :
    d.Sound ∧
      (Typing.run leave (as.filterMap DeskMove.action)).line = d.desk.pending B := by
  obtain ⟨mem, hdesk⟩ := h.exists_desk
  obtain ⟨hsound, hdeskRun⟩ := h.sound.desk_run h.hasShell hrun
  rw [hdesk] at hdeskRun
  obtain ⟨-, htyping⟩ := (Desk.boot_ok mem).run leave hP hdeskRun
  rw [Desk.boot_typing] at htyping
  exact ⟨hsound, (congrArg Typing.line htyping).symm⟩

/-- A run up to a read can be exhibited by evaluating the desk. -/
lemma Boot.exists_read_of_any [∀ e a, Decidable (P e a)] {mem : ℕ → Byte} {q : Desk → Prop}
    [DecidablePred q] (h : d₀.Boot env) (hdesk : d₀.desk = Desk.boot mem) (as : List DeskMove)
    (has : (runFrom (guardedStep (Desk.step B) fun e a => P e a) (Desk.boot mem) as).any
      (fun e => e.Idle ∧ e.ReadReady ∧ q e) = true) :
    ∃ d d', Run (Guarded (Graph (step B env)) fun d a => P d.desk a) d₀ as d ∧
      d.step B env .read = some d' ∧ q d.desk := by
  obtain ⟨e, hrun, he⟩ := exists_run_of_any has
  have hguarded := guarded_graph (P := P) (fun _ _ h => of_decide_eq_true h) hrun
  rw [← hdesk] at hguarded
  obtain ⟨d, hrun', hsound, rfl⟩ := h.sound.exists_run h.hasShell hguarded
  obtain ⟨hidle, hready, hq⟩ := of_decide_eq_true he
  exact ⟨d, _, hrun', if_pos ⟨hidle, (readReady_iff hsound).mpr hready⟩, hq⟩

end

end Station

end

/-- Along every run in which no line becomes too long, process 0 keeps its stack above the rows and
no read comes within a switch, a read returns what the keys have made of the line of its own
terminal since the last read there. -/
theorem input_delivery {B : BootFrame} {env : Env} {d₀ d d' : Station} {as : List DeskMove}
    (hboot : d₀.Boot env)
    (hrun : Run (Guarded (Graph (Station.step B env)) fun d a =>
      d.desk.Short B ∧ d.desk.Undisturbed B a) d₀ as d)
    (hshort : d.desk.Short B) (hundisturbed : d.desk.Undisturbed B .read)
    (hread : d.step B env .read = some d') :
    (d.machine B).terminalRead.1 =
      (Typing.run (fun _ => []) (as.filterMap DeskMove.action)).line d.scheduled := by
  obtain ⟨hsound, hline⟩ := hboot.pending_run (P := fun e a => e.Short B ∧ e.Undisturbed B a)
    (fun _ => []) (fun e a e' hstep hP => ⟨hP.1.hasRoom hstep, hP.2, fun _ => rfl⟩) hrun
  obtain ⟨⟨-, hsame⟩, rfl⟩ := Station.step_read hsound hread
  have hfits : ¬ 128 ≤ (d.desk.pending B d.desk.display).length := by
    have hle := hshort d.desk.display
    omega
  have hscheduled : d.scheduled = d.desk.display := hsame
  have hfst := Desk.terminalRead_fst (B := B) hundisturbed
  rw [if_neg hfits] at hfst
  rw [hline, hscheduled]
  exact hfst

/-- A key whose handler has `n` more statements, with nothing between them. -/
def pressed (code : Byte) (n : ℕ) : List DeskMove := .key code :: List.replicate n .statement

/-- `a`, backspace, `b` and Enter are typed and read. -/
theorem input_delivery_small : ∃ d₀ d, Station.Boot smallKernel d₀ ∧
    Run (Graph (Station.step smallFrame smallKernel)) d₀
      (pressed 0x1E 1 ++ pressed 0x0E 1 ++ pressed 0x30 1 ++ pressed 0x1C 1) d ∧
    (d.machine smallFrame).terminalRead.1 = text "b\n" := by
  obtain ⟨d₀, hboot, hdesk⟩ := Station.exists_boot_small
  obtain ⟨d, d', hrun, hread, hshort, hundisturbed, hscheduled⟩ :=
    hboot.exists_read_of_any (B := smallFrame)
      (P := fun e a => e.Short smallFrame ∧ e.Undisturbed smallFrame a)
      (q := fun e => e.Short smallFrame ∧ e.Undisturbed smallFrame .read ∧ e.scheduled = 0) hdesk
      (pressed 0x1E 1 ++ pressed 0x0E 1 ++ pressed 0x30 1 ++ pressed 0x1C 1) (by decide +kernel)
  have hline := input_delivery hboot hrun hshort hundisturbed hread
  have hscheduled' : d.scheduled = 0 := hscheduled
  refine ⟨d₀, d, hboot, hrun.of_guarded, ?_⟩
  rw [hline, hscheduled']
  decide +kernel

/-- Twice a read on the first terminal does not return what has been typed there. `a` and Enter are
typed on it, and process 0 takes 512 bytes of its stack while another terminal is displayed. Or they
are typed on the second terminal, and the handler that comes back to it has loaded its line, but not
yet set `curr_terminal_num`, when ticks bring a process of the first terminal that reads. -/
theorem input_delivery_disturbed : ∃ d₀, Station.Boot smallKernel d₀ ∧
    (∃ d d' as, Run (Guarded (Graph (Station.step smallFrame smallKernel)) fun d _ =>
        d.desk.Short smallFrame) d₀ as d ∧ d.desk.Short smallFrame ∧
      d.step smallFrame smallKernel .read = some d' ∧
      (Typing.run (fun _ => []) (as.filterMap DeskMove.action)).line d.scheduled = text "a\n" ∧
      (d.machine smallFrame).terminalRead.1 = [1, 1]) ∧
    ∃ d d' as, Run (Guarded (Graph (Station.step smallFrame smallKernel)) fun d _ =>
        d.desk.Short smallFrame) d₀ as d ∧ d.desk.Short smallFrame ∧
      d.step smallFrame smallKernel .read = some d' ∧
      (Typing.run (fun _ => []) (as.filterMap DeskMove.action)).line d.scheduled = [] ∧
      (d.machine smallFrame).terminalRead.1 = text "a\n" := by
  obtain ⟨d₀, hboot, hdesk⟩ := Station.exists_boot_small
  have hrun : ∀ (as : List DeskMove) (read : List Byte),
      (runFrom (guardedStep (Desk.step smallFrame) fun e _ => e.Short smallFrame)
        (Desk.boot fun _ => 0) as).any (fun e => e.Idle ∧ e.ReadReady ∧ e.Short smallFrame ∧
          e.scheduled = 0 ∧ (e.keyboard smallFrame).terminalRead.1 = read) = true →
      ∃ d d', Run (Guarded (Graph (Station.step smallFrame smallKernel)) fun d _ =>
          d.desk.Short smallFrame) d₀ as d ∧ d.desk.Short smallFrame ∧
        d.step smallFrame smallKernel .read = some d' ∧ d.scheduled = 0 ∧
        (d.machine smallFrame).terminalRead.1 = read := by
    intro as read has
    obtain ⟨d, d', hrun, hstep, hshort, hscheduled, hread⟩ :=
      hboot.exists_read_of_any (P := fun e _ => e.Short smallFrame) hdesk as has
    exact ⟨d, d', hrun, hshort, hstep, hscheduled, hread⟩
  refine ⟨d₀, hboot, ?_, ?_⟩
  · let as := pressed 0x1E 1 ++ pressed 0x1C 1 ++ pressed 0x38 1 ++ pressed 0x3C 4 ++
      [.push 0 (List.replicate 512 1), .pop 0 512] ++ pressed 0x3B 4
    obtain ⟨d, d', hrun, hshort, hstep, hscheduled, hread⟩ := hrun as [1, 1] (by decide +kernel)
    refine ⟨d, d', as, hrun, hshort, hstep, ?_, hread⟩
    rw [hscheduled]
    decide +kernel
  · let as := pressed 0x38 1 ++ pressed 0x3C 4 ++ pressed 0x1E 1 ++ pressed 0x1C 1 ++
      pressed 0x3B 4 ++ [.tick ⟨0, 0⟩] ++ pressed 0x3C 1 ++ [.tick ⟨0, 0⟩, .tick ⟨0, 0⟩]
    obtain ⟨d, d', hrun, hshort, hstep, hscheduled, hread⟩ :=
      hrun as (text "a\n") (by decide +kernel)
    refine ⟨d, d', as, hrun, hshort, hstep, ?_, hread⟩
    rw [hscheduled]
    decide +kernel

end Osgods
