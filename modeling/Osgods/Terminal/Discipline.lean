import Osgods.Terminal.Delivery

/-!
# Line discipline

A read is meant to take one line, up to its newline, and to wait for that. The signal that ends the
wait says less: some newline has been typed, somewhere, since the last read. `LineOk` is what has to
hold at a read for it to be enough.
-/

namespace Osgods

open Transition

/-- At a read one line is pending, and that is all. -/
def Desk.LineOk (B : BootFrame) (d : Desk) : DeskMove → Prop
  | .key code => d.HasRoom B (.key code)
  | .read     => IsLine (d.pending B d.scheduled) ∧ (d.pending B d.scheduled).length ≤ 127
  | _         => True

instance (B : BootFrame) (d : Desk) (a : DeskMove) : Decidable (d.LineOk B a) :=
  match a with
  | .key code    => inferInstanceAs (Decidable ((d.keyboard B).HasRoom (keyOf d.status code)))
  | .read        => inferInstanceAs (Decidable (_ ∧ _))
  | .statement   => .isTrue trivial
  | .tick _      => .isTrue trivial
  | .write _     => .isTrue trivial
  | .push _ _    => .isTrue trivial
  | .store _ _ _ => .isTrue trivial
  | .pop _ _     => .isTrue trivial

section

variable {B : BootFrame} {env : Env} {d d' : Station} {e : Desk} {a : DeskMove} {l : List Byte}

lemma IsLine.ne_nil (h : IsLine l) : l ≠ [] := by
  rintro rfl
  cases h.1

/-- Nothing is behind the newline of a line. -/
lemma IsLine.afterLine_eq (h : IsLine l) : afterLine l = [] := by
  obtain ⟨hlast, hmem⟩ := h
  obtain ⟨init, rfl⟩ := List.getLast?_eq_some_iff.mp hlast
  rw [List.dropLast_concat] at hmem
  have hdrop : (init ++ [chNewline]).dropWhile (fun ch => decide (ch ≠ chNewline)) =
      [chNewline].dropWhile fun ch => decide (ch ≠ chNewline) := by
    apply List.dropWhile_append_of_pos
    intro ch hch
    apply decide_eq_true
    rintro rfl
    exact hmem hch
  rw [afterLine, hdrop]
  rfl

namespace Desk

lemma LineOk.hasRoom (h : e.LineOk B a) : e.HasRoom B a := by
  cases a with
  | key code => exact h
  | statement => trivial
  | tick regs => trivial
  | write bytes => trivial
  | read => trivial
  | push p bytes => trivial
  | store p x b => trivial
  | pop p n => trivial

lemma LineOk.afterLine_eq (h : e.LineOk B .read) : afterLine (e.pending B e.scheduled) = [] :=
  IsLine.afterLine_eq h.1

end Desk

namespace Station

/-- Nothing is left of the line that is read. -/
lemma pending_read (hundisturbed : d.desk.Undisturbed B .read) (hready : d.desk.ReadReady) :
    (d.withMachine (d.machine B).terminalRead.2).desk.pending B d.scheduled = [] := by
  have htyping := congrArg Typing.line
    (Desk.typing_read (B := B) (fun _ => []) hundisturbed hready.2 rfl)
  rw [desk_read]
  exact (congrFun htyping d.scheduled).trans (Function.update_self ..)

/-- A read takes one line exactly when one line is all there is, and not too long. -/
lemma terminalRead_line_iff (hundisturbed : d.desk.Undisturbed B .read)
    (hready : d.desk.ReadReady) :
    (∃ line rest, d.desk.pending B d.scheduled = line ++ rest ∧ IsLine line ∧
      (d.machine B).terminalRead.1 = line ∧
        (d.withMachine (d.machine B).terminalRead.2).desk.pending B d.scheduled = rest) ↔
      d.desk.LineOk B .read := by
  have hscheduled : d.desk.display = d.scheduled := hready.2.symm
  have hfst : (d.machine B).terminalRead.1 = _ := Desk.terminalRead_fst (B := B) hundisturbed
  have hok : d.desk.LineOk B .read ↔ IsLine (d.desk.pending B d.scheduled) ∧
    (d.desk.pending B d.scheduled).length ≤ 127 := Iff.rfl
  rw [hscheduled] at hfst
  rw [hok, hfst, pending_read hundisturbed hready]
  constructor
  · rintro ⟨line, rest, heq, hline, hread, rfl⟩
    rw [List.append_nil] at heq
    rw [heq] at hread ⊢
    split_ifs at hread with hlong
    · exact absurd hread.symm hline.ne_nil
    · exact ⟨hline, by omega⟩
  · rintro ⟨hline, hlength⟩
    have hfits : ¬ 128 ≤ (d.desk.pending B d.scheduled).length := by omega
    refine ⟨d.desk.pending B d.scheduled, [], (List.append_nil _).symm, hline, ?_, rfl⟩
    rw [if_neg hfits]

end Station

end

/-- Along every run in which each key that is stored finds room, each read finds exactly one line,
process 0 keeps its stack above the rows and no read comes within a switch, a read takes the first
line that is pending on its terminal and leaves the rest, if and only if that line is all that is
pending there. -/
theorem line_discipline {B : BootFrame} {env : Env} {d₀ d d' : Station} {as : List DeskMove}
    (hboot : d₀.Boot env)
    (hrun : Run (Guarded (Graph (Station.step B env)) fun d a =>
      d.desk.LineOk B a ∧ d.desk.Undisturbed B a) d₀ as d)
    (hundisturbed : d.desk.Undisturbed B .read) (hread : d.step B env .read = some d') :
    (∃ line rest, (Typing.run afterLine (as.filterMap DeskMove.action)).line d.scheduled =
        line ++ rest ∧ IsLine line ∧ (d.machine B).terminalRead.1 = line ∧
          d'.desk.pending B d.scheduled = rest) ↔ d.desk.LineOk B .read := by
  obtain ⟨hsound, hline⟩ := hboot.pending_run (P := fun e a => e.LineOk B a ∧ e.Undisturbed B a)
    afterLine (fun e a e' hstep hP => ⟨hP.1.hasRoom, hP.2, fun ha => (ha ▸ hP.1).afterLine_eq⟩)
    hrun
  obtain ⟨hready, rfl⟩ := Station.step_read hsound hread
  rw [hline]
  exact Station.terminalRead_line_iff hundisturbed hready

/-- `a` and Enter are typed and read. -/
theorem line_discipline_small : ∃ d₀ d d', Station.Boot smallKernel d₀ ∧
    Run (Graph (Station.step smallFrame smallKernel)) d₀ (pressed 0x1E 1 ++ pressed 0x1C 1) d ∧
      d.step smallFrame smallKernel .read = some d' ∧ ∃ line rest, text "a\n" = line ++ rest ∧
        IsLine line ∧ (d.machine smallFrame).terminalRead.1 = line ∧
          d'.desk.pending smallFrame 0 = rest := by
  obtain ⟨d₀, hboot, hdesk⟩ := Station.exists_boot_small
  obtain ⟨d, d', hrun, hread, hok, hundisturbed, hscheduled⟩ :=
    hboot.exists_read_of_any (B := smallFrame)
      (P := fun e a => e.LineOk smallFrame a ∧ e.Undisturbed smallFrame a)
      (q := fun e => e.LineOk smallFrame .read ∧ e.Undisturbed smallFrame .read ∧
        e.scheduled = 0) hdesk
      (pressed 0x1E 1 ++ pressed 0x1C 1) (by decide +kernel)
  have hline := (line_discipline hboot hrun hundisturbed hread).mpr hok
  have hscheduled' : d.scheduled = 0 := hscheduled
  rw [hscheduled'] at hline
  exact ⟨d₀, d, d', hboot, hrun.of_guarded, hread, hline⟩

/-- Enter is typed on the first terminal, and wakes a read on the second, where nothing has been
typed. And a read after `a`, Enter and `b` takes all three. -/
theorem line_discipline_global : ∃ d₀, Station.Boot smallKernel d₀ ∧
    (∃ d d' as, Run (Graph (Station.step smallFrame smallKernel)) d₀ as d ∧
      d.step smallFrame smallKernel .read = some d' ∧ d.scheduled = 1 ∧
        ¬ ∃ line rest, (Typing.run afterLine (as.filterMap DeskMove.action)).line 1 = line ++ rest ∧
          IsLine line) ∧
    ∃ d d', Run (Graph (Station.step smallFrame smallKernel)) d₀
        (pressed 0x1E 1 ++ pressed 0x1C 1 ++ pressed 0x30 1) d ∧
      d.step smallFrame smallKernel .read = some d' ∧
      (d.machine smallFrame).terminalRead.1 = text "a\nb" ∧
        ¬ IsLine (d.machine smallFrame).terminalRead.1 := by
  obtain ⟨d₀, hboot, hdesk⟩ := Station.exists_boot_small
  refine ⟨d₀, hboot, ?_, ?_⟩
  · let as := pressed 0x1C 1 ++ pressed 0x38 1 ++ pressed 0x3C 4 ++ [.tick ⟨0, 0⟩]
    obtain ⟨d, d', hrun, hread, hscheduled⟩ := hboot.exists_read_of_any (B := smallFrame)
      (P := fun _ _ => True) (q := fun e => e.scheduled = 1) hdesk as (by decide +kernel)
    refine ⟨d, d', as, hrun.of_guarded, hread, hscheduled, ?_⟩
    rintro ⟨line, rest, heq, hline⟩
    have hnil : (Typing.run afterLine (as.filterMap DeskMove.action)).line 1 = [] := by
      decide +kernel
    rw [hnil] at heq
    exact hline.ne_nil (List.append_eq_nil_iff.mp heq.symm).1
  · obtain ⟨d, d', hrun, hread, hfst⟩ := hboot.exists_read_of_any (B := smallFrame)
      (P := fun _ _ => True)
      (q := fun e => (e.keyboard smallFrame).terminalRead.1 = text "a\nb") hdesk
      (pressed 0x1E 1 ++ pressed 0x1C 1 ++ pressed 0x30 1) (by decide +kernel)
    have hfst' : (d.machine smallFrame).terminalRead.1 = text "a\nb" := hfst
    refine ⟨d, d', hrun.of_guarded, hread, hfst', ?_⟩
    rw [hfst']
    decide

end Osgods
