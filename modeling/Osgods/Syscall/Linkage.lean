import Osgods.Library.X86
import Osgods.Types

/-!
# System-call linkage (`syscall_handler.S`)

The code between `int $0x80` and `iret`, with the handlers as parameters. The code and the table of
the handlers are not in the memory that the stack is in; `pushf` and `popf` move all the flags,
since those that they would clear are clear in the kernel.
-/

namespace Osgods

open X86 X86.Instr Loop

namespace Linkage

inductive Handler where
  | halt | execute | read | write | «open» | close | getargs | vidmap | set_handler | sigreturn
  deriving DecidableEq, Repr

inductive Label where
  | invalid_num | done
  deriving DecidableEq, Repr

def syscall_table : List Handler :=
  [.halt, .execute, .read, .write, .«open», .close, .getargs, .vidmap, .set_handler, .sigreturn]

abbrev Asm := Instr Label Handler

def code : List Asm :=
  [.pushf,
   .push .ebx,
   .push .ecx,
   .push .edx,
   .push .esp,
   .push .esi,
   .push .edi,
   .cmpImm 1#32 .eax,
   .jcc .l .invalid_num,
   .cmpImm 10#32 .eax,
   .jcc .g .invalid_num,
   .push .edx,
   .push .ecx,
   .push .ebx,
   .call syscall_table (-4#32) .eax,
   .addImm 12#32 .esp,
   .jmp .done,
   .label .invalid_num,
   .movImm (-1#32) .eax,
   .label .done,
   .pop .edi,
   .pop .esi,
   .pop .esp,
   .pop .edx,
   .pop .ecx,
   .pop .ebx,
   .popf,
   .iret]

variable (handlers : Handler → Cpu → Cpu) (address : ℕ → Word)

def program : X86.Program Label Handler := ⟨code, address, handlers⟩

def run (fuel : ℕ) (c : Cpu) : Option (X86.Machine Handler) :=
  (program handlers address).run fuel ⟨0, c, []⟩

/-! ### The frame -/

/-- What lies on the stack of a system call entered in `c`, the top first. -/
def frame (c : Cpu) : List Word :=
  [c.reg .edi, c.reg .esi, Cpu.slot (c.reg .esp) 4, c.reg .edx, c.reg .ecx, c.reg .ebx, c.eflags]

/-- The frame has been built below the stack of `c₀`, and the registers that are saved nowhere are
still those of the caller. -/
structure Saved (c₀ c : Cpu) : Prop where
  stack : Cpu.OnStack (c₀.reg .esp) (frame c₀) c
  ebp   : c.reg .ebp = c₀.reg .ebp

def save : List Asm :=
  [.pushf, .push .ebx, .push .ecx, .push .edx, .push .esp, .push .esi, .push .edi]

def restore : List Asm :=
  [.label .done, .pop .edi, .pop .esi, .pop .esp, .pop .edx, .pop .ecx, .pop .ebx, .popf]

variable {handlers address} {c c₀ : Cpu}

lemma reg_save {r : Reg} (hr : r ≠ .esp) : (execs save c).reg r = c.reg r := by
  simp [save, execs, exec, hr]

lemma saved_save : Saved c (execs save c) := by
  refine ⟨?_, reg_save (by decide)⟩
  have hflags := (Cpu.OnStack.nil (c := c)).push (v := c.eflags) (by simp)
  have hebx := hflags.push (v := c.reg .ebx) (by simp)
  have hecx := hebx.push (v := c.reg .ecx) (by simp)
  have hedx := hecx.push (v := c.reg .edx) (by simp)
  have hesp := hedx.push_esp (by simp)
  have hesi := hesp.push (v := c.reg .esi) (by simp)
  have hedi := hesi.push (v := c.reg .edi) (by simp)
  exact hedi

/-- What the caller of a system call finds at the `iret`. -/
structure Restored (c₀ : Cpu) (calls : List (X86.Call Handler)) (eax : Word)
    (t : X86.Machine Handler) : Prop where
  iret   : code[t.pc]? = some .iret
  reg    : ∀ r, r ≠ .eax → t.cpu.reg r = c₀.reg r
  eflags : t.cpu.eflags = c₀.eflags
  eax    : t.cpu.reg .eax = eax
  calls  : t.calls = calls

variable {calls : List (X86.Call Handler)}

/-- From `done` on. -/
lemma done_spec (h : Saved c₀ c) :
    (program handlers address).WP (Restored c₀ calls (c.reg .eax)) ⟨19, c, calls⟩ := by
  obtain ⟨hedi, hebp⟩ := h
  refine .block restore ⟨_, rfl⟩ rfl (.iret rfl ?_)
  have hesi := hedi.pop (r := .edi) (by decide)
  have hesp := hesi.pop (r := .esi) (by decide)
  have hedx := hesp.pop_esp rfl
  have hecx := hedx.pop (r := .edx) (by decide)
  have hebx := hecx.pop (r := .ecx) (by decide)
  have hflags := hebx.pop (r := .ebx) (by decide)
  refine ⟨rfl, fun r hr => ?_, hflags.top, rfl, rfl⟩
  cases r with
  | eax => exact absurd rfl hr
  | ebx => exact hebx.top
  | ecx => exact hecx.top
  | edx => exact hedx.top
  | esi => exact hesi.top
  | edi => exact hedi.top
  | ebp => exact hebp
  | esp => exact hflags.drop.esp.trans Cpu.slot_zero

/-- From `invalid_num` on. -/
lemma invalid_num_spec (h : Saved c₀ c) :
    (program handlers address).WP (Restored c₀ calls (-1#32)) ⟨17, c, calls⟩ := by
  refine .block [.label .invalid_num, .movImm (-1#32) .eax] ⟨_, rfl⟩ rfl ?_
  have hsaved : Saved c₀ (c.set .eax (-1#32)) := ⟨h.stack.set (by decide), h.ebp⟩
  exact done_spec hsaved

/-- The entry of the table, for the numbers that pass the test. -/
lemma entry_syscall_table {eax : Word} (hlo : 1 ≤ eax.toInt) (hhi : eax.toInt ≤ 10) :
    ∃ f, syscall_table[eax.toNat - 1]? = some f ∧
      X86.Program.entry syscall_table (-4#32 + 4#32 * eax) = some f := by
  have hnat : 1 ≤ eax.toNat ∧ eax.toNat ≤ 10 := by
    rw [BitVec.toInt_eq_toNat_cond] at hlo hhi
    split_ifs at hlo hhi <;> omega
  have hoff : (-4#32 + 4#32 * eax).toNat = 4 * (eax.toNat - 1) := by bv_omega
  have hlt : eax.toNat - 1 < syscall_table.length := by
    have : syscall_table.length = 10 := rfl
    omega
  refine ⟨syscall_table[eax.toNat - 1], List.getElem?_eq_getElem hlt, ?_⟩
  rw [X86.Program.entry, hoff, if_pos (Nat.mul_mod_right 4 _),
    Nat.mul_div_cancel_left _ (by decide)]
  exact List.getElem?_eq_getElem hlt

def pushArgs : List Asm := [.push .edx, .push .ecx, .push .ebx]

lemma onStack_pushArgs (h : Saved c₀ c) : Cpu.OnStack (c₀.reg .esp)
    (c.reg .ebx :: c.reg .ecx :: c.reg .edx :: frame c₀) (execs pushArgs c) := by
  have hedx := h.stack.push (v := c.reg .edx) (by simp [frame])
  have hecx := hedx.push (v := c.reg .ecx) (by simp [frame])
  have hebx := hecx.push (v := c.reg .ebx) (by simp [frame])
  exact hebx

/-- From the call of the handler on. -/
lemma call_spec (hcdecl : ∀ f, Cdecl 3 7 (handlers f)) {a b d : Word} {f : Handler}
    (hstack : Cpu.OnStack (c₀.reg .esp) (a :: b :: d :: frame c₀) c)
    (hebp : c.reg .ebp = c₀.reg .ebp)
    (hf : X86.Program.entry syscall_table (-4#32 + 4#32 * c.reg .eax) = some f) :
    (program handlers address).WP (fun t => Restored c₀ [⟨f, (a, b, d), t.cpu.reg .eax⟩]
      (t.cpu.reg .eax) t) ⟨14, c, []⟩ := by
  have hentry := hstack.push (v := address 15) (by simp [frame])
  refine .call rfl hf ?_
  change (program handlers address).WP _ ⟨15, handlers f (c.push (address 15)),
    [⟨f, Program.args (c.push (address 15)), (handlers f (c.push (address 15))).reg .eax⟩]⟩
  rw [hentry.args]
  generalize hc' : c.push (address 15) = c' at *
  have hebp' : (handlers f c').reg .ebp = c₀.reg .ebp := by
    rw [(hcdecl f).saved c' .ebp (by decide), ← hc', ← hebp]
    simp
  have hframe : Cdecl [a, b, d].length (frame c₀).length (handlers f) := hcdecl f
  have hdropped := hframe.onStack hentry
  refine .block [.addImm 12#32 .esp] ⟨_, rfl⟩ rfl (.jmp rfl ?_)
  have hsaved : Saved c₀ (execs ([.addImm 12#32 .esp] : List Asm) (handlers f c')) :=
    ⟨hdropped.setFlags, hebp'⟩
  refine (done_spec hsaved).mono fun t ht => ?_
  have heax : t.cpu.reg .eax = (handlers f c').reg .eax := ht.eax
  rw [heax]
  exact ht

/-- The test that lets a call number through. -/
def Valid (eax : Word) : Prop := 1 ≤ eax.toInt ∧ eax.toInt ≤ 10

instance decidableValid (eax : Word) : Decidable (Valid eax) :=
  inferInstanceAs (Decidable (1 ≤ eax.toInt ∧ eax.toInt ≤ 10))

/-- The handler that a call number stands for, with its arguments, if there is one. -/
def Served (c : Cpu) (t : X86.Machine Handler) : Prop :=
  if Valid (c.reg .eax) then
    ∃ f, syscall_table[(c.reg .eax).toNat - 1]? = some f ∧
      t.calls = [⟨f, (c.reg .ebx, c.reg .ecx, c.reg .edx), t.cpu.reg .eax⟩]
  else t.calls = [] ∧ t.cpu.reg .eax = -1#32

def cmpEax (v : Word) : List Asm := [.cmpImm v .eax]

lemma holds_l_cmpEax {v : Word} :
    Cond.l.holds (execs (cmpEax v) c).eflags = true ↔ (c.reg .eax).toInt < v.toInt := by
  rw [← BitVec.slt_iff_toInt_lt]
  exact Bool.eq_iff_iff.mp holds_l_subFlags

lemma holds_g_cmpEax {v : Word} :
    Cond.g.holds (execs (cmpEax v) c).eflags = true ↔ v.toInt < (c.reg .eax).toInt := by
  rw [← BitVec.slt_iff_toInt_lt]
  exact Bool.eq_iff_iff.mp holds_g_subFlags

lemma Saved.cmpEax {v : Word} (h : Saved c₀ c) : Saved c₀ (execs (cmpEax v) c) :=
  ⟨h.stack.setFlags, h.ebp⟩

/-- What the caller finds, and what has been done for it. -/
structure Linked (c : Cpu) (t : X86.Machine Handler) : Prop where
  iret   : code[t.pc]? = some .iret
  reg    : ∀ r, r ≠ .eax → t.cpu.reg r = c.reg r
  eflags : t.cpu.eflags = c.eflags
  served : Served c t

lemma invalid_linked {c' : Cpu} (hsaved : Saved c c') (hvalid : ¬ Valid (c.reg .eax)) :
    (program handlers address).WP (Linked c) ⟨17, c', []⟩ := by
  refine (invalid_num_spec hsaved).mono fun t ht => ⟨ht.iret, ht.reg, ht.eflags, ?_⟩
  rw [Served, if_neg hvalid]
  exact ⟨ht.calls, ht.eax⟩

lemma valid_linked (hcdecl : ∀ f, Cdecl 3 7 (handlers f)) {c' : Cpu} (hsaved : Saved c c')
    (hreg : ∀ r, r ≠ .esp → c'.reg r = c.reg r) (hvalid : Valid (c.reg .eax)) :
    (program handlers address).WP (Linked c) ⟨11, c', []⟩ := by
  obtain ⟨f, hf, hentry⟩ := entry_syscall_table hvalid.1 hvalid.2
  have hstack := onStack_pushArgs hsaved
  rw [hreg .ebx (by decide), hreg .ecx (by decide), hreg .edx (by decide)] at hstack
  have hebp : (execs pushArgs c').reg .ebp = c.reg .ebp := hreg .ebp (by decide)
  have heax : (execs pushArgs c').reg .eax = c.reg .eax := hreg .eax (by decide)
  rw [← heax] at hentry
  refine .block pushArgs ⟨_, rfl⟩ rfl ?_
  refine (call_spec hcdecl hstack hebp hentry).mono fun t ht =>
    ⟨ht.iret, ht.reg, ht.eflags, ?_⟩
  rw [Served, if_pos hvalid]
  exact ⟨f, hf, ht.calls⟩

/-- The two tests, and what they lead to. -/
theorem linkage_spec (hcdecl : ∀ f, Cdecl 3 7 (handlers f)) :
    (program handlers address).WP (Linked c) ⟨0, c, []⟩ := by
  refine .block save ⟨_, rfl⟩ rfl ?_
  have hsaved : Saved c (execs save c) := saved_save
  have hreg : ∀ r, r ≠ .esp → (execs save c).reg r = c.reg r := fun r => reg_save
  generalize execs save c = c₁ at *
  refine .block (cmpEax 1#32) ⟨_, rfl⟩ rfl (.jcc rfl (fun hl => ?_) fun hl => ?_)
  · rw [holds_l_cmpEax, hreg .eax (by decide)] at hl
    exact invalid_linked hsaved.cmpEax fun hvalid => absurd hvalid.1 (not_le.mpr hl)
  have hlo : ¬ (c.reg .eax).toInt < 1 := by
    rw [← hreg .eax (by decide)]
    exact fun h => ne_true_of_eq_false hl (holds_l_cmpEax.mpr h)
  have hsaved₂ : Saved c (execs (cmpEax 1#32) c₁) := hsaved.cmpEax
  have hreg₂ : ∀ r, r ≠ .esp → (execs (cmpEax 1#32) c₁).reg r = c.reg r := hreg
  clear hl hsaved hreg
  generalize execs (cmpEax 1#32) c₁ = c₂ at *
  refine .block (cmpEax 10#32) ⟨_, rfl⟩ rfl (.jcc rfl (fun hg => ?_) fun hg => ?_)
  · rw [holds_g_cmpEax, hreg₂ .eax (by decide)] at hg
    exact invalid_linked hsaved₂.cmpEax fun hvalid => absurd hvalid.2 (not_le.mpr hg)
  have hhi : ¬ 10 < (c.reg .eax).toInt := by
    rw [← hreg₂ .eax (by decide)]
    exact fun h => ne_true_of_eq_false hg (holds_g_cmpEax.mpr h)
  exact valid_linked hcdecl hsaved₂.cmpEax hreg₂ ⟨not_lt.mp hlo, not_lt.mp hhi⟩

end Linkage

/-! ### The linkage -/

/-- Every entry state and every handlers that keep to cdecl, with their three argument slots their
own: at the `iret` all is as it was but `eax`, and a handler has been called, the entry `eax - 1` of
the table with `(ebx, ecx, edx)`, if and only if `eax` is from 1 to 10 as a signed number. -/
theorem syscall_linkage_returns (handlers : Linkage.Handler → Cpu → Cpu) (address : ℕ → Word)
    (hcdecl : ∀ f, Cdecl 3 7 (handlers f)) (c : Cpu) :
    ∃ t, Ends (fun fuel => Linkage.run handlers address fuel c) t ∧
      Linkage.code[t.pc]? = some .iret ∧
      (∀ r ∈ [Reg.esp, .ebx, .ecx, .edx, .esi, .edi, .ebp], t.cpu.reg r = c.reg r) ∧
      t.cpu.eflags = c.eflags ∧
      if 1 ≤ (c.reg .eax).toInt ∧ (c.reg .eax).toInt ≤ 10 then
        ∃ f, Linkage.syscall_table[(c.reg .eax).toNat - 1]? = some f ∧
          t.calls = [⟨f, (c.reg .ebx, c.reg .ecx, c.reg .edx), t.cpu.reg .eax⟩]
      else t.calls = [] ∧ t.cpu.reg .eax = -1#32 := by
  have hwp : (Linkage.program handlers address).WP (Linkage.Linked c) ⟨0, c, []⟩ :=
    Linkage.linkage_spec hcdecl
  obtain ⟨t, ht, hlinked⟩ := hwp.ends
  refine ⟨t, ht, hlinked.iret, fun r hr => hlinked.reg r ?_, hlinked.eflags, hlinked.served⟩
  rintro rfl
  revert hr
  decide

/-- A handler that clears all that it may, and writes over its arguments. -/
def clobber (_ : Linkage.Handler) (c : Cpu) : Cpu where
  reg    := fun r => if r = .eax then 7#32 else if r = .ecx ∨ r = .edx then 0#32
    else if r = .esp then c.reg .esp + 4#32 else c.reg r
  ds     := c.ds
  es     := c.es
  eflags := 0#32
  mem    := store (c.reg .esp + 4#32) 0#32 (store (c.reg .esp + 8#32) 0#32
    (store (c.reg .esp + 12#32) 0#32 c.mem))

lemma cdecl_clobber (f : Linkage.Handler) : Cdecl 3 7 (clobber f) where
  saved := by
    intro c r hr
    simp only [List.mem_cons, List.not_mem_nil, or_false] at hr
    rcases hr with rfl | rfl | rfl | rfl <;> rfl
  esp _ := rfl
  frame := by
    intro c j hj
    simp only [clobber]
    rw [load_store_of_le (by bv_omega) (by bv_omega), load_store_of_le (by bv_omega) (by bv_omega),
      load_store_of_le (by bv_omega) (by bv_omega)]

theorem syscall_linkage_returns_write : ∃ t,
    Ends (fun fuel => Linkage.run clobber (fun _ => 0#32) fuel
      ⟨fun r => if r = .eax then 4#32 else 1#32, 0#16, 0#16, 0x246#32, fun _ => 0#8⟩) t ∧
      Linkage.code[t.pc]? = some .iret ∧
      (∀ r ∈ [Reg.esp, .ebx, .ecx, .edx, .esi, .edi, .ebp], t.cpu.reg r = 1#32) ∧
      t.cpu.eflags = 0x246#32 ∧
      t.calls = [⟨.write, (1#32, 1#32, 1#32), t.cpu.reg .eax⟩] := by
  obtain ⟨t, ht, hiret, hreg, hflags, hserved⟩ := syscall_linkage_returns clobber (fun _ => 0#32)
    cdecl_clobber ⟨fun r => if r = .eax then 4#32 else 1#32, 0#16, 0#16, 0x246#32, fun _ => 0#8⟩
  refine ⟨t, ht, hiret, fun r hr => ?_, hflags, ?_⟩
  · rw [hreg r hr]
    refine if_neg ?_
    rintro rfl
    revert hr
    decide
  · rw [if_pos (by decide)] at hserved
    obtain ⟨f, hf, hcalls⟩ := hserved
    obtain rfl : Linkage.Handler.write = f := Option.some.inj hf
    exact hcalls

end Osgods
