import Osgods.Library.Routine
import Osgods.Syscall.Directory
import Osgods.Syscall.GetArgs

/-!
# User programs (`syscalls/`)

A program loads and stores bytes of its page and calls the kernel; a load or a store elsewhere has
no result. The compiler's choices, where its buffers and its texts lie, are parameters of each
program. What is written to the terminal is kept.
-/

namespace Osgods

open Loop ByteCopy

/-- What goes on around a program: the image and the mapped addresses, the argument that `execute`
has kept, the number of RTC interrupts before each of its calls, and the lines that are typed. -/
structure Setting where
  env      : FileEnv
  argument : ℕ → Byte
  ticks    : ℕ → ℕ
  keys     : ℕ → KeyBuffer

/-- A program between two steps: its memory and descriptors, the number of its calls, and what it
has written to the terminal. -/
structure World where
  task  : Task
  calls : ℕ
  out   : List Byte

abbrev UserProgram (α : Type) : Type := Routine World α

/-! ### Memory -/

def load (a : Word) : UserProgram Byte := .change fun w =>
  if UserPage a then some (w.task.mem a, w) else none

def World.store (a : Word) (b : Byte) (w : World) : World :=
  { w with task := { w.task with mem := Function.update w.task.mem a b } }

def store (a : Word) (b : Byte) : UserProgram Unit := .change fun w =>
  if UserPage a then some ((), w.store a b) else none

/-! ### Calls of the kernel (`ece391syscall.S`) -/

/-- A task after `n` RTC interrupts. -/
def Task.interrupted (n : ℕ) (τ : Task) : Task := { τ with table := rtcTick^[n] τ.table }

/-- What a write leaves on the terminal. -/
def printed (τ : Task) : Call → Word → List Byte
  | .write fd buf nbytes, r =>
    match fdOf fd with
    | some i =>
      if (τ.table i).fileOpTb.writeFn = .terminalWrite ∧ r ≠ -1#32 then
        returned τ buf nbytes.toNat
      else []
    | none => []
  | _, _ => []

namespace Setting

variable (S : Setting)

/-- A call; one that waits goes on after one more interrupt. -/
def sys (c : Call) : UserProgram Word := .change fun w =>
  match (w.task.interrupted (S.ticks w.calls)).step S.env c <|>
      (w.task.interrupted (S.ticks w.calls + 1)).step S.env c with
  | some (some r, τ) => some (r, ⟨τ, w.calls + 1, w.out ++ printed τ c r⟩)
  | _                => none

/-- `getargs`, which has no constructor among the calls. -/
def ece391Getargs (buf nbytes : Word) : UserProgram Word := do
  let r ← .compute fun _ n => getargs S.argument buf nbytes n
  .change fun w => ((w.task.interrupted (S.ticks w.calls)).store? S.env r.2).map fun τ =>
    (BitVec.ofInt 32 r.1, ⟨τ, w.calls + 1, w.out⟩)

/-- The characters that a lookup compares, no more than 32, have to be mapped. -/
def ece391Open (filename : Word) : UserProgram Word := do
  let w ← get
  let fname := returned w.task filename fileNameSize
  if filename = 0#32 then S.sys (.open none)
  else if S.env.readable filename (min fileNameSize ((cString fname).length + 1)) then
    S.sys (.open (some fname))
  else .change fun _ => none

def ece391Close (fd : Word) : UserProgram Word := S.sys (.close fd)

def ece391Read (fd buf nbytes : Word) : UserProgram Word := do
  let w ← get
  S.sys (.read fd buf nbytes (S.keys w.calls))

def ece391Write (fd buf nbytes : Word) : UserProgram Word := S.sys (.write fd buf nbytes)

end Setting

/-! ### `ece391support.c` -/

def ece391Strlen (s : Word) : UserProgram Word :=
  .loop (fun (s, len) => do
    if (← load s) = 0#8 then pure (.inr len) else pure (.inl (s + 1, len + 1))) (s, 0#32)

def ece391Strcpy (dst src : Word) : UserProgram Unit :=
  .loop (fun (dst, src) => do
    let b ← load src
    store dst b
    if b = 0#8 then pure (.inr ()) else pure (.inl (dst + 1, src + 1))) (dst, src)

def Setting.ece391Fdputs (S : Setting) (fd s : Word) : UserProgram Unit := do
  let len ← ece391Strlen s
  let _ ← S.ece391Write fd s len
  pure ()

/-- The comparison of two bytes that ends both loops. -/
def byteDifference (a b : Byte) : Word := a.setWidth 32 - b.setWidth 32

def ece391Strcmp (s1 s2 : Word) : UserProgram Word :=
  .loop (fun (s1, s2) => do
    let a ← load s1
    let b ← load s2
    if a ≠ b then pure (.inr (byteDifference a b))
    else if a = 0#8 then pure (.inr 0)
    else pure (.inl (s1 + 1, s2 + 1))) (s1, s2)

def ece391Strncmp (s1 s2 n : Word) : UserProgram Word :=
  if n = 0#32 then pure 0
  else .loop (fun (s1, s2, n) => do
    let a ← load s1
    let b ← load s2
    if a ≠ b then pure (.inr (byteDifference a b))
    else if a = 0#8 ∨ n - 1 = 0#32 then pure (.inr 0)
    else pure (.inl (s1 + 1, s2 + 1, n - 1))) (s1, s2, n)

end Osgods
