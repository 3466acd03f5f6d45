import Arcade8080.Memory

/-!
What the processor asks of memory, as a program: reads whose answer decides
what follows, stores, and records. Nothing else of the machine is in it, so a
statement about every instruction can be made about every program instead.
Running one stops at the first access that fails; stores made before it stay.

The processor does not run such programs, its routines work in place. `Cpu.Transact`
proves which program each of them comes to.
-/

namespace Arcade8080

inductive Bus (α : Type) where
  | done (value : α)
  | read (addr : Word) (next : Byte → Bus α)
  | write (addr : Word) (value : Byte) (next : Bus α)
  | note (record : Record) (next : Bus α)

namespace Bus

variable {α β γ : Type}

protected def bind (program : Bus α) (continuation : α → Bus β) : Bus β :=
  match program with
  | .done value => continuation value
  | .read addr next => .read addr fun byte => (next byte).bind continuation
  | .write addr value next => .write addr value (next.bind continuation)
  | .note record next => .note record (next.bind continuation)

instance : Monad Bus where
  pure := .done
  bind := Bus.bind

/-- Reads one byte. -/
def load (addr : Word) : Bus Byte := .read addr .done

/-- Stores one byte through the window. -/
def store (addr : Word) (value : Byte) : Bus Unit := .write addr value (.done ())

def emit (record : Record) : Bus Unit := .note record (.done ())

def run (program : Bus α) (memory : Memory) : Attempt Memory α :=
  match program with
  | .done value => .succeed value memory
  | .read addr next =>
    match memory.read addr.toNat with
    | .ok byte => (next byte).run memory
    | .error fault => .fail fault memory
  | .write addr value next =>
    (memory.write addr.toNat value).andThen fun _ memory => next.run memory
  | .note record next => (next.run memory).after [record]

theorem bind_done (program : Bus α) : program.bind .done = program := by
  induction program with
  | done value => rfl
  | read addr next ih => simp [Bus.bind, ih]
  | write addr value next ih => simp [Bus.bind, ih]
  | note record next ih => simp [Bus.bind, ih]

theorem bind_assoc (program : Bus α) (f : α → Bus β) (g : β → Bus γ) :
    (program.bind f).bind g = program.bind fun value => (f value).bind g := by
  induction program with
  | done value => rfl
  | read addr next ih => simp [Bus.bind, ih]
  | write addr value next ih => simp [Bus.bind, ih]
  | note record next ih => simp [Bus.bind, ih]

instance : LawfulMonad Bus := LawfulMonad.mk' Bus bind_done (fun _ _ => rfl) bind_assoc

/-- A program runs on from the memory that its first part left, unless that
part failed. -/
theorem run_bind (program : Bus α) (f : α → Bus β) (memory : Memory) :
    (program >>= f).run memory =
      (program.run memory).andThen fun value memory => (f value).run memory := by
  change (program.bind f).run memory = _
  induction program generalizing memory with
  | done value => rfl
  | read addr next ih =>
    simp only [Bus.bind, run]
    cases memory.read addr.toNat with
    | ok byte => exact ih byte memory
    | error fault => rfl
  | write addr value next ih => simp only [Bus.bind, run, ih, Attempt.andThen_andThen]
  | note record next ih => simp only [Bus.bind, run, ih, Attempt.andThen_after]

end Bus

end Arcade8080
