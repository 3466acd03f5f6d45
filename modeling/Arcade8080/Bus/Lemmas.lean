import Arcade8080.Bus
import Arcade8080.Memory.Lemmas

/-!
What can be said of a program before it runs: that it stores nothing, or that
every value it can end with satisfies some property. Both are read off the
program and hold for every memory it is then run on.
-/

namespace Arcade8080.Bus

variable {α β : Type}

@[simp] theorem run_pure (value : α) (memory : Memory) :
    (pure value : Bus α).run memory = .succeed value memory := rfl

@[simp] theorem result_run_load (addr : Word) (memory : Memory) :
    ((load addr).run memory).result = memory.read addr.toNat := by
  simp only [load, run]
  cases memory.read addr.toNat <;> rfl

@[simp] theorem run_store (addr : Word) (value : Byte) (memory : Memory) :
    (store addr value).run memory = memory.write addr.toNat value := by
  simp only [store, run]
  rcases memory.write addr.toNat value with ⟨_ | _, state, records⟩ <;>
    simp [Attempt.andThen, Attempt.after, Attempt.succeed]

/-- A value can be rearranged after the run as well as at its end. -/
theorem run_bind_pure (program : Bus α) (f : α → β) (memory : Memory) :
    (program >>= fun value => pure (f value)).run memory =
      ⟨(program.run memory).result.map f, (program.run memory).state,
        (program.run memory).records⟩ := by
  rw [run_bind]
  obtain ⟨result, state, records⟩ := program.run memory
  cases result with
  | error fault => rfl
  | ok value => simp [Attempt.andThen, Attempt.succeed, Attempt.after, Except.map]

theorem run_emit_bind (record : Record) (program : Bus α) (memory : Memory) :
    (emit record >>= fun _ => program).run memory = (program.run memory).after [record] := rfl

theorem run_load_bind_of_byte {memory : Memory} {addr : Word} {byte : Byte}
    (h : memory.byte? addr.toNat = some byte) (next : Byte → Bus α) :
    (load addr >>= next).run memory = (next byte).run memory := by
  rw [← Memory.read_eq_ok_iff] at h
  change (Bus.read addr next).run memory = _
  simp only [run, h]

theorem run_load_bind_of_le {memory : Memory} {addr : Word} (h : memory.size ≤ addr.toNat)
    (next : Byte → Bus α) :
    (load addr >>= next).run memory = .fail (memory.faultAt addr.toNat) memory := by
  have hread := Memory.read_eq_error_iff.mpr ⟨h, rfl⟩
  change (Bus.read addr next).run memory = _
  simp only [run, hread]

/-- No store stands anywhere in the program. -/
def ReadOnly : Bus α → Prop
  | .done _ => True
  | .read _ next => ∀ byte, (next byte).ReadOnly
  | .write .. => False
  | .note _ next => next.ReadOnly

theorem readOnly_pure (value : α) : (pure value : Bus α).ReadOnly := trivial

theorem readOnly_load (addr : Word) : (load addr).ReadOnly := fun _ => trivial

theorem ReadOnly.bind {program : Bus α} {f : α → Bus β} (first : program.ReadOnly)
    (rest : ∀ value, (f value).ReadOnly) : (program >>= f).ReadOnly := by
  change (program.bind f).ReadOnly
  induction program with
  | done value => exact rest value
  | read addr next ih =>
    intro byte
    exact ih byte (first byte)
  | write addr value next ih => exact first.elim
  | note record next ih => exact ih first

theorem ReadOnly.bind_pure {program : Bus α} (h : program.ReadOnly) (f : α → β) :
    (program >>= fun value => pure (f value)).ReadOnly :=
  h.bind fun value => readOnly_pure (f value)

/-- A program without stores leaves memory alone, also where it fails. -/
theorem ReadOnly.state_run {program : Bus α} (h : program.ReadOnly) (memory : Memory) :
    (program.run memory).state = memory := by
  induction program with
  | done value => rfl
  | read addr next ih =>
    simp only [run]
    cases memory.read addr.toNat with
    | ok byte => exact ih byte (h byte)
    | error fault => rfl
  | write addr value next ih => exact h.elim
  | note record next ih => exact ih h

/-- Every value that the program can end with has the property. -/
def Ensures (property : α → Prop) : Bus α → Prop
  | .done value => property value
  | .read _ next => ∀ byte, (next byte).Ensures property
  | .write _ _ next => next.Ensures property
  | .note _ next => next.Ensures property

section Ensures

variable {property : α → Prop}

@[simp] theorem ensures_pure (value : α) :
    (pure value : Bus α).Ensures property ↔ property value := Iff.rfl

@[simp] theorem ensures_load {property : Byte → Prop} (addr : Word) :
    (load addr).Ensures property ↔ ∀ byte, property byte := Iff.rfl

@[simp] theorem ensures_store {property : Unit → Prop} (addr : Word) (value : Byte) :
    (store addr value).Ensures property ↔ property () := Iff.rfl

@[simp] theorem ensures_emit {property : Unit → Prop} (record : Record) :
    (emit record).Ensures property ↔ property () := Iff.rfl

/-- What holds at the end has to hold of the rest, for every value that the
first part can give it. -/
@[simp] theorem ensures_bind (program : Bus β) (f : β → Bus α) :
    (program >>= f).Ensures property ↔
      program.Ensures fun value => (f value).Ensures property := by
  change (program.bind f).Ensures property ↔ _
  induction program with
  | done value => exact Iff.rfl
  | read addr next ih => exact forall_congr' ih
  | write addr value next ih => exact ih
  | note record next ih => exact ih

@[simp] theorem ensures_map {property : β → Prop} (f : α → β) (program : Bus α) :
    (f <$> program).Ensures property ↔ program.Ensures fun value => property (f value) := by
  rw [map_eq_pure_bind]
  exact ensures_bind program _

theorem ensures_of_forall (h : ∀ value, property value) (program : Bus α) :
    program.Ensures property := by
  induction program with
  | done value => exact h value
  | read addr next ih =>
    intro byte
    exact ih byte
  | write addr value next ih => exact ih
  | note record next ih => exact ih

/-- What a program ensures holds of the value that a run gives. -/
theorem Ensures.result {program : Bus α} (h : program.Ensures property) {memory : Memory}
    {value : α} (hrun : (program.run memory).result = .ok value) : property value := by
  induction program generalizing memory with
  | done final =>
    cases hrun
    exact h
  | read addr next ih =>
    simp only [run] at hrun
    cases hread : memory.read addr.toNat with
    | ok byte =>
      rw [hread] at hrun
      exact ih byte (h byte) hrun
    | error fault =>
      rw [hread] at hrun
      cases hrun
  | write addr byte next ih =>
    simp only [run, Attempt.result_andThen_eq_ok_iff] at hrun
    obtain ⟨_, _, hrest⟩ := hrun
    exact ih h hrest
  | note record next ih => exact ih h hrun

end Ensures

end Arcade8080.Bus
