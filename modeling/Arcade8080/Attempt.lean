import Arcade8080.Fault
import Arcade8080.Record

/-!
An operation that may fail part of the way. Whether it succeeds or not it
leaves a state behind, because what it did before the fault stays done, and it
has emitted records on the way, oldest first.
-/

namespace Arcade8080

structure Attempt (σ α : Type) where
  result : Except Fault α
  state : σ
  records : List Record := []

namespace Attempt

variable {σ α β : Type}

def succeed (value : α) (state : σ) : Attempt σ α := ⟨.ok value, state, []⟩

def fail (fault : Fault) (state : σ) : Attempt σ α := ⟨.error fault, state, []⟩

/-- The attempt with records in front that were emitted before it. -/
def after (records : List Record) (attempt : Attempt σ α) : Attempt σ α :=
  ⟨attempt.result, attempt.state, records ++ attempt.records⟩

/-- Goes on from the state an attempt left, unless it failed. -/
@[inline] def andThen (first : Attempt σ α) (next : α → σ → Attempt σ β) : Attempt σ β :=
  match first with
  | ⟨.ok value, state, records⟩ => (next value state).after records
  | ⟨.error fault, state, records⟩ => ⟨.error fault, state, records⟩

/-- The state after a number of attempts at the same thing, each made where the one
before it left off, whether or not that one succeeded. -/
def stateAfter (attempt : σ → Attempt σ α) (state : σ) : Nat → σ
  | 0 => state
  | count + 1 => (attempt (stateAfter attempt state count)).state

/-- Some attempts and then some more. -/
theorem stateAfter_add (attempt : σ → Attempt σ α) (state : σ) (early late : Nat) :
    stateAfter attempt state (early + late) =
      stateAfter attempt (stateAfter attempt state early) late := by
  induction late with
  | zero => rfl
  | succ late ih => rw [← Nat.add_assoc, stateAfter, stateAfter, ih]

@[simp] theorem andThen_after (records : List Record) (first : Attempt σ α)
    (next : α → σ → Attempt σ β) :
    (first.after records).andThen next = (first.andThen next).after records := by
  obtain ⟨result, state, late⟩ := first
  cases result <;> simp [andThen, after]

theorem andThen_andThen {γ : Type} (first : Attempt σ α) (second : α → σ → Attempt σ β)
    (third : β → σ → Attempt σ γ) :
    (first.andThen second).andThen third =
      first.andThen fun value state => (second value state).andThen third := by
  obtain ⟨result, state, records⟩ := first
  cases result with
  | error fault => rfl
  | ok value => exact andThen_after records (second value state) third

theorem map_eq_ok_iff {result : Except Fault α} {f : α → β} {value : β} :
    result.map f = .ok value ↔ ∃ middle, result = .ok middle ∧ f middle = value := by
  cases result <;> simp [Except.map]

@[simp] theorem map_eq_error_iff {result : Except Fault α} {f : α → β} {fault : Fault} :
    result.map f = .error fault ↔ result = .error fault := by
  cases result <;> simp [Except.map]

theorem toOption_eq_some_iff {result : Except Fault α} {value : α} :
    result.toOption = some value ↔ result = .ok value := by
  cases result <;> simp [Except.toOption]

theorem result_andThen_eq_ok_iff {first : Attempt σ α} {next : α → σ → Attempt σ β} {value : β} :
    (first.andThen next).result = .ok value ↔
      ∃ middle, first.result = .ok middle ∧ (next middle first.state).result = .ok value := by
  obtain ⟨result, state, records⟩ := first
  cases result <;> simp [andThen, after]

/-- A failure of the whole is one of the first part, or of what went on from it. -/
theorem result_andThen_eq_error_iff {first : Attempt σ α} {next : α → σ → Attempt σ β}
    {fault : Fault} :
    (first.andThen next).result = .error fault ↔
      first.result = .error fault ∨
        ∃ middle, first.result = .ok middle ∧ (next middle first.state).result = .error fault := by
  obtain ⟨result, state, records⟩ := first
  cases result <;> simp [andThen, after]

theorem state_andThen_of_ok {first : Attempt σ α} {next : α → σ → Attempt σ β} {middle : α}
    (h : first.result = .ok middle) :
    (first.andThen next).state = (next middle first.state).state := by
  obtain ⟨result, state, records⟩ := first
  cases h
  rfl

theorem state_andThen_of_error {first : Attempt σ α} {next : α → σ → Attempt σ β} {fault : Fault}
    (h : first.result = .error fault) : (first.andThen next).state = first.state := by
  obtain ⟨result, state, records⟩ := first
  cases h
  rfl

end Attempt

end Arcade8080
