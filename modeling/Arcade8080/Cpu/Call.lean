import Arcade8080.Cpu.Transact

/-!
What a host can ask of a processor while a program is in memory, what any
sequence of such calls leaves, and the history that it makes. A call that fails
leaves a state behind as well, and the next one goes on from there.
-/

namespace Arcade8080.Cpu

inductive Call where
  | step
  | execute (instruction : Instruction)
  | interrupt (value : Byte)
  | reset
  | push (value : Word)
  | pop
  /-- A store at the address that HL holds when the call is made. -/
  | writeAtHl (value : Byte)
  | writeByte (addr : Word) (value : Byte)
  deriving DecidableEq

/-- The processor that a call leaves, whether or not it succeeds. -/
def after (cpu : Cpu) : Call → Cpu
  | .step => cpu.step.state
  | .execute instruction => (cpu.execute instruction).state
  | .interrupt value => (cpu.interrupt value).1
  | .reset => cpu.reset
  | .push value => (cpu.push value).state
  | .pop => cpu.pop.state
  | .writeAtHl value => (cpu.writeByte cpu.registers.hl value).state
  | .writeByte addr value => (cpu.writeByte addr value).state

/-- All but requests and resets are transactions. -/
theorem after_eq (cpu : Cpu) (call : Call) :
    cpu.after call =
      match call with
      | .step => ({ cpu with pending := none }.transact (·.step cpu.pending)).state
      | .execute instruction => (cpu.transact (·.execute instruction)).state
      | .interrupt value => (cpu.interrupt value).1
      | .reset => cpu.reset
      | .push value => (cpu.transact fun core => return ((), ← core.push value)).state
      | .pop => (cpu.transact Core.pop).state
      | .writeAtHl value =>
        (cpu.transact fun core => do
          Bus.store cpu.registers.hl value
          return ((), core)).state
      | .writeByte addr value =>
        (cpu.transact fun core => do
          Bus.store addr value
          return ((), core)).state := by
  cases call with
  | step => rw [after, step_eq]
  | execute instruction => rw [after, execute_eq]
  | interrupt | reset => rfl
  | push value => rw [after, push_eq]
  | pop => rw [after, pop_eq]
  | writeAtHl | writeByte => rw [after, writeByte_eq]

def afterAll (cpu : Cpu) (calls : List Call) : Cpu := calls.foldl after cpu

@[simp] theorem afterAll_nil (cpu : Cpu) : cpu.afterAll [] = cpu := rfl

@[simp] theorem afterAll_cons (cpu : Cpu) (call : Call) (rest : List Call) :
    cpu.afterAll (call :: rest) = (cpu.after call).afterAll rest := rfl

/-- What a step or an instruction reports where it succeeds. Other calls report
nothing of that kind. -/
def outcome? (cpu : Cpu) : Call → Option StepOutcome
  | .step => cpu.step.result.toOption
  | .execute instruction => (cpu.execute instruction).result.toOption
  | _ => none

/-- A call as it went. -/
structure Event where
  call : Call
  outcome : Option StepOutcome
  deriving DecidableEq

/-- The events of a sequence of calls, oldest first. -/
def history (cpu : Cpu) : List Call → List Event
  | [] => []
  | call :: rest => ⟨call, cpu.outcome? call⟩ :: (cpu.after call).history rest

theorem map_call_history (cpu : Cpu) (calls : List Call) :
    (cpu.history calls).map Event.call = calls := by
  induction calls generalizing cpu with
  | nil => rfl
  | cons call rest ih => rw [history, List.map_cons, ih]

/-- Each event of a history is one of a call, made after the calls before it. -/
theorem history_split {cpu : Cpu} {calls : List Call} {earlier later : List Event}
    {event : Event} (h : cpu.history calls = earlier ++ event :: later) :
    ∃ before call, cpu.history before = earlier ∧
      event = ⟨call, (cpu.afterAll before).outcome? call⟩ := by
  induction earlier generalizing cpu calls with
  | nil =>
    cases calls with
    | nil => cases h
    | cons call rest =>
      cases h
      exact ⟨[], call, rfl, rfl⟩
  | cons first earlier ih =>
    cases calls with
    | nil => cases h
    | cons call rest =>
      rw [history, List.cons_append] at h
      obtain ⟨hfirst, hrest⟩ := List.cons.inj h
      obtain ⟨before, last, hbefore, hevent⟩ := ih hrest
      refine ⟨call :: before, last, ?_, hevent⟩
      rw [history, hbefore, hfirst]

section Latest

variable {α β : Type}

/-- The last item that sets anything, where `effect` is what each one sets, sets
`value`. -/
def Latest (effect : α → Option β) (items : List α) (value : β) : Prop :=
  ∃ earlier item later, items = earlier ++ item :: later ∧ effect item = some value ∧
    ∀ other ∈ later, effect other = none

variable {effect : α → Option β} {value : β}

theorem not_latest_nil : ¬ Latest effect [] value := by
  rintro ⟨earlier, item, later, hsplit, _⟩
  simp at hsplit

theorem latest_cons {first : α} {rest : List α} :
    Latest effect (first :: rest) value ↔
      Latest effect rest value ∨
        (∀ other ∈ rest, effect other = none) ∧ effect first = some value := by
  constructor
  · rintro ⟨earlier, item, later, hsplit, heffect, hlater⟩
    cases earlier with
    | nil =>
      cases hsplit
      exact .inr ⟨hlater, heffect⟩
    | cons head earlier =>
      cases hsplit
      exact .inl ⟨earlier, item, later, rfl, heffect, hlater⟩
  · rintro (⟨earlier, item, later, rfl, heffect, hlater⟩ | ⟨hrest, heffect⟩)
    · exact ⟨first :: earlier, item, later, rfl, heffect, hlater⟩
    · exact ⟨[], first, rest, rfl, heffect, hrest⟩

theorem latest_map {γ : Type} {f : γ → α} {items : List γ} :
    Latest effect (items.map f) value ↔ Latest (fun item => effect (f item)) items value := by
  induction items with
  | nil => exact iff_of_false not_latest_nil not_latest_nil
  | cons first rest ih => rw [List.map_cons, latest_cons, latest_cons, ih, List.forall_mem_map]

/-- What was set last, after something else had been set, was set in between. -/
theorem exists_of_latest {earlier between : List α} {item : α} {other : β}
    (h : Latest effect (earlier ++ item :: between) value) (heffect : effect item = some other)
    (hne : other ≠ value) : ∃ late ∈ between, effect late = some value := by
  induction earlier with
  | nil =>
    rcases latest_cons.mp h with ⟨before, late, after, rfl, hlate, _⟩ | ⟨_, hitem⟩
    · exact ⟨late, by simp, hlate⟩
    · rw [heffect, Option.some.injEq] at hitem
      exact absurd hitem hne
  | cons first earlier ih =>
    rcases latest_cons.mp h with hrest | ⟨hnone, _⟩
    · exact ih hrest
    · have hitem : effect item = none := hnone item (by simp)
      rw [heffect] at hitem
      cases hitem

end Latest

/-- If every call leaves a part of the processor as its event sets it, or else
alone, then after any number of them that part is as the latest event has set it,
or else as it was at the start. -/
theorem view_afterAll_eq_iff {β : Type} (view : Cpu → β) (effect : Event → Option β)
    (each : ∀ cpu call, view (cpu.after call) = (effect ⟨call, cpu.outcome? call⟩).getD (view cpu))
    {cpu : Cpu} {calls : List Call} {value : β} :
    view (cpu.afterAll calls) = value ↔
      Latest effect (cpu.history calls) value ∨
        (∀ event ∈ cpu.history calls, effect event = none) ∧ view cpu = value := by
  induction calls generalizing cpu with
  | nil => simp [history, not_latest_nil]
  | cons call rest ih =>
    rw [afterAll_cons, ih, each, history, latest_cons, List.forall_mem_cons]
    cases effect ⟨call, cpu.outcome? call⟩ with
    | none => simp
    | some current => simp

end Arcade8080.Cpu
