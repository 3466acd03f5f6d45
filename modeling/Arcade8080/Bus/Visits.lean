import Arcade8080.Bus.Stores
import Arcade8080.Bus.Within

/-!
Programs that ask for the same bytes in the same order, whatever they read. Whether such a
program fails, and at which address, is settled before it runs: it gets as far as the first
of its addresses that memory does not reach.
-/

namespace Arcade8080

namespace Memory

variable {memory first second : Memory} {addrs early late : List Word} {fault : Fault}

/-- What comes of asking for one byte after the other. -/
def reach (memory : Memory) (addrs : List Word) : Except Fault Unit :=
  match addrs.find? fun addr => memory.size ≤ addr.toNat with
  | none => .ok ()
  | some past => .error (memory.faultAt past.toNat)

theorem reach_cons (memory : Memory) (addr : Word) (rest : List Word) :
    memory.reach (addr :: rest) =
      if addr.toNat < memory.size then memory.reach rest
      else .error (memory.faultAt addr.toNat) := by
  rw [reach, List.find?_cons]
  by_cases h : addr.toNat < memory.size
  · rw [if_pos h, decide_eq_false (Nat.not_le.mpr h)]
    rfl
  · rw [if_neg h, decide_eq_true (Nat.le_of_not_lt h)]

theorem reach_congr (hallocated : second.isAllocated = first.isAllocated)
    (hsize : second.size = first.size) (addrs : List Word) :
    second.reach addrs = first.reach addrs := by
  simp only [reach, faultAt, hallocated, hsize]

theorem reach_eq_ok_iff :
    memory.reach addrs = .ok () ↔ ∀ addr ∈ addrs, addr.toNat < memory.size := by
  have hnone : (∀ addr ∈ addrs, addr.toNat < memory.size) ↔
      (addrs.find? fun addr => memory.size ≤ addr.toNat) = none := by
    simp
  rw [hnone, reach]
  split <;> simp [*]

/-- The fault is that of the first address without a byte. -/
theorem reach_eq_error_iff :
    memory.reach addrs = .error fault ↔
      ∃ past, (addrs.find? fun addr => memory.size ≤ addr.toNat) = some past ∧
        fault = memory.faultAt past.toNat := by
  rw [reach]
  split <;> simp [*, eq_comm]

/-- Addresses that one has been at already change nothing. -/
theorem reach_append_of_subset (h : late ⊆ early) :
    memory.reach (early ++ late) = memory.reach early := by
  cases hearly : memory.reach early with
  | ok ended =>
    have hall := reach_eq_ok_iff.mp hearly
    rw [reach_eq_ok_iff, List.forall_mem_append]
    exact ⟨hall, fun addr hmem => hall addr (h hmem)⟩
  | error fault =>
    obtain ⟨past, hfirst, hfault⟩ := reach_eq_error_iff.mp hearly
    rw [reach_eq_error_iff, List.find?_append, hfirst]
    exact ⟨past, rfl, hfault⟩

end Memory

namespace Bus

variable {α β : Type} {program : Bus α} {addrs early late : List Word}

/-- Whatever it reads, the program asks for bytes at these addresses, in this order. -/
def Visits : Bus α → List Word → Prop
  | .done _, addrs => addrs = []
  | .read addr next, addrs => ∃ rest, addrs = addr :: rest ∧ ∀ byte, (next byte).Visits rest
  | .write addr _ next, addrs => ∃ rest, addrs = addr :: rest ∧ next.Visits rest
  | .note _ next, addrs => next.Visits addrs

theorem visits_pure (value : α) : (pure value : Bus α).Visits [] := rfl

theorem visits_load (addr : Word) : (load addr).Visits [addr] := ⟨[], rfl, fun _ => rfl⟩

theorem visits_store (addr : Word) (value : Byte) : (store addr value).Visits [addr] :=
  ⟨[], rfl, rfl⟩

theorem Visits.bind {f : α → Bus β} (first : program.Visits early)
    (rest : ∀ value, (f value).Visits late) : (program >>= f).Visits (early ++ late) := by
  change (program.bind f).Visits (early ++ late)
  induction program generalizing early with
  | done value =>
    cases first
    exact rest value
  | read addr next ih =>
    obtain ⟨later, rfl, hnext⟩ := first
    exact ⟨later ++ late, rfl, fun byte => ih byte (hnext byte)⟩
  | write addr value next ih =>
    obtain ⟨later, rfl, hnext⟩ := first
    exact ⟨later ++ late, rfl, ih hnext⟩
  | note record next ih => exact ih first

theorem Visits.bind_last {f : α → Bus β} (first : program.Visits addrs)
    (rest : ∀ value, (f value).Visits []) : (program >>= f).Visits addrs :=
  List.append_nil addrs ▸ first.bind rest

theorem Visits.within (h : program.Visits addrs) : program.Within addrs := by
  induction program generalizing addrs with
  | done value => trivial
  | read addr next ih =>
    obtain ⟨rest, rfl, hnext⟩ := h
    refine ⟨List.mem_cons_self, fun byte => ?_⟩
    exact (ih byte (hnext byte)).mono (List.subset_cons_self addr rest)
  | write addr value next ih =>
    obtain ⟨rest, rfl, hnext⟩ := h
    exact ⟨List.mem_cons_self, (ih hnext).mono (List.subset_cons_self addr rest)⟩
  | note record next ih => exact ih h

/-- What the program comes to is what comes of asking for its bytes. Stores on the way do
not change how far memory goes. -/
theorem Visits.result_run (h : program.Visits addrs) (memory : Memory) :
    (program.run memory).result.map (fun _ => ()) = memory.reach addrs := by
  induction program generalizing addrs memory with
  | done value =>
    cases h
    rfl
  | read addr next ih =>
    obtain ⟨rest, rfl, hnext⟩ := h
    rw [run, Memory.reach_cons]
    cases hread : memory.read addr.toNat with
    | ok byte =>
      rw [if_pos (Memory.lt_size_of_read hread)]
      exact ih byte (hnext byte) memory
    | error fault =>
      obtain ⟨hpast, rfl⟩ := Memory.read_eq_error_iff.mp hread
      rw [if_neg (Nat.not_lt.mpr hpast)]
      rfl
  | write addr value next ih =>
    obtain ⟨rest, rfl, hnext⟩ := h
    rw [Memory.reach_cons]
    by_cases hplace : addr.toNat < memory.size
    · rw [run_write_of_lt hplace, if_pos hplace]
      have hrest := ih hnext (memory.write addr.toNat value).state
      rw [Memory.reach_congr (Memory.isAllocated_write _ _ _) (Memory.size_write _ _ _)] at hrest
      exact hrest
    · rw [run_write_of_le (Nat.le_of_not_lt hplace), if_neg hplace]
      rfl
  | note record next ih => exact ih h memory

/-- The program asks for bytes at these addresses, in this order, before it comes back to
any of them. -/
def Reaches (program : Bus α) (addrs : List Word) : Prop :=
  ∃ again, again ⊆ addrs ∧ program.Visits (addrs ++ again)

theorem Visits.reaches (h : program.Visits addrs) : program.Reaches addrs :=
  ⟨[], List.nil_subset addrs, (List.append_nil addrs).symm ▸ h⟩

/-- A program that has been at these addresses may go to them once more. -/
theorem Visits.reaches_of_twice (h : program.Visits (addrs ++ addrs)) : program.Reaches addrs :=
  ⟨addrs, List.Subset.refl addrs, h⟩

theorem Reaches.within (h : program.Reaches addrs) : program.Within addrs := by
  obtain ⟨again, hsub, hvisits⟩ := h
  exact hvisits.within.mono (List.append_subset.mpr ⟨List.Subset.refl addrs, hsub⟩)

theorem Reaches.result_run (h : program.Reaches addrs) (memory : Memory) :
    (program.run memory).result.map (fun _ => ()) = memory.reach addrs := by
  obtain ⟨again, hsub, hvisits⟩ := h
  rw [hvisits.result_run memory, Memory.reach_append_of_subset hsub]

end Bus

end Arcade8080
