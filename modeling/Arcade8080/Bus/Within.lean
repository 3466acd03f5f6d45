import Arcade8080.Bus.Lemmas

/-!
Programs that keep to some addresses, whatever they read there. Such a program
comes to the same on memories that agree on these addresses, and leaves all other
bytes as they are.
-/

namespace Arcade8080

/-- Two memories that differ in bytes at most, and not in those at some addresses. -/
structure Memory.AgreeOn (addrs : List Word) (first second : Memory) : Prop where
  isAllocated : second.isAllocated = first.isAllocated
  size : second.size = first.size
  window : second.window = first.window
  byte? : ∀ addr ∈ addrs, second.byte? addr.toNat = first.byte? addr.toNat

/-- No byte has changed but those at some addresses. -/
def Memory.KeptOutside (addrs : List Word) (before after : Memory) : Prop :=
  ∀ addr : Nat, (∀ used ∈ addrs, used.toNat ≠ addr) → after.byte? addr = before.byte? addr

/-- Two attempts that came to the same, and left memories that agree. -/
structure Attempt.AgreeOn {α : Type} (addrs : List Word) (first second : Attempt Memory α) :
    Prop where
  result : second.result = first.result
  records : second.records = first.records
  state : first.state.AgreeOn addrs second.state

namespace Attempt

variable {α β : Type} {addrs : List Word} {first second : Attempt Memory α}

theorem AgreeOn.after (h : first.AgreeOn addrs second) (records : List Record) :
    (first.after records).AgreeOn addrs (second.after records) where
  result := h.result
  records := congrArg (records ++ ·) h.records
  state := h.state

theorem AgreeOn.andThen {next : α → Memory → Attempt Memory β} (h : first.AgreeOn addrs second)
    (rest : ∀ value middle between, Memory.AgreeOn addrs middle between →
      (next value middle).AgreeOn addrs (next value between)) :
    (first.andThen next).AgreeOn addrs (second.andThen next) := by
  obtain ⟨result, middle, records⟩ := first
  obtain ⟨other, between, others⟩ := second
  obtain ⟨hresult, hrecords, hstate⟩ := h
  cases hresult
  cases hrecords
  cases result with
  | ok value => exact (rest value middle between hstate).after records
  | error fault => exact ⟨rfl, rfl, hstate⟩

end Attempt

namespace Memory

variable {addrs : List Word} {first second : Memory} {addr : Word}

theorem AgreeOn.mono {larger : List Word} (h : first.AgreeOn larger second)
    (hsub : addrs ⊆ larger) : first.AgreeOn addrs second :=
  ⟨h.isAllocated, h.size, h.window, fun addr hmem => h.byte? addr (hsub hmem)⟩

theorem AgreeOn.faultAt (h : first.AgreeOn addrs second) (addr : Nat) :
    second.faultAt addr = first.faultAt addr := by
  rw [Memory.faultAt, Memory.faultAt, h.isAllocated, h.size]

theorem AgreeOn.read (h : first.AgreeOn addrs second) (hmem : addr ∈ addrs) :
    second.read addr.toNat = first.read addr.toNat := by
  cases hfirst : first.read addr.toNat with
  | ok value =>
    rw [read_eq_ok_iff] at hfirst ⊢
    rw [h.byte? addr hmem, hfirst]
  | error fault =>
    rw [read_eq_error_iff] at hfirst ⊢
    rw [h.size, h.faultAt]
    exact hfirst

theorem AgreeOn.write (h : first.AgreeOn addrs second) (addr : Nat) (value : Byte) :
    (first.write addr value).AgreeOn addrs (second.write addr value) where
  result := by rw [result_write, result_write, h.size, h.faultAt]
  records := by rw [records_write, records_write, h.size, h.window]
  state := by
    refine ⟨?_, ?_, ?_, ?_⟩
    · rw [isAllocated_write, isAllocated_write, h.isAllocated]
    · rw [size_write, size_write, h.size]
    · rw [window_write, window_write, h.window]
    · intro other hmem
      rw [byte?_write, byte?_write, h.size, h.window, h.byte? other hmem]

theorem KeptOutside.refl (memory : Memory) : memory.KeptOutside addrs memory := fun _ _ => rfl

theorem KeptOutside.trans {before middle after : Memory} (early : before.KeptOutside addrs middle)
    (late : middle.KeptOutside addrs after) : before.KeptOutside addrs after :=
  fun addr houtside => (late addr houtside).trans (early addr houtside)

theorem KeptOutside.mono {larger : List Word} {before after : Memory}
    (h : before.KeptOutside addrs after) (hsub : addrs ⊆ larger) :
    before.KeptOutside larger after :=
  fun addr houtside => h addr fun used hmem => houtside used (hsub hmem)

theorem KeptOutside.write (memory : Memory) (hmem : addr ∈ addrs) (value : Byte) :
    memory.KeptOutside addrs (memory.write addr.toNat value).state := by
  intro other houtside
  rw [byte?_write, if_neg]
  rintro ⟨hsame, _⟩
  exact houtside addr hmem hsame.symm

end Memory

namespace Bus

variable {α β : Type} {addrs : List Word}

/-- Whatever it reads, the program asks for no byte but at some addresses. -/
def Within (addrs : List Word) : Bus α → Prop
  | .done _ => True
  | .read addr next => addr ∈ addrs ∧ ∀ byte, (next byte).Within addrs
  | .write addr _ next => addr ∈ addrs ∧ next.Within addrs
  | .note _ next => next.Within addrs

theorem within_pure (value : α) : (pure value : Bus α).Within addrs := trivial

theorem within_emit (record : Record) : (emit record).Within addrs := trivial

theorem Within.bind {program : Bus α} {f : α → Bus β} (first : program.Within addrs)
    (rest : ∀ value, (f value).Within addrs) : (program >>= f).Within addrs := by
  change (program.bind f).Within addrs
  induction program with
  | done value => exact rest value
  | read addr next ih => exact ⟨first.1, fun byte => ih byte (first.2 byte)⟩
  | write addr value next ih => exact ⟨first.1, ih first.2⟩
  | note record next ih => exact ih first

theorem Within.mono {program : Bus α} {larger : List Word} (h : program.Within addrs)
    (hsub : addrs ⊆ larger) : program.Within larger := by
  induction program with
  | done value => trivial
  | read addr next ih => exact ⟨hsub h.1, fun byte => ih byte (h.2 byte)⟩
  | write addr value next ih => exact ⟨hsub h.1, ih h.2⟩
  | note record next ih => exact ih h

/-- The frame rule for what a program reads. -/
theorem Within.agree_run {program : Bus α} (h : program.Within addrs) {first second : Memory}
    (agree : first.AgreeOn addrs second) :
    (program.run first).AgreeOn addrs (program.run second) := by
  induction program generalizing first second with
  | done value => exact ⟨rfl, rfl, agree⟩
  | read addr next ih =>
    simp only [run, agree.read h.1]
    cases first.read addr.toNat with
    | ok byte => exact ih byte (h.2 byte) agree
    | error fault => exact ⟨rfl, rfl, agree⟩
  | write addr value next ih =>
    apply (Memory.AgreeOn.write agree addr.toNat value).andThen
    intro _ middle between hmiddle
    exact ih h.2 hmiddle
  | note record next ih => exact (ih h agree).after [record]

/-- The frame rule for what a program stores. -/
theorem Within.kept_run {program : Bus α} (h : program.Within addrs) (memory : Memory) :
    memory.KeptOutside addrs (program.run memory).state := by
  induction program generalizing memory with
  | done value => exact .refl memory
  | read addr next ih =>
    simp only [run]
    cases memory.read addr.toNat with
    | ok byte => exact ih byte (h.2 byte) memory
    | error fault => exact .refl memory
  | write addr value next ih =>
    have hstore := Memory.KeptOutside.write memory h.1 value
    simp only [run]
    cases hresult : (memory.write addr.toNat value).result with
    | ok ended =>
      rw [Attempt.state_andThen_of_ok hresult]
      exact hstore.trans (ih h.2 _)
    | error fault =>
      rw [Attempt.state_andThen_of_error hresult]
      exact hstore
  | note record next ih => exact ih h memory

end Bus

end Arcade8080
