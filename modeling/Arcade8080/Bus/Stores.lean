import Arcade8080.Bus.Lemmas

/-!
What a run of a program stores. Its stores, in order, are all that it does to memory,
and where every read comes before the first of them, no read can tell what became of
one. Such a program makes the same stores behind every window.
-/

namespace Arcade8080

/-- A byte on its way to an address. -/
structure Store where
  addr : Word
  value : Byte
  deriving DecidableEq

namespace Store

def admitted (window : Window) (store : Store) : Bool := window.contains store.addr.toNat

/-- What memory records of a store that its window drops. -/
def rejection (window : Window) (store : Store) : Record :=
  .rejectedStore store.value store.addr.toNat window

end Store

namespace Memory

variable {memory first second : Memory} {window : Window} {stores : List Store} {addr : Nat}

/-- The same memory behind another window. -/
def behind (memory : Memory) (window : Window) : Memory := { memory with window }

@[simp] theorem window_behind (memory : Memory) (window : Window) :
    (memory.behind window).window = window := rfl

@[simp] theorem size_behind (memory : Memory) (window : Window) :
    (memory.behind window).size = memory.size := rfl

@[simp] theorem read_behind (memory : Memory) (window : Window) (addr : Nat) :
    (memory.behind window).read addr = memory.read addr := rfl

theorem write_eq_of_rejected {value : Byte} (hsize : addr < memory.size)
    (hclosed : memory.window.contains addr = false) :
    memory.write addr value = ⟨.ok (), memory, [.rejectedStore value addr memory.window]⟩ := by
  obtain ⟨_ | cells, window⟩ := memory
  · cases hsize
  · have hinside : addr < cells.size := hsize
    have hrejected : window.contains addr = false := hclosed
    simp [write, hinside, hrejected]

theorem write_eq_of_le (h : memory.size ≤ addr) (value : Byte) :
    memory.write addr value = .fail (memory.faultAt addr) memory := by
  obtain ⟨_ | cells, window⟩ := memory
  · rfl
  · have hpast : ¬ addr < cells.size := Nat.not_lt.mpr h
    simp [write, hpast, faultAt, isAllocated, size]

/-- Windows that agree about an address let the same store through. -/
theorem state_write_behind {value : Byte}
    (h : window.contains addr = memory.window.contains addr) :
    ((memory.behind window).write addr value).state =
      (memory.write addr value).state.behind window := by
  obtain ⟨_ | cells, own⟩ := memory
  · rfl
  · have hsame : window.contains addr = own.contains addr := h
    simp only [behind, write, hsame]
    split
    · split <;> rfl
    · rfl

def store (memory : Memory) (store : Store) : Memory :=
  (memory.write store.addr.toNat store.value).state

def storeAll (memory : Memory) (stores : List Store) : Memory := stores.foldl store memory

@[simp] theorem storeAll_cons (memory : Memory) (first : Store) (rest : List Store) :
    memory.storeAll (first :: rest) = (memory.store first).storeAll rest := rfl

theorem window_storeAll (memory : Memory) (stores : List Store) :
    (memory.storeAll stores).window = memory.window := by
  induction stores generalizing memory with
  | nil => rfl
  | cons first rest ih =>
    rw [storeAll_cons, ih]
    exact window_write _ _ _

theorem size_storeAll (memory : Memory) (stores : List Store) :
    (memory.storeAll stores).size = memory.size := by
  induction stores generalizing memory with
  | nil => rfl
  | cons first rest ih =>
    rw [storeAll_cons, ih]
    exact size_write _ _ _

theorem isAllocated_storeAll (memory : Memory) (stores : List Store) :
    (memory.storeAll stores).isAllocated = memory.isAllocated := by
  induction stores generalizing memory with
  | nil => rfl
  | cons first rest ih =>
    rw [storeAll_cons, ih]
    exact isAllocated_write _ _ _

theorem byte?_storeAll_of_forall_ne (h : ∀ store ∈ stores, store.addr.toNat ≠ addr) :
    (memory.storeAll stores).byte? addr = memory.byte? addr := by
  induction stores generalizing memory with
  | nil => rfl
  | cons first rest ih =>
    obtain ⟨hfirst, hrest⟩ := List.forall_mem_cons.mp h
    rw [storeAll_cons, ih hrest, store, byte?_write, if_neg]
    rintro ⟨hsame, _⟩
    exact hfirst hsame.symm

/-- Only the admitted ones of some stores change anything. -/
theorem storeAll_filter_admitted (memory : Memory) (stores : List Store) :
    memory.storeAll (stores.filter (Store.admitted memory.window)) = memory.storeAll stores := by
  induction stores generalizing memory with
  | nil => rfl
  | cons first rest ih =>
    have hrest := ih (memory.store first)
    rw [store, window_write] at hrest
    rw [storeAll_cons, List.filter_cons]
    split
    · exact hrest
    · rename_i hdropped
      have hsame : memory.store first = memory :=
        state_write_of_not _ fun hopen => hdropped hopen.2
      rw [hsame]
      exact ih memory

/-- What becomes of a byte depends on the window at its own address only. -/
theorem byte?_storeAll_congr (hsize : second.size = first.size)
    (hwindow : second.window.contains addr = first.window.contains addr)
    (hbyte : second.byte? addr = first.byte? addr) (stores : List Store) :
    (second.storeAll stores).byte? addr = (first.storeAll stores).byte? addr := by
  induction stores generalizing first second with
  | nil => exact hbyte
  | cons next rest ih =>
    apply ih
    · rw [store, store, size_write, size_write, hsize]
    · rw [store, store, window_write, window_write, hwindow]
    · rw [store, store, byte?_write, byte?_write, hsize, hbyte]
      by_cases hsame : addr = next.addr.toNat
      · rw [← hsame, hwindow]
      · simp [hsame]

/-- Windows that admit the same of some stores make the same of them. -/
theorem storeAll_behind (h : ∀ store ∈ stores,
    store.admitted window = store.admitted memory.window) :
    (memory.behind window).storeAll stores = (memory.storeAll stores).behind window := by
  induction stores generalizing memory with
  | nil => rfl
  | cons first rest ih =>
    obtain ⟨hfirst, hrest⟩ := List.forall_mem_cons.mp h
    have hstore : (memory.behind window).store first = (memory.store first).behind window :=
      state_write_behind hfirst
    rw [storeAll_cons, storeAll_cons, hstore]
    apply ih
    rw [store, window_write]
    exact hrest

end Memory

namespace Bus

variable {α β : Type} {program : Bus α} {memory first second : Memory}

theorem run_write_of_lt {addr : Word} (h : addr.toNat < memory.size) (value : Byte)
    (next : Bus α) :
    (Bus.write addr value next).run memory =
      (next.run (memory.write addr.toNat value).state).after
        (memory.write addr.toNat value).records := by
  have hresult : (memory.write addr.toNat value).result = .ok () :=
    Memory.result_write_eq_ok_iff.mpr h
  simp only [run]
  generalize memory.write addr.toNat value = written at hresult ⊢
  obtain ⟨_ | ended, state, records⟩ := written
  · cases hresult
  · rfl

theorem run_write_of_le {addr : Word} (h : memory.size ≤ addr.toNat) (value : Byte)
    (next : Bus α) :
    (Bus.write addr value next).run memory = .fail (memory.faultAt addr.toNat) memory := by
  simp only [run, Memory.write_eq_of_le h]
  rfl

/-- The stores of a run that find a place in memory, in order. -/
def stores : Bus α → Memory → List Store
  | .done _, _ => []
  | .read addr next, memory =>
    match memory.read addr.toNat with
    | .ok byte => (next byte).stores memory
    | .error _ => []
  | .write addr value next, memory =>
    if addr.toNat < memory.size
    then ⟨addr, value⟩ :: next.stores (memory.write addr.toNat value).state
    else []
  | .note _ next, memory => next.stores memory

theorem lt_size_of_mem_stores {store : Store} (h : store ∈ program.stores memory) :
    store.addr.toNat < memory.size := by
  induction program generalizing memory with
  | done value => cases h
  | read addr next ih =>
    simp only [stores] at h
    split at h
    · exact ih _ h
    · cases h
  | write addr value next ih =>
    simp only [stores] at h
    split at h
    · rename_i hsize
      rcases List.mem_cons.mp h with rfl | hrest
      · exact hsize
      · have hlater := ih hrest
        rw [Memory.size_write] at hlater
        exact hlater
    · cases h
  | note record next ih => exact ih h

/-- A run leaves what its stores make of memory. -/
theorem state_run (program : Bus α) (memory : Memory) :
    (program.run memory).state = memory.storeAll (program.stores memory) := by
  induction program generalizing memory with
  | done value => rfl
  | read addr next ih =>
    simp only [run, stores]
    cases memory.read addr.toNat with
    | ok byte => exact ih byte memory
    | error fault => rfl
  | write addr value next ih =>
    by_cases hplace : addr.toNat < memory.size
    · rw [run_write_of_lt hplace, stores, if_pos hplace]
      exact ih _
    · rw [run_write_of_le (Nat.le_of_not_lt hplace), stores, if_neg hplace]
      rfl
  | note record next ih => exact ih memory

/-- Nothing is read, and nothing that is noted is a warning. -/
def StoresOnly : Bus α → Prop
  | .done _ => True
  | .read .. => False
  | .write _ _ next => next.StoresOnly
  | .note record next => record.level ≠ .warn ∧ next.StoresOnly

/-- Reads come before stores, and nothing that is noted is a warning. -/
def Orderly : Bus α → Prop
  | .done _ => True
  | .read _ next => ∀ byte, (next byte).Orderly
  | .write _ _ next => next.StoresOnly
  | .note record next => record.level ≠ .warn ∧ next.Orderly

theorem storesOnly_pure (value : α) : (pure value : Bus α).StoresOnly := trivial

theorem storesOnly_store (addr : Word) (value : Byte) : (store addr value).StoresOnly := trivial

theorem storesOnly_emit {record : Record} (h : record.level ≠ .warn) :
    (emit record).StoresOnly := ⟨h, trivial⟩

theorem StoresOnly.bind {f : α → Bus β} (first : program.StoresOnly)
    (rest : ∀ value, (f value).StoresOnly) : (program >>= f).StoresOnly := by
  change (program.bind f).StoresOnly
  induction program with
  | done value => exact rest value
  | read addr next ih => exact first.elim
  | write addr value next ih => exact ih first
  | note record next ih => exact ⟨first.1, ih first.2⟩

theorem StoresOnly.orderly (h : program.StoresOnly) : program.Orderly := by
  induction program with
  | done value => trivial
  | read addr next ih => exact h.elim
  | write addr value next ih => exact h
  | note record next ih => exact ⟨h.1, ih h.2⟩

theorem orderly_pure (value : α) : (pure value : Bus α).Orderly := trivial

theorem orderly_load (addr : Word) : (load addr).Orderly := fun _ => trivial

theorem orderly_emit_bind {record : Record} (h : record.level ≠ .warn)
    (rest : program.Orderly) : (emit record >>= fun _ => program).Orderly := ⟨h, rest⟩

/-- What has stored nothing yet may go on to read. -/
theorem Orderly.bind {f : α → Bus β} (first : program.Orderly) (hread : program.ReadOnly)
    (rest : ∀ value, (f value).Orderly) : (program >>= f).Orderly := by
  change (program.bind f).Orderly
  induction program with
  | done value => exact rest value
  | read addr next ih =>
    intro byte
    exact ih byte (first byte) (hread byte)
  | write addr value next ih => exact hread.elim
  | note record next ih => exact ⟨first.1, ih first.2 hread⟩

/-- What has read all it needs may store whatever came of it. -/
theorem Orderly.bind_storesOnly {f : α → Bus β} (first : program.Orderly)
    (rest : ∀ value, (f value).StoresOnly) : (program >>= f).Orderly := by
  change (program.bind f).Orderly
  induction program with
  | done value => exact (rest value).orderly
  | read addr next ih =>
    intro byte
    exact ih byte (first byte)
  | write addr value next ih => exact StoresOnly.bind first rest
  | note record next ih => exact ⟨first.1, ih first.2⟩

/-- Without reads, all that counts of a memory is how far it goes. -/
theorem StoresOnly.run_congr (h : program.StoresOnly)
    (hallocated : second.isAllocated = first.isAllocated) (hsize : second.size = first.size) :
    (program.run second).result = (program.run first).result ∧
      program.stores second = program.stores first := by
  induction program generalizing first second with
  | done value => exact ⟨rfl, rfl⟩
  | read addr next ih => exact h.elim
  | write addr value next ih =>
    by_cases hplace : addr.toNat < first.size
    · have hother : addr.toNat < second.size := hsize.symm ▸ hplace
      have hstillAllocated : (second.write addr.toNat value).state.isAllocated =
          (first.write addr.toNat value).state.isAllocated := by simp [hallocated]
      have hstillSize : (second.write addr.toNat value).state.size =
          (first.write addr.toNat value).state.size := by simp [hsize]
      obtain ⟨hresult, hstores⟩ := ih h hstillAllocated hstillSize
      rw [run_write_of_lt hplace, run_write_of_lt hother, stores, stores, if_pos hplace,
        if_pos hother, hstores]
      exact ⟨hresult, rfl⟩
    · have hother : ¬ addr.toNat < second.size := hsize.symm ▸ hplace
      rw [run_write_of_le (Nat.le_of_not_lt hplace), run_write_of_le (Nat.le_of_not_lt hother),
        stores, stores, if_neg hplace, if_neg hother, Memory.faultAt, Memory.faultAt, hallocated,
        hsize]
      exact ⟨rfl, rfl⟩
  | note record next ih => exact ih h.2 hallocated hsize

/-- A program that has read all it needs when it begins to store comes to the same, with
the same stores, behind every window. -/
theorem Orderly.run_behind (h : program.Orderly) (memory : Memory) (window : Window) :
    (program.run (memory.behind window)).result = (program.run memory).result ∧
      program.stores (memory.behind window) = program.stores memory := by
  induction program with
  | done value => exact ⟨rfl, rfl⟩
  | read addr next ih =>
    simp only [run, stores, Memory.read_behind]
    cases memory.read addr.toNat with
    | ok byte => exact ih byte (h byte)
    | error fault => exact ⟨rfl, rfl⟩
  | write addr value next ih =>
    have honly : (Bus.write addr value next).StoresOnly := h
    exact honly.run_congr rfl rfl
  | note record next ih => exact ih h.2

/-- The warnings of a run are the rejections of its stores, one for each that the window
drops. -/
theorem Orderly.warnings_run (h : program.Orderly) (memory : Memory) :
    (program.run memory).records.filter (fun record => record.level = .warn) =
      ((program.stores memory).filter fun store => !store.admitted memory.window).map
        (Store.rejection memory.window) := by
  induction program generalizing memory with
  | done value => rfl
  | read addr next ih =>
    simp only [run, stores]
    cases memory.read addr.toNat with
    | ok byte => exact ih byte (h byte) memory
    | error fault => rfl
  | write addr value next ih =>
    by_cases hplace : addr.toNat < memory.size
    · have hrest := ih (StoresOnly.orderly h) (memory.write addr.toNat value).state
      rw [Memory.window_write] at hrest
      rw [run_write_of_lt hplace, stores, if_pos hplace, Attempt.after, List.filter_append, hrest,
        Memory.records_write, List.filter_cons]
      cases hopen : memory.window.contains addr.toNat with
      | true => simp [Store.admitted, hopen]
      | false => simp [Store.admitted, Store.rejection, Record.level, hopen, hplace]
    · rw [run_write_of_le (Nat.le_of_not_lt hplace), stores, if_neg hplace]
      rfl
  | note record next ih =>
    have hrest := ih h.2 memory
    rw [run, Attempt.after, List.filter_append, hrest]
    simp [stores, h.1]

end Bus

end Arcade8080
