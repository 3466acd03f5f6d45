import Arcade8080.Cpu.Call
import Arcade8080.Memory.Call
import Arcade8080.Memory.Lemmas

/-!
Memory as its history tells it: a map from the addresses below some bound to
bytes. The bound is what the latest call that made memory asked for, and each byte
is what the latest event that concerns it has put there since, or else what memory
was made with.
-/

namespace Arcade8080.Memory

open Cpu (Latest latest_cons not_latest_nil)

variable {memory : Memory} {call : Call} {calls : List Call} {addr size : Nat} {value : Byte}

/-- Memory before anything is in it. -/
def blank (window : Window) : Memory := { window, fits := fits_none }

theorem extent?_eq_some_iff :
    call.extent? = some size ↔ call.asked? = some size ∧ size ≤ limit := by
  simp [Call.extent?, Option.filter_eq_some_iff]

/-- A call that asks for memory makes it, or it does not come back. -/
theorem attempt_of_asked (memory : Memory) (h : call.asked? = some size) :
    (∃ after, memory.attempt call = some (.succeed () after) ∧
      call.extent? = some size ∧ memory.Made after size call.initial) ∨
    memory.attempt call = none ∧ limit < size ∧ call.extent? = none := by
  have hrefused (hlimit : limit < size) : call.extent? = none := by
    simp [Call.extent?, h, hlimit]
  cases call with
  | allocate count =>
    cases h
    rcases hmade : memory.allocate size with _ | after
    · have hlimit := allocate_eq_none_iff.mp hmade
      exact .inr ⟨by rw [attempt, hmade, Option.map_none], hlimit, hrefused hlimit⟩
    · exact .inl ⟨after, by rw [attempt, hmade, Option.map_some],
        extent?_eq_some_iff.mpr ⟨rfl, le_limit_of_allocate hmade⟩, made_of_allocate hmade⟩
  | loadImage image minimum =>
    cases h
    rcases hmade : memory.loadImage image minimum with _ | after
    · have hlimit := loadImage_eq_none_iff.mp hmade
      exact .inr ⟨by rw [attempt, hmade, Option.map_none], hlimit, hrefused hlimit⟩
    · exact .inl ⟨after, by rw [attempt, hmade, Option.map_some],
        extent?_eq_some_iff.mpr ⟨rfl, le_limit_of_loadImage hmade⟩, made_of_loadImage hmade⟩
  | patch | write | setWindow => cases h

/-- A call that makes memory replaces what there was. -/
theorem made_after (h : call.extent? = some size) :
    memory.Made (memory.after call) size call.initial := by
  rcases attempt_of_asked memory (extent?_eq_some_iff.mp h).1 with
    ⟨after, hattempt, _, hmade⟩ | ⟨_, _, hnone⟩
  · rw [Memory.after, hattempt]
    exact hmade
  · rw [hnone] at h
    cases h

/-- A call that asks for more memory than there can be changes nothing. -/
theorem after_of_refused (hasked : call.asked? = some size) (h : call.extent? = none) :
    memory.after call = memory := by
  rcases attempt_of_asked memory hasked with ⟨_, _, hsome, _⟩ | ⟨hattempt, _⟩
  · rw [h] at hsome
    cases hsome
  · rw [Memory.after, hattempt]
    rfl

theorem window?_of_asked? (h : call.asked? = some size) : call.window? = none := by
  cases call with
  | allocate | loadImage => rfl
  | patch | write | setWindow => cases h

theorem window?_of_extent? (h : call.extent? = some size) : call.window? = none :=
  window?_of_asked? (extent?_eq_some_iff.mp h).1

theorem window_after (memory : Memory) (call : Call) :
    (memory.after call).window = call.window?.getD memory.window := by
  cases hmade : call.extent? with
  | some size => rw [(made_after hmade).window, window?_of_extent? hmade, Option.getD_none]
  | none =>
    cases hasked : call.asked? with
    | some size =>
      rw [after_of_refused hasked hmade, window?_of_asked? hasked, Option.getD_none]
    | none =>
      cases call with
      | allocate | loadImage => cases hasked
      | setWindow => rfl
      | patch start bytes => exact window_patch memory start bytes
      | write addr value => exact window_write memory addr value

/-- A call that makes no memory keeps what there is of it. -/
theorem kept_after (h : call.extent? = none) :
    (memory.after call).isAllocated = memory.isAllocated ∧
      (memory.after call).size = memory.size := by
  cases hasked : call.asked? with
  | some size =>
    rw [after_of_refused hasked h]
    exact ⟨rfl, rfl⟩
  | none =>
    cases call with
    | allocate | loadImage => cases hasked
    | setWindow => exact ⟨rfl, rfl⟩
    | patch start bytes =>
      exact ⟨isAllocated_patch memory start bytes, size_patch memory start bytes⟩
    | write addr value =>
      exact ⟨isAllocated_write memory addr value, size_write memory addr value⟩

theorem isAllocated_after (memory : Memory) (call : Call) :
    (memory.after call).isAllocated = (memory.isAllocated || call.extent?.isSome) := by
  cases hmade : call.extent? with
  | some size => simp [(made_after hmade).isAllocated]
  | none => simp [kept_after hmade]

theorem size_after (memory : Memory) (call : Call) :
    (memory.after call).size = call.extent?.getD memory.size := by
  cases hmade : call.extent? with
  | some size => exact (made_after hmade).size
  | none => exact (kept_after hmade).2

/-- A call that makes no memory changes the bytes that its event says it stores. -/
theorem byte?_after_of_keeps (h : call.extent? = none) (haddr : addr < memory.size) :
    (memory.after call).byte? addr =
      ((Event.mk memory.window call).stored? memory.size addr).or (memory.byte? addr) := by
  cases call with
  | allocate count =>
    rw [after_of_refused rfl h]
    rfl
  | loadImage image minimum =>
    rw [after_of_refused rfl h]
    rfl
  | setWindow => rfl
  | patch start bytes =>
    refine (byte?_patch memory start bytes addr).trans ?_
    simp only [Event.stored?]
    by_cases hfits : start + bytes.size ≤ memory.size ∧ start ≤ addr
    · by_cases hwithin : addr < start + bytes.size
      · have hindex : addr - start < bytes.size := by omega
        simp [hfits, hwithin, hindex]
      · have hindex : bytes.size ≤ addr - start := by omega
        simp [hfits, hwithin, hindex]
    · rw [if_neg fun hall => hfits ⟨hall.1, hall.2.1⟩, if_neg hfits, Option.none_or]
  | write target stored =>
    refine (byte?_write memory target stored addr).trans ?_
    simp only [Event.stored?]
    by_cases hsame : target = addr
    · subst hsame
      by_cases hopen : memory.window.contains target = true
      · simp [haddr, hopen]
      · simp [hopen]
    · simp [hsame, Ne.symm hsame]

theorem window_afterAll (memory : Memory) (calls : List Call) :
    (memory.afterAll calls).window = windowAfter memory.window calls := by
  induction calls generalizing memory with
  | nil => rfl
  | cons call rest ih =>
    rw [afterAll_cons, ih, window_after]
    rfl

theorem isAllocated_afterAll (memory : Memory) (calls : List Call) :
    (memory.afterAll calls).isAllocated =
      (memory.isAllocated || calls.any fun call => call.extent?.isSome) := by
  induction calls generalizing memory with
  | nil => simp
  | cons call rest ih => rw [afterAll_cons, ih, isAllocated_after, List.any_cons, Bool.or_assoc]

theorem size_afterAll_of_keeps (h : ∀ call ∈ calls, call.extent? = none) :
    (memory.afterAll calls).size = memory.size := by
  induction calls generalizing memory with
  | nil => rfl
  | cons call rest ih =>
    obtain ⟨hcall, hrest⟩ := List.forall_mem_cons.mp h
    rw [afterAll_cons, ih hrest, size_after, hcall, Option.getD_none]

/-- While no memory is made, a byte is what the latest event that stores there has
put there, or else what it was. -/
theorem byte?_afterAll_eq_some_iff (h : ∀ call ∈ calls, call.extent? = none)
    (haddr : addr < memory.size) :
    (memory.afterAll calls).byte? addr = some value ↔
      Latest (Event.stored? memory.size addr) (history memory.window calls) value ∨
        (∀ event ∈ history memory.window calls, event.stored? memory.size addr = none) ∧
          memory.byte? addr = some value := by
  induction calls generalizing memory with
  | nil => simp [history, not_latest_nil]
  | cons call rest ih =>
    obtain ⟨hcall, hrest⟩ := List.forall_mem_cons.mp h
    have hsize : (memory.after call).size = memory.size := by
      rw [size_after, hcall, Option.getD_none]
    rw [afterAll_cons, ih hrest (hsize.symm ▸ haddr), hsize, window_after,
      byte?_after_of_keeps hcall haddr, history, latest_cons, List.forall_mem_cons]
    cases Event.stored? memory.size addr ⟨memory.window, call⟩ with
    | none => simp
    | some current => simp

/-- A byte of a memory that was made by one call and changed by those since. -/
theorem byte?_afterAll_of_made {made : Call} (hmade : made.extent? = some size)
    (h : ∀ call ∈ calls, call.extent? = none) (haddr : addr < size) :
    ((memory.after made).afterAll calls).byte? addr = some value ↔
      Latest (Event.stored? size addr) (history (made.window?.getD memory.window) calls) value ∨
        (∀ event ∈ history (made.window?.getD memory.window) calls,
          event.stored? size addr = none) ∧ made.initial addr = value := by
  have hsize : (memory.after made).size = size := by rw [size_after, hmade, Option.getD_some]
  rw [byte?_afterAll_eq_some_iff h (hsize.symm ▸ haddr), hsize, window_after,
    (made_after hmade).byte? addr haddr, Option.some.injEq]

/-- Nothing can be read as long as no call has made memory. -/
theorem read_afterAll_blank_eq_unallocated_iff {window : Window} :
    ((blank window).afterAll calls).read addr = .error .unallocated ↔
      ∀ call ∈ calls, call.extent? = none := by
  have hmade : ((blank window).afterAll calls).isAllocated =
      calls.any fun call => call.extent?.isSome := isAllocated_afterAll (blank window) calls
  rw [read_eq_error_iff]
  constructor
  · rintro ⟨_, hfault⟩
    rw [faultAt] at hfault
    split at hfault
    · cases hfault
    · rename_i hnone
      rw [hmade, List.any_eq_true] at hnone
      intro call hmem
      rw [← Option.not_isSome_iff_eq_none]
      exact fun hsome => hnone ⟨call, hmem, hsome⟩
  · intro hkeeps
    have hsize : ((blank window).afterAll calls).size = 0 := size_afterAll_of_keeps hkeeps
    have hunmade : ¬ ((blank window).afterAll calls).isAllocated = true := by
      rw [hmade, List.any_eq_true]
      rintro ⟨call, hmem, hsome⟩
      rw [hkeeps call hmem] at hsome
      cases hsome
    exact ⟨by omega, (if_neg hunmade).symm⟩

/-- What an operation on a memory can fail with. -/
inductive Reports (memory : Memory) (fault : Fault) : Prop where
  | read (addr : Nat) (h : memory.read addr = .error fault)
  | contents (h : memory.contents = .error fault)
  | slice (start count : Nat) (h : memory.slice start count = .error fault)
  | call (call : Call) (attempt : Attempt Memory Unit) (h : memory.attempt call = some attempt)
    (hresult : attempt.result = .error fault)

/-- The views of a memory show the bytes that reads give, ranges are all or nothing,
and faults name an address that memory does not have. What does not come back has asked
for more than there can be. -/
structure Serves (memory : Memory) : Prop where
  returns : ∀ call, memory.attempt call = none ↔ ∃ count, call.asked? = some count ∧ limit < count
  contents : (∃ bytes, memory.contents = .ok bytes) ↔ memory.isAllocated = true
  contents_bytes : ∀ bytes, memory.contents = .ok bytes →
    ∀ addr value, bytes[addr]? = some value ↔ memory.read addr = .ok value
  slice : ∀ start count,
    (∃ bytes, memory.slice start count = .ok bytes) ↔ memory.Spans start count
  slice_bytes : ∀ start count bytes, memory.slice start count = .ok bytes →
    bytes.size = count ∧ ∀ index < count, ∀ value,
      bytes[index]? = some value ↔ memory.read (start + index) = .ok value
  patch : ∀ start bytes,
    (memory.patch start bytes).result = .ok () ↔ memory.Spans start bytes.size
  intact : ∀ call attempt fault, memory.attempt call = some attempt →
    attempt.result = .error fault → attempt.state = memory
  outside : ∀ addr size, memory.Reports (.outOfBounds addr size) →
    size = memory.size ∧ memory.size ≤ addr

theorem attempt_eq_none_iff :
    memory.attempt call = none ↔ ∃ count, call.asked? = some count ∧ limit < count := by
  cases hasked : call.asked? with
  | some size =>
    rcases attempt_of_asked memory hasked with ⟨after, hattempt, hmade, _⟩ | ⟨hattempt, hlimit, _⟩
    · have hsize : ¬ limit < size := Nat.not_lt.mpr (extent?_eq_some_iff.mp hmade).2
      simp [hattempt, hsize]
    · simp [hattempt, hlimit]
  | none =>
    cases call with
    | allocate | loadImage => cases hasked
    | patch | write | setWindow => simp [attempt]

/-- Only a patch or a store comes back with a fault. -/
theorem fault_cases {attempt : Attempt Memory Unit} {fault : Fault}
    (h : memory.attempt call = some attempt) (hresult : attempt.result = .error fault) :
    (∃ start bytes, attempt = memory.patch start bytes) ∨
      ∃ addr value, attempt = memory.write addr value := by
  cases hasked : call.asked? with
  | some size =>
    rcases attempt_of_asked memory hasked with ⟨after, hattempt, _⟩ | ⟨hattempt, _⟩
    · rw [hattempt] at h
      cases h
      cases hresult
    · rw [hattempt] at h
      cases h
  | none =>
    cases call with
    | allocate | loadImage => cases hasked
    | setWindow window =>
      cases h
      cases hresult
    | patch start bytes => exact .inl ⟨start, bytes, (Option.some.inj h).symm⟩
    | write addr value => exact .inr ⟨addr, value, (Option.some.inj h).symm⟩

theorem state_eq_of_error {attempt : Attempt Memory Unit} {fault : Fault}
    (h : memory.attempt call = some attempt) (hresult : attempt.result = .error fault) :
    attempt.state = memory := by
  rcases fault_cases h hresult with ⟨start, bytes, rfl⟩ | ⟨addr, value, rfl⟩
  · exact state_patch_of_not (result_patch_eq_error_iff.mp hresult).1
  · have hpast : memory.size ≤ addr := (result_write_eq_error_iff.mp hresult).1
    apply state_write_of_not
    rintro ⟨hsize, _⟩
    omega

theorem outside_of_faultAt {other : Nat} (h : .outOfBounds other size = memory.faultAt addr)
    (hpast : memory.size ≤ addr) : size = memory.size ∧ memory.size ≤ other := by
  rw [faultAt] at h
  split at h
  · cases h
    exact ⟨rfl, hpast⟩
  · cases h

/-- A range that is not all there ends past the end of memory, or begins there. Where the
host cannot name its last byte, memory does not reach to the address that is named
instead. -/
theorem outside_of_faultPast {start count : Nat} (hspans : ¬ memory.Spans start count)
    (h : .outOfBounds addr size = memory.faultPast start count) :
    size = memory.size ∧ memory.size ≤ addr := by
  rw [faultPast] at h
  split at h
  · rename_i hmade
    cases h
    have hpast : memory.size < start + count := Nat.lt_of_not_le fun hle => hspans ⟨hmade, hle⟩
    have hlast : memory.size ≤ Address.last := Nat.le_trans memory.size_le_limit (by decide)
    exact ⟨rfl, by omega⟩
  · cases h

theorem Reports.outside (h : memory.Reports (.outOfBounds addr size)) :
    size = memory.size ∧ memory.size ≤ addr := by
  cases h with
  | read asked h =>
    obtain ⟨hpast, hfault⟩ := read_eq_error_iff.mp h
    exact outside_of_faultAt hfault hpast
  | contents h =>
    rw [Memory.contents] at h
    split at h <;> cases h
  | slice start count h =>
    obtain ⟨hspans, hfault⟩ := slice_eq_error_iff.mp h
    exact outside_of_faultPast hspans hfault
  | call call attempt h hresult =>
    rcases fault_cases h hresult with ⟨start, bytes, rfl⟩ | ⟨asked, value, rfl⟩
    · obtain ⟨hspans, hfault⟩ := result_patch_eq_error_iff.mp hresult
      exact outside_of_faultPast hspans hfault
    · obtain ⟨hpast, hfault⟩ := result_write_eq_error_iff.mp hresult
      exact outside_of_faultAt hfault hpast

theorem serves (memory : Memory) : memory.Serves where
  returns := fun call => attempt_eq_none_iff
  contents := by
    obtain ⟨_ | cells, window⟩ := memory <;> simp [Memory.contents, isAllocated]
  contents_bytes := by
    intro bytes h addr value
    rw [(contents_eq_ok_iff.mp h).2 addr, read_eq_ok_iff]
  slice := by
    intro start count
    cases h : memory.slice start count with
    | ok bytes => simp [(slice_eq_ok_iff.mp h).1]
    | error fault => simp [(slice_eq_error_iff.mp h).1]
  slice_bytes := by
    intro start count bytes h
    obtain ⟨_, hcount, hbytes⟩ := slice_eq_ok_iff.mp h
    refine ⟨hcount, fun index hindex value => ?_⟩
    rw [hbytes index hindex, read_eq_ok_iff]
  patch := fun start bytes => result_patch_eq_ok_iff
  intact := fun call attempt fault => state_eq_of_error
  outside := fun addr size h => h.outside

/-- After any calls, memory is what they say. Until one makes memory, nothing can be
read. Afterwards its size is what the latest of these asked for, and a read below that
size gives what the latest patch or admitted store since then has put at the address,
or else what memory was made with. At all times the views agree with the reads, a
range is served where memory has all of it, a call that fails leaves everything as it
was, and a fault names the size of memory and an address past it. -/
theorem memory_follows_its_calls :
    (∀ (window : Window) (calls : List Call),
      let memory := (blank window).afterAll calls
      memory.window = windowAfter window calls ∧
      (∀ addr, memory.read addr = .error .unallocated ↔ ∀ call ∈ calls, call.extent? = none) ∧
      ∀ earlier made since size, calls = earlier ++ made :: since → made.extent? = some size →
        (∀ call ∈ since, call.extent? = none) →
          memory.isAllocated = true ∧ memory.size = size ∧
          (∀ addr fault, memory.read addr = .error fault ↔
            size ≤ addr ∧ fault = .outOfBounds addr size) ∧
          ∀ addr < size, ∀ value, memory.read addr = .ok value ↔
            Latest (Event.stored? size addr) (history (windowAfter window earlier) since) value ∨
            (∀ event ∈ history (windowAfter window earlier) since,
              event.stored? size addr = none) ∧ made.initial addr = value) ∧
    ∀ memory : Memory, memory.Serves := by
  refine ⟨?_, serves⟩
  intro window calls memory
  refine ⟨window_afterAll _ _, fun addr => read_afterAll_blank_eq_unallocated_iff, ?_⟩
  intro earlier made since size hsplit hmade hkeeps
  have hmemory : memory = (((blank window).afterAll earlier).after made).afterAll since := by
    rw [← afterAll_cons, ← afterAll_append, ← hsplit]
  have hwindow : made.window?.getD ((blank window).afterAll earlier).window =
      windowAfter window earlier := by
    rw [window?_of_extent? hmade, Option.getD_none, window_afterAll]
    rfl
  have hsize : memory.size = size := by
    rw [hmemory, size_afterAll_of_keeps hkeeps, size_after, hmade, Option.getD_some]
  have hallocated : memory.isAllocated = true := by
    rw [hmemory, isAllocated_afterAll, isAllocated_after, hmade]
    simp
  refine ⟨hallocated, hsize, ?_, ?_⟩
  · intro addr fault
    rw [read_eq_error_iff, faultAt, if_pos hallocated, hsize]
  · intro addr haddr value
    rw [read_eq_ok_iff, hmemory, byte?_afterAll_of_made hmade hkeeps haddr, hwindow]

/-- An image in four bytes, of which a window opens the middle two, and attempts to
change all of them. -/
def remade : List Call :=
  [.allocate 9, .loadImage #[9, 8] 4, .setWindow ⟨1, 3⟩, .patch 0 #[1, 2], .write 1 7,
    .write 3 5, .patch 3 #[6, 6]]

/-- The patch shows at address 0 and the store over it at address 1. The last byte is
still the zero that it began as: the store missed the window and the patch did not fit.
An empty range at the end is served, but not one of which the sum of start and count is 1
where addresses are counted in 64 bits, and an allocation one byte too large does not come
back. -/
theorem memory_follows_its_calls_of_remade :
    let memory := (blank .arcade).afterAll remade
    memory.size = 4 ∧ memory.read 0 = .ok 1 ∧ memory.read 1 = .ok 7 ∧ memory.read 3 = .ok 0 ∧
      memory.read 4 = .error (.outOfBounds 4 4) ∧
      memory.after (.patch 3 #[6, 6]) = memory ∧ memory.size ≤ 4 ∧
      (∃ bytes, memory.slice 4 0 = .ok bytes) ∧
      (¬ ∃ bytes, memory.slice 0xFFFFFFFFFFFFFFFF 2 = .ok bytes) ∧
      memory.attempt (.allocate 0x8000000000000000) = none := by
  intro memory
  obtain ⟨hallocated, hsize, herror, hbyte⟩ :=
    (memory_follows_its_calls.1 .arcade remade).2.2 [.allocate 9] (.loadImage #[9, 8] 4)
      [.setWindow ⟨1, 3⟩, .patch 0 #[1, 2], .write 1 7, .write 3 5, .patch 3 #[6, 6]] 4
      rfl rfl (by decide)
  have hserves := memory_follows_its_calls.2 memory
  have hpast := (herror 4 _).mpr ⟨Nat.le_refl 4, rfl⟩
  refine ⟨hsize, ?_, ?_, ?_, hpast, hserves.intact (.patch 3 #[6, 6]) _ _ rfl rfl, ?_, ?_, ?_, ?_⟩
  · rw [hbyte 0 (by decide)]
    exact .inl ⟨[⟨.arcade, .setWindow ⟨1, 3⟩⟩], ⟨⟨1, 3⟩, .patch 0 #[1, 2]⟩, _, rfl, rfl, by decide⟩
  · rw [hbyte 1 (by decide)]
    exact .inl ⟨[⟨.arcade, .setWindow ⟨1, 3⟩⟩, ⟨⟨1, 3⟩, .patch 0 #[1, 2]⟩],
      ⟨⟨1, 3⟩, .write 1 7⟩, _, rfl, rfl, by decide⟩
  · rw [hbyte 3 (by decide)]
    exact .inr ⟨by decide, rfl⟩
  · exact (hserves.outside 4 4 (.read 4 hpast)).2
  · exact (hserves.slice 4 0).mpr ⟨hallocated, Nat.le_of_eq hsize.symm⟩
  · rw [hserves.slice]
    rintro ⟨_, hspan⟩
    have hfour : memory.size = 4 := hsize
    omega
  · exact (hserves.returns _).mpr ⟨0x8000000000000000, rfl, by decide⟩

end Arcade8080.Memory
