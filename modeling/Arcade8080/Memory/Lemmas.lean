import Arcade8080.Memory

/-!
What each operation does to the size of memory, to its window and to the byte at
an address. After these, `byte?` is all that needs to be known about memory.
-/

namespace Arcade8080.Memory

/-- There is a byte exactly at the addresses below the size. -/
theorem isSome_byte? (memory : Memory) (addr : Nat) :
    (memory.byte? addr).isSome = decide (addr < memory.size) := by
  obtain ⟨_ | cells, window⟩ := memory
  · simp [byte?, size]
  · by_cases h : addr < cells.size <;> simp [byte?, size, h]

theorem byte?_eq_none_iff {memory : Memory} {addr : Nat} :
    memory.byte? addr = none ↔ memory.size ≤ addr := by
  rw [← Option.isNone_iff_eq_none, ← Option.not_isSome, isSome_byte?]
  simp

theorem exists_byte?_of_lt {memory : Memory} {addr : Nat} (h : addr < memory.size) :
    ∃ value, memory.byte? addr = some value := by
  rw [← Option.isSome_iff_exists, isSome_byte?]
  exact decide_eq_true h

/-- A read gives the byte that is there. -/
theorem read_eq_ok_iff {memory : Memory} {addr : Nat} {value : Byte} :
    memory.read addr = .ok value ↔ memory.byte? addr = some value := by
  obtain ⟨_ | cells, window⟩ := memory
  · simp [read, byte?]
  · by_cases h : addr < cells.size <;> simp [read, byte?, h]

/-- The fault of an access at an address without a byte. -/
def faultAt (memory : Memory) (addr : Nat) : Fault :=
  if memory.isAllocated then .outOfBounds addr memory.size else .unallocated

theorem faultAt_of_lt {memory : Memory} {other : Nat} (h : other < memory.size) (addr : Nat) :
    memory.faultAt addr = .outOfBounds addr memory.size := by
  obtain ⟨_ | cells, window⟩ := memory
  · cases h
  · rfl

theorem read_eq_error_iff {memory : Memory} {addr : Nat} {fault : Fault} :
    memory.read addr = .error fault ↔ memory.size ≤ addr ∧ fault = memory.faultAt addr := by
  obtain ⟨_ | cells, window⟩ := memory
  · simp [read, size, faultAt, isAllocated, eq_comm]
  · by_cases h : addr < cells.size
    · have : ¬ cells.size ≤ addr := by omega
      simp [read, size, h, this]
    · have : cells.size ≤ addr := by omega
      simp [read, size, faultAt, isAllocated, h, this, eq_comm]

theorem lt_size_of_read {memory : Memory} {addr : Nat} {value : Byte}
    (h : memory.read addr = .ok value) : addr < memory.size := by
  have hbyte := memory.isSome_byte? addr
  rw [read_eq_ok_iff.mp h] at hbyte
  exact of_decide_eq_true hbyte.symm

/-- There is nothing more to a memory than whether there is one, its bytes and its window. -/
theorem eq_of_byte? {first second : Memory} (hallocated : second.isAllocated = first.isAllocated)
    (hwindow : second.window = first.window)
    (hbyte : ∀ addr, second.byte? addr = first.byte? addr) : second = first := by
  obtain ⟨cells, window⟩ := first
  obtain ⟨others, other⟩ := second
  cases hwindow
  cases cells with
  | none =>
    cases others with
    | none => rfl
    | some others => cases hallocated
  | some cells =>
    cases others with
    | none => cases hallocated
    | some others =>
      obtain rfl : others = cells := Array.ext_getElem? hbyte
      rfl

/-- Memory of some size that was made in place of another one, behind the same window. -/
structure Made (before after : Memory) (count : Nat) (initial : Nat → Byte) : Prop where
  isAllocated : after.isAllocated = true
  size : after.size = count
  window : after.window = before.window
  byte? : ∀ addr < count, after.byte? addr = some (initial addr)

section Allocation

variable {memory after : Memory} {image : Array Byte} {count minimum : Nat}

theorem allocate_eq_none_iff : memory.allocate count = none ↔ limit < count := by
  simp only [allocate, dite_eq_right_iff, reduceCtorEq, imp_false, Nat.not_le]

theorem le_limit_of_allocate (h : memory.allocate count = some after) : count ≤ limit := by
  refine Nat.le_of_not_lt fun hlimit => ?_
  rw [allocate_eq_none_iff.mpr hlimit] at h
  cases h

theorem made_of_allocate (h : memory.allocate count = some after) :
    memory.Made after count fun _ => 0 := by
  simp only [allocate, Option.dite_none_right_eq_some, Option.some.injEq] at h
  obtain ⟨_, rfl⟩ := h
  constructor
  case isAllocated | window => rfl
  case size => exact Array.size_replicate
  case byte? =>
    intro addr haddr
    exact Array.getElem?_replicate.trans (if_pos haddr)

theorem loadImage_eq_none_iff :
    memory.loadImage image minimum = none ↔ limit < max image.size minimum := by
  simp only [loadImage, dite_eq_right_iff, reduceCtorEq, imp_false, Nat.not_le]

theorem le_limit_of_loadImage (h : memory.loadImage image minimum = some after) :
    max image.size minimum ≤ limit := by
  refine Nat.le_of_not_lt fun hlimit => ?_
  rw [loadImage_eq_none_iff.mpr hlimit] at h
  cases h

/-- The image, then zeros up to the minimum size. -/
theorem made_of_loadImage (h : memory.loadImage image minimum = some after) :
    memory.Made after (max image.size minimum) fun addr => image[addr]?.getD 0 := by
  simp only [loadImage, Option.dite_none_right_eq_some, Option.some.injEq] at h
  obtain ⟨_, rfl⟩ := h
  constructor
  case isAllocated | window => rfl
  case size =>
    simp only [Memory.size, Array.size_append, Array.size_replicate]
    omega
  case byte? =>
    intro addr haddr
    simp only [Memory.byte?, Array.getElem?_append, Array.getElem?_replicate]
    by_cases himage : addr < image.size
    · simp [himage]
    · have hzero : addr - image.size < minimum - image.size := by omega
      simp [himage, hzero]

/-- Nothing of what memory was before shows in what an image makes of it, but the window. -/
theorem loadImage_congr {other : Memory} (h : other.window = memory.window) (image : Array Byte)
    (minimum : Nat) : other.loadImage image minimum = memory.loadImage image minimum := by
  simp only [loadImage, h]

end Allocation

@[simp] theorem window_write (memory : Memory) (addr : Nat) (value : Byte) :
    (memory.write addr value).state.window = memory.window := by
  obtain ⟨_ | cells, window⟩ := memory
  · rfl
  · simp only [write]
    split
    · split <;> rfl
    · rfl

@[simp] theorem size_write (memory : Memory) (addr : Nat) (value : Byte) :
    (memory.write addr value).state.size = memory.size := by
  obtain ⟨_ | cells, window⟩ := memory
  · rfl
  · simp only [write]
    split
    · split <;> simp [Attempt.succeed, size]
    · rfl

@[simp] theorem isAllocated_write (memory : Memory) (addr : Nat) (value : Byte) :
    (memory.write addr value).state.isAllocated = memory.isAllocated := by
  obtain ⟨_ | cells, window⟩ := memory
  · rfl
  · simp only [write]
    split
    · split <;> rfl
    · rfl

/-- A store fails exactly where there is no byte. The window does not matter. -/
theorem result_write (memory : Memory) (addr : Nat) (value : Byte) :
    (memory.write addr value).result =
      if addr < memory.size then .ok () else .error (memory.faultAt addr) := by
  obtain ⟨_ | cells, window⟩ := memory
  · rfl
  · by_cases hsize : addr < cells.size
    · by_cases hopen : window.contains addr = true <;>
        simp [write, Attempt.succeed, size, hsize, hopen]
    · simp [write, Attempt.fail, size, faultAt, isAllocated, hsize]

theorem result_write_eq_ok_iff {memory : Memory} {addr : Nat} {value : Byte} {ended : Unit} :
    (memory.write addr value).result = .ok ended ↔ addr < memory.size := by
  rw [result_write]
  split <;> simp [*]

theorem result_write_eq_error_iff {memory : Memory} {addr : Nat} {value : Byte} {fault : Fault} :
    (memory.write addr value).result = .error fault ↔
      memory.size ≤ addr ∧ fault = memory.faultAt addr := by
  rw [result_write]
  by_cases h : addr < memory.size
  · have hnot : ¬ memory.size ≤ addr := by omega
    simp [h, hnot]
  · have hpast : memory.size ≤ addr := by omega
    simp [h, hpast, eq_comm]

/-- A store that is dropped is recorded, and nothing else is. -/
theorem records_write (memory : Memory) (addr : Nat) (value : Byte) :
    (memory.write addr value).records =
      if addr < memory.size ∧ memory.window.contains addr = false
      then [.rejectedStore value addr memory.window] else [] := by
  obtain ⟨_ | cells, window⟩ := memory
  · rfl
  · by_cases hsize : addr < cells.size
    · cases hopen : window.contains addr <;>
        simp [write, Attempt.succeed, size, hsize, hopen]
    · simp [write, Attempt.fail, size, hsize]

/-- A store without effect: there is no byte, or the window is closed there. -/
theorem state_write_of_not {memory : Memory} {addr : Nat} (value : Byte)
    (h : ¬ (addr < memory.size ∧ memory.window.contains addr = true)) :
    (memory.write addr value).state = memory := by
  obtain ⟨_ | cells, window⟩ := memory
  · rfl
  · by_cases hsize : addr < cells.size
    · have hclosed : ¬ window.contains addr = true := fun hopen => h ⟨hsize, hopen⟩
      simp [write, hsize, hclosed]
    · simp [write, Attempt.fail, hsize]

/-- A store changes the byte at its own address, if memory reaches that far and
the window is open there, and no other. -/
theorem byte?_write (memory : Memory) (addr : Nat) (value : Byte) (other : Nat) :
    (memory.write addr value).state.byte? other =
      if other = addr ∧ addr < memory.size ∧ memory.window.contains addr = true
      then some value else memory.byte? other := by
  obtain ⟨_ | cells, window⟩ := memory
  · simp [write, Attempt.fail, byte?, size]
  · by_cases hsize : addr < cells.size
    · by_cases hopen : window.contains addr = true
      · by_cases hother : other = addr
        · subst hother
          simp [write, Attempt.succeed, byte?, size, hsize, hopen]
        · simp [write, Attempt.succeed, byte?, hsize, hopen, hother, Ne.symm hother]
      · simp [write, byte?, hsize, hopen]
    · simp [write, Attempt.fail, byte?, size, hsize]

/-- A slice by the unbounded sum of its start and its length. -/
theorem slice_eq (memory : Memory) (start count : Nat) :
    memory.slice start count =
      match memory.cells with
      | none => .error .unallocated
      | some cells =>
        if start + count ≤ cells.size then .ok (cells.extract start (start + count))
        else .error (.pastEnd start count cells.size) := by
  obtain ⟨_ | cells, window, fits⟩ := memory
  · rfl
  · have hlimit : cells.size ≤ limit := fits
    simp only [slice, rangeEnd?_eq_of_le hlimit]
    by_cases hsum : start + count ≤ cells.size <;> simp [hsum]

section Patch

variable {cells bytes : Array Byte} {start : Nat} (window : Window) (fits : cells.size ≤ limit)

theorem patch_of_le (h : start + bytes.size ≤ cells.size) :
    ∃ kept, patch ⟨some cells, window, fits⟩ start bytes =
      .succeed () ⟨some (patched cells start bytes), window, kept⟩ := by
  have hend := rangeEnd?_eq_of_le fits start bytes.size
  rw [if_pos h] at hend
  refine ⟨by simpa [size_patched hend] using fits, ?_⟩
  simp only [patch]
  split
  · rfl
  · rename_i hnone
    rw [hend] at hnone
    cases hnone

theorem patch_of_lt (h : cells.size < start + bytes.size) :
    patch ⟨some cells, window, fits⟩ start bytes =
      .fail (.pastEnd start bytes.size cells.size) ⟨some cells, window, fits⟩ := by
  have hend := rangeEnd?_eq_of_le fits start bytes.size
  rw [if_neg (Nat.not_le.mpr h)] at hend
  simp only [patch]
  split
  · rename_i hsome
    rw [hend] at hsome
    cases hsome
  · rfl

end Patch

/-- There is memory, and it has `count` bytes from an address up. -/
def Spans (memory : Memory) (start count : Nat) : Prop :=
  memory.isAllocated = true ∧ start + count ≤ memory.size

/-- The fault of reaching for bytes from an address up that are not all there. -/
def faultPast (memory : Memory) (start count : Nat) : Fault :=
  if memory.isAllocated then .pastEnd start count memory.size else .unallocated

theorem contents_eq_ok_iff {memory : Memory} {bytes : Array Byte} :
    memory.contents = .ok bytes ↔
      memory.isAllocated = true ∧ ∀ addr, bytes[addr]? = memory.byte? addr := by
  obtain ⟨_ | cells, window⟩ := memory
  · simp [contents, isAllocated]
  · simp only [contents, isAllocated, byte?, Option.isSome_some, true_and, Except.ok.injEq]
    constructor
    · rintro rfl addr
      rfl
    · intro h
      exact Array.ext_getElem? (fun addr => (h addr).symm)

/-- A slice gives the bytes that are there, where all of them are. -/
theorem slice_eq_ok_iff {memory : Memory} {start count : Nat} {bytes : Array Byte} :
    memory.slice start count = .ok bytes ↔
      memory.Spans start count ∧ bytes.size = count ∧
        ∀ index < count, bytes[index]? = memory.byte? (start + index) := by
  rw [slice_eq]
  obtain ⟨_ | cells, window⟩ := memory
  · simp [Spans, isAllocated]
  · by_cases hfits : start + count ≤ cells.size
    · simp only [Spans, isAllocated, size, byte?, hfits, if_true, Option.isSome_some,
        true_and, Except.ok.injEq]
      constructor
      · rintro rfl
        refine ⟨by simp; omega, ?_⟩
        intro index hindex
        simp [Array.getElem?_extract]
        omega
      · rintro ⟨rfl, hbytes⟩
        apply Array.ext_getElem?
        intro index
        by_cases hindex : index < bytes.size
        · rw [hbytes index hindex]
          simp [Array.getElem?_extract]
          omega
        · rw [Array.getElem?_eq_none (by simp; omega), Array.getElem?_eq_none (by omega)]
    · simp [Spans, size, hfits]

theorem slice_eq_error_iff {memory : Memory} {start count : Nat} {fault : Fault} :
    memory.slice start count = .error fault ↔
      ¬ memory.Spans start count ∧ fault = memory.faultPast start count := by
  rw [slice_eq]
  obtain ⟨_ | cells, window⟩ := memory
  · simp [Spans, isAllocated, faultPast, eq_comm]
  · by_cases hfits : start + count ≤ cells.size <;>
      simp [Spans, isAllocated, size, faultPast, hfits, eq_comm]

/-- A patch that fits puts its bytes there, and one that does not leaves memory alone. -/
theorem patch_cases (memory : Memory) (start : Nat) (bytes : Array Byte) :
    (memory.Spans start bytes.size ∧ ∃ cells after, memory.cells = some cells ∧
      memory.patch start bytes = .succeed () after ∧
      after.cells = some (patched cells start bytes) ∧ after.window = memory.window) ∨
    ¬ memory.Spans start bytes.size ∧
      memory.patch start bytes = .fail (memory.faultPast start bytes.size) memory := by
  obtain ⟨_ | cells, window, fits⟩ := memory
  · exact .inr ⟨fun hspans => Bool.noConfusion hspans.1, rfl⟩
  · by_cases hsum : start + bytes.size ≤ cells.size
    · obtain ⟨kept, hpatch⟩ := patch_of_le window fits hsum
      exact .inl ⟨⟨rfl, hsum⟩, cells, _, rfl, hpatch, rfl, rfl⟩
    · exact .inr ⟨fun h => hsum h.2, patch_of_lt window fits (Nat.lt_of_not_le hsum)⟩

theorem result_patch_eq_ok_iff {memory : Memory} {start : Nat} {bytes : Array Byte}
    {ended : Unit} :
    (memory.patch start bytes).result = .ok ended ↔ memory.Spans start bytes.size := by
  rcases memory.patch_cases start bytes with ⟨hspans, _, _, _, hpatch, _⟩ | ⟨hspans, hpatch⟩ <;>
    simp [hpatch, hspans, Attempt.succeed, Attempt.fail]

theorem result_patch_eq_error_iff {memory : Memory} {start : Nat} {bytes : Array Byte}
    {fault : Fault} :
    (memory.patch start bytes).result = .error fault ↔
      ¬ memory.Spans start bytes.size ∧ fault = memory.faultPast start bytes.size := by
  rcases memory.patch_cases start bytes with ⟨hspans, _, _, _, hpatch, _⟩ | ⟨hspans, hpatch⟩ <;>
    simp [hpatch, hspans, Attempt.succeed, Attempt.fail, eq_comm]

/-- A patch that does not fit leaves memory alone. -/
theorem state_patch_of_not {memory : Memory} {start : Nat} {bytes : Array Byte}
    (h : ¬ memory.Spans start bytes.size) : (memory.patch start bytes).state = memory := by
  rcases memory.patch_cases start bytes with ⟨hspans, _⟩ | ⟨_, hpatch⟩
  · exact absurd hspans h
  · rw [hpatch]
    rfl

@[simp] theorem window_patch (memory : Memory) (start : Nat) (bytes : Array Byte) :
    (memory.patch start bytes).state.window = memory.window := by
  rcases memory.patch_cases start bytes with ⟨_, _, _, _, hpatch, _, hwindow⟩ | ⟨hspans, _⟩
  · rw [hpatch]
    exact hwindow
  · rw [state_patch_of_not hspans]

@[simp] theorem isAllocated_patch (memory : Memory) (start : Nat) (bytes : Array Byte) :
    (memory.patch start bytes).state.isAllocated = memory.isAllocated := by
  rcases memory.patch_cases start bytes with
    ⟨_, cells, after, hcells, hpatch, hafter, _⟩ | ⟨hspans, _⟩
  · have hthere : memory.isAllocated = true := congrArg Option.isSome hcells
    rw [hpatch, hthere]
    exact congrArg Option.isSome hafter
  · rw [state_patch_of_not hspans]

/-- A patch that fits puts its bytes there, whatever the window. -/
theorem byte?_patch (memory : Memory) (start : Nat) (bytes : Array Byte) (addr : Nat) :
    (memory.patch start bytes).state.byte? addr =
      if start + bytes.size ≤ memory.size ∧ start ≤ addr ∧ addr < start + bytes.size
      then bytes[addr - start]? else memory.byte? addr := by
  obtain ⟨_ | cells, window, fits⟩ := memory
  · rw [if_neg (by simp only [size]; omega)]
    rfl
  · by_cases hfits : start + bytes.size ≤ cells.size
    · obtain ⟨kept, hpatch⟩ := patch_of_le window fits hfits
      simp only [hpatch, patched, hfits, Attempt.succeed, byte?, size, true_and,
        Array.getElem?_append, Array.size_append, Array.size_extract, Array.getElem?_extract]
      have hstart : min start cells.size - 0 = start := by omega
      rw [hstart]
      by_cases hbelow : addr < start
      · have hbefore : addr < start + bytes.size := by omega
        have hnot : ¬ start ≤ addr := by omega
        simp [hbelow, hbefore, hnot]
      · by_cases hwithin : addr < start + bytes.size
        · have hfrom : start ≤ addr := by omega
          simp [hbelow, hwithin, hfrom]
        · have hback : start + bytes.size + (addr - (start + bytes.size)) = addr := by omega
          simp only [hwithin, if_false, and_false, hback, Nat.min_self]
          split
          · rfl
          · exact (Array.getElem?_eq_none (by omega)).symm
    · rw [patch_of_lt window fits (Nat.lt_of_not_le hfits), if_neg fun hall => hfits hall.1]
      rfl

@[simp] theorem size_patch (memory : Memory) (start : Nat) (bytes : Array Byte) :
    (memory.patch start bytes).state.size = memory.size := by
  obtain ⟨_ | cells, window, fits⟩ := memory
  · rfl
  · by_cases hfits : start + bytes.size ≤ cells.size
    · obtain ⟨kept, hpatch⟩ := patch_of_le window fits hfits
      simp only [hpatch, patched, Attempt.succeed, size, Array.size_append, Array.size_extract]
      omega
    · rw [patch_of_lt window fits (Nat.lt_of_not_le hfits)]
      rfl

end Arcade8080.Memory
