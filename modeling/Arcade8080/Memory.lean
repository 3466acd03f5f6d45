import Arcade8080.Attempt

/-!
Flat memory behind a write window. There are no bytes until memory is
allocated, and addresses past its end fail instead of wrapping. Processor
stores go through the window, loaders do not.

No allocation is larger than `Memory.limit`. To ask for a larger one is no fault
that a program could handle but the end of it, so what allocates has no result
there. A memory carries the proof that it keeps to the limit.
-/

namespace Arcade8080

/-- The most bytes that one allocation has, on a host that counts them with a sign. -/
def Memory.limit : Nat := 0x7FFFFFFFFFFFFFFF

structure Memory where
  /-- The bytes from address 0 up, once there are any. -/
  cells : Option (Array Byte) := none
  window : Window := .arcade
  fits : cells.elim 0 Array.size ≤ Memory.limit := by decide

namespace Memory

theorem fits_none : (none : Option (Array Byte)).elim 0 Array.size ≤ limit := Nat.zero_le limit

theorem fits_replicate {count : Nat} (h : count ≤ limit) (value : Byte) :
    (some (Array.replicate count value)).elim 0 Array.size ≤ limit := by
  rwa [Option.elim_some, Array.size_replicate]

def isAllocated (memory : Memory) : Bool := memory.cells.isSome

/-- How many bytes there are, 0 before any are allocated. -/
def size (memory : Memory) : Nat :=
  match memory.cells with
  | none => 0
  | some cells => cells.size

theorem size_le_limit (memory : Memory) : memory.size ≤ limit := by
  obtain ⟨_ | cells, window, fits⟩ := memory <;> exact fits

/-- The byte at an address, where there is one. -/
def byte? (memory : Memory) (addr : Nat) : Option Byte :=
  match memory.cells with
  | none => none
  | some cells => cells[addr]?

/-- Replaces what there was by `size` zeros. -/
def allocate (memory : Memory) (size : Nat) : Option Memory :=
  if h : size ≤ limit then
    some { memory with
      cells := some (Array.replicate size 0)
      fits := fits_replicate h 0 }
  else none

/-- Replaces what there was by an image, with zeros after it where the image is
shorter than `minimum`. -/
def loadImage (memory : Memory) (image : Array Byte) (minimum : Nat) : Option Memory :=
  if h : max image.size minimum ≤ limit then
    some { memory with
      cells := some (image ++ Array.replicate (minimum - image.size) 0)
      fits := by
        simp only [Option.elim_some, Array.size_append, Array.size_replicate]
        omega }
  else none

/-- All bytes from address 0 up. -/
def contents (memory : Memory) : Except Fault (Array Byte) :=
  match memory.cells with
  | none => .error .unallocated
  | some cells => .ok cells

/-- The end of a range of addresses, where the host can name it and `size` bytes reach
that far. -/
def rangeEnd? (start count size : Nat) : Option Nat :=
  (Address.add? start count).filter (· ≤ size)

theorem rangeEnd?_eq_some_iff {start count size stop : Nat} :
    rangeEnd? start count size = some stop ↔
      stop = start + count ∧ stop ≤ Address.last ∧ stop ≤ size := by
  simp only [rangeEnd?, Address.add?, Option.filter_eq_some_iff, Option.ite_none_right_eq_some,
    Option.some.injEq, decide_eq_true_eq]
  constructor
  · rintro ⟨⟨hlast, rfl⟩, hsize⟩
    exact ⟨rfl, hlast, hsize⟩
  · rintro ⟨rfl, hlast, hsize⟩
    exact ⟨⟨hlast, rfl⟩, hsize⟩

/-- In what memory has there is no address that a host cannot name, so there the sum
might as well be unbounded. -/
theorem rangeEnd?_eq_of_le {size : Nat} (h : size ≤ limit) (start count : Nat) :
    rangeEnd? start count size = if start + count ≤ size then some (start + count) else none := by
  have hlimit : limit ≤ Address.last := by decide
  split
  · rename_i hsum
    exact rangeEnd?_eq_some_iff.mpr ⟨rfl, by omega, hsum⟩
  · rename_i hsum
    rw [Option.eq_none_iff_forall_ne_some]
    intro stop hstop
    obtain ⟨rfl, _, hle⟩ := rangeEnd?_eq_some_iff.mp hstop
    exact hsum hle

def slice (memory : Memory) (start count : Nat) : Except Fault (Array Byte) :=
  match memory.cells with
  | none => .error .unallocated
  | some cells =>
    match rangeEnd? start count cells.size with
    | some stop => .ok (cells.extract start stop)
    | none => .error (.pastEnd start count cells.size)

def read (memory : Memory) (addr : Nat) : Except Fault Byte :=
  match memory.cells with
  | none => .error .unallocated
  | some cells =>
    if h : addr < cells.size then .ok cells[addr]
    else .error (.outOfBounds addr cells.size)

/-- Cells with bytes in place of those from an address up. -/
def patched (cells : Array Byte) (addr : Nat) (bytes : Array Byte) : Array Byte :=
  cells.extract 0 addr ++ bytes ++ cells.extract (addr + bytes.size) cells.size

theorem size_patched {cells bytes : Array Byte} {addr stop : Nat}
    (h : rangeEnd? addr bytes.size cells.size = some stop) :
    (patched cells addr bytes).size = cells.size := by
  obtain ⟨rfl, _, hsize⟩ := rangeEnd?_eq_some_iff.mp h
  simp only [patched, Array.size_append, Array.size_extract]
  omega

/-- Copies bytes to an address without asking the window. -/
def patch (memory : Memory) (addr : Nat) (bytes : Array Byte) : Attempt Memory Unit :=
  match memory with
  | ⟨none, window, fits⟩ => .fail .unallocated ⟨none, window, fits⟩
  | ⟨some cells, window, fits⟩ =>
    match h : rangeEnd? addr bytes.size cells.size with
    | some _ =>
      .succeed () ⟨some (patched cells addr bytes), window, by simpa [size_patched h] using fits⟩
    | none => .fail (.pastEnd addr bytes.size cells.size) ⟨some cells, window, fits⟩

/-- A store. Past the end it fails; outside the window it leaves the byte alone
and says so. -/
def write (memory : Memory) (addr : Nat) (value : Byte) : Attempt Memory Unit :=
  match memory with
  | ⟨none, window, fits⟩ => .fail .unallocated ⟨none, window, fits⟩
  | ⟨some cells, window, fits⟩ =>
    if h : addr < cells.size then
      if window.contains addr then
        .succeed () ⟨some (cells.set addr value h), window, by simpa using fits⟩
      else ⟨.ok (), ⟨some cells, window, fits⟩, [.rejectedStore value addr window]⟩
    else .fail (.outOfBounds addr cells.size) ⟨some cells, window, fits⟩

/-- A summary without the bytes themselves. -/
def summary (memory : Memory) : String :=
  "Memory \x7b allocated: " ++ (if memory.isAllocated then "true" else "false")
    ++ ", len: " ++ toString memory.size
    ++ ", write_window: WriteWindow \x7b start: " ++ toString memory.window.start
    ++ ", end: " ++ toString memory.window.stop ++ " \x7d \x7d"

end Memory

end Arcade8080
