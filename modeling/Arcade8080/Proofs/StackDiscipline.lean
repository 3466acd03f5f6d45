import Arcade8080.Bus.Within
import Arcade8080.Core.Lemmas
import Arcade8080.Cpu.Lemmas
import Arcade8080.Cpu.StackCall

/-!
The stack in memory is a stack. As long as pushes and pops keep to the room that it has,
each pop gives what the push that it undoes was given, wherever the room lies: the
stack pointer may be odd, and the room may wrap around the end of the address space and
even fill all of it.
-/

namespace Arcade8080

namespace Memory

/-- Words lie one behind the other from an address up, each low byte first. -/
def HoldsWords (memory : Memory) : Word → List Word → Prop
  | _, [] => True
  | addr, value :: rest =>
    memory.byte? addr.toNat = some (Word.low value) ∧
      memory.byte? (addr + 1).toNat = some (Word.high value) ∧
      memory.HoldsWords (addr + 2) rest

variable {memory first second : Memory} {addr : Word} {values : List Word}

/-- Only the bytes of the words themselves matter. -/
theorem HoldsWords.congr (h : first.HoldsWords addr values)
    (hsame : ∀ index < 2 * values.length,
      second.byte? (addr + BitVec.ofNat 16 index).toNat =
        first.byte? (addr + BitVec.ofNat 16 index).toNat) :
    second.HoldsWords addr values := by
  induction values generalizing addr with
  | nil => trivial
  | cons value rest ih =>
    rw [List.length_cons] at hsame
    obtain ⟨hlow, hhigh, hrest⟩ := h
    have hfirst := hsame 0 (by omega)
    have hnext := hsame 1 (by omega)
    rw [BitVec.add_zero] at hfirst
    refine ⟨hfirst.trans hlow, hnext.trans hhigh, ih hrest fun index hindex => ?_⟩
    have haddr : addr + 2 + BitVec.ofNat 16 index = addr + BitVec.ofNat 16 (index + 2) := by
      bv_omega
    rw [haddr]
    exact hsame (index + 2) (by omega)

/-- The memory that a push leaves: the low byte is stored first. -/
def pushed (memory : Memory) (sp value : Word) : Memory :=
  ((memory.write (sp - 2).toNat (Word.low value)).state.write (sp - 1).toNat
    (Word.high value)).state

@[simp] theorem size_pushed (memory : Memory) (sp value : Word) :
    (memory.pushed sp value).size = memory.size := by simp [pushed]

@[simp] theorem isAllocated_pushed (memory : Memory) (sp value : Word) :
    (memory.pushed sp value).isAllocated = memory.isAllocated := by simp [pushed]

@[simp] theorem window_pushed (memory : Memory) (sp value : Word) :
    (memory.pushed sp value).window = memory.window := by simp [pushed]

/-- A store at an address would take place. -/
structure Takes (memory : Memory) (addr : Word) : Prop where
  allocated : addr.toNat < memory.size
  admitted : memory.window.contains addr.toNat = true

/-- A push that takes place changes the two bytes below the stack pointer. -/
theorem byte?_pushed {sp : Word} (hlow : memory.Takes (sp - 2))
    (hhigh : memory.Takes (sp - 1)) (value : Word) (addr : Nat) :
    (memory.pushed sp value).byte? addr =
      if addr = (sp - 1).toNat then some (Word.high value)
      else if addr = (sp - 2).toNat then some (Word.low value)
      else memory.byte? addr := by
  rw [pushed, byte?_write, byte?_write, size_write, window_write]
  simp only [hlow.allocated, hlow.admitted, hhigh.allocated, hhigh.admitted, and_true]

/-- A word on top of the words that lie there, and less than the whole address space of
them, disturbs none of them. -/
theorem HoldsWords.pushed {sp : Word} (h : memory.HoldsWords sp values)
    (hlength : values.length < 0x8000) (hlow : memory.Takes (sp - 2))
    (hhigh : memory.Takes (sp - 1)) (value : Word) :
    (memory.pushed sp value).HoldsWords (sp - 2) (value :: values) := by
  have hbyte (other : Word) : (memory.pushed sp value).byte? other.toNat =
      if other = sp - 1 then some (Word.high value)
      else if other = sp - 2 then some (Word.low value)
      else memory.byte? other.toNat := by
    rw [byte?_pushed hlow hhigh]
    simp only [BitVec.toNat_inj]
  have hnext : sp - 2 + 1 = sp - 1 := by bv_omega
  have habove : sp - 2 + 2 = sp := by bv_omega
  refine ⟨?_, ?_, ?_⟩
  · have hapart : sp - 2 ≠ sp - 1 := by bv_omega
    rw [hbyte, if_neg hapart, if_pos rfl]
  · rw [hnext, hbyte, if_pos rfl]
  · rw [habove]
    apply h.congr
    intro index hindex
    have hsmall : index < 0xFFFE := by omega
    have hhigher : sp + BitVec.ofNat 16 index ≠ sp - 1 := by bv_omega
    have hlower : sp + BitVec.ofNat 16 index ≠ sp - 2 := by bv_omega
    rw [hbyte, if_neg hhigher, if_neg hlower]

end Memory

/-- The store of a push, where both of its bytes have a place. -/
theorem Core.storeWord_of_lt {sp : Word} {memory : Memory} (hlow : (sp - 2).toNat < memory.size)
    (hhigh : (sp - 1).toNat < memory.size) (value : Word) :
    ((storeWord (sp - 2) value).run memory).result = .ok () ∧
      ((storeWord (sp - 2) value).run memory).state = memory.pushed sp value := by
  have hnext : sp - 2 + 1 = sp - 1 := by bv_omega
  rw [← hnext] at hhigh
  obtain ⟨records, hrun⟩ := run_storeWord_of_lt hlow hhigh value
  rw [hrun, hnext]
  exact ⟨rfl, rfl⟩

namespace Cpu

/-- A push puts both bytes in their places, where there are such places, and moves the
stack pointer. -/
theorem push_of_lt {cpu : Cpu} (hlow : (cpu.sp - 2).toNat < cpu.memory.size)
    (hhigh : (cpu.sp - 1).toNat < cpu.memory.size) (value : Word) :
    (cpu.push value).result = .ok () ∧
      (cpu.push value).state =
        { cpu with sp := cpu.sp - 2, memory := cpu.memory.pushed cpu.sp value } := by
  have hprogram : (do return ((), ← cpu.toCore.push value)) =
      Core.storeWord (cpu.sp - 2) value >>= fun _ =>
        pure ((), { cpu.toCore with sp := cpu.sp - 2 }) := by
    simp only [Core.push, bind_assoc, pure_bind]
  obtain ⟨hresult, hstate⟩ := Core.storeWord_of_lt hlow hhigh value
  rw [push_eq, transact_eq, hprogram, Bus.run_bind_pure, hresult, hstate]
  exact ⟨rfl, rfl⟩

theorem pop_of_byte? {cpu : Cpu} {low high : Byte}
    (hlow : cpu.memory.byte? cpu.sp.toNat = some low)
    (hhigh : cpu.memory.byte? (cpu.sp + 1).toNat = some high) :
    cpu.pop.result = .ok (Word.ofBytes high low) ∧
      cpu.pop.state = { cpu with sp := cpu.sp + 2 } := by
  have hrun : cpu.toCore.pop.run cpu.memory =
      .succeed (Word.ofBytes high low, { cpu.toCore with sp := cpu.sp + 2 }) cpu.memory := by
    rw [Core.pop, Core.run_loadWord_bind_of_byte hlow hhigh]
    rfl
  rw [pop_eq, transact_eq, hrun]
  exact ⟨rfl, rfl⟩

/-- The addresses of some words below the stack pointer, from the top down. -/
def stackRoom (cpu : Cpu) (depth : Nat) : List Word :=
  (List.range (2 * depth)).map fun index => cpu.sp - BitVec.ofNat 16 (index + 1)

theorem mem_stackRoom {cpu : Cpu} {depth index : Nat} (h : index < 2 * depth) :
    cpu.sp - BitVec.ofNat 16 (index + 1) ∈ cpu.stackRoom depth :=
  List.mem_map.mpr ⟨index, List.mem_range.mpr h, rfl⟩

/-- There is room for some words below the stack pointer. The address space itself has
room for 0x8000 of them. -/
structure HasRoom (cpu : Cpu) (depth : Nat) : Prop where
  depth_le : depth ≤ 0x8000
  takes : ∀ addr ∈ cpu.stackRoom depth, cpu.memory.Takes addr

/-- A processor that has come to hold some words, last in first, on a stack with room
for `depth` of them, and has changed nothing else. -/
structure Stacked (start : Cpu) (depth : Nat) (held : List Word) (reached : Cpu) : Prop where
  sp : reached.sp = start.sp - BitVec.ofNat 16 (2 * held.length)
  holds : reached.memory.HoldsWords reached.sp held
  /-- All but the stack pointer and memory is as it was. -/
  others : reached = { start with sp := reached.sp, memory := reached.memory }
  isAllocated : reached.memory.isAllocated = start.memory.isAllocated
  size : reached.memory.size = start.memory.size
  window : reached.memory.window = start.memory.window
  bytes : start.memory.KeptOutside (start.stackRoom depth) reached.memory

namespace Stacked

variable {start reached : Cpu} {depth : Nat} {held : List Word} {value : Word}

theorem refl (start : Cpu) (depth : Nat) : Stacked start depth [] start where
  sp := (BitVec.sub_zero start.sp).symm
  holds := trivial
  others := rfl
  isAllocated := rfl
  size := rfl
  window := rfl
  bytes := .refl start.memory

theorem push (h : Stacked start depth held reached) (room : start.HasRoom depth)
    (hlength : held.length < depth) (value : Word) :
    (reached.push value).result = .ok () ∧
      Stacked start depth (value :: held) (reached.push value).state := by
  have hdepth := room.depth_le
  have hsp := h.sp
  have hlow : reached.sp - 2 ∈ start.stackRoom depth := by
    have haddr : reached.sp - 2 = start.sp - BitVec.ofNat 16 (2 * held.length + 1 + 1) := by
      bv_omega
    rw [haddr]
    exact mem_stackRoom (by omega)
  have hhigh : reached.sp - 1 ∈ start.stackRoom depth := by
    have haddr : reached.sp - 1 = start.sp - BitVec.ofNat 16 (2 * held.length + 1) := by
      bv_omega
    rw [haddr]
    exact mem_stackRoom (by omega)
  have htakes {addr : Word} (hmem : addr ∈ start.stackRoom depth) :
      reached.memory.Takes addr := by
    obtain ⟨hallocated, hadmitted⟩ := room.takes addr hmem
    exact ⟨h.size ▸ hallocated, h.window ▸ hadmitted⟩
  obtain ⟨hresult, hstate⟩ :=
    push_of_lt (htakes hlow).allocated (htakes hhigh).allocated value
  refine ⟨hresult, ?_⟩
  rw [hstate]
  constructor
  case sp =>
    rw [List.length_cons]
    bv_omega
  case holds =>
    exact h.holds.pushed (by omega) (htakes hlow) (htakes hhigh) value
  case others => rw [h.others]
  case isAllocated => rw [Memory.isAllocated_pushed, h.isAllocated]
  case size => rw [Memory.size_pushed, h.size]
  case window => rw [Memory.window_pushed, h.window]
  case bytes =>
    exact (h.bytes.trans (.write _ hlow _)).trans (.write _ hhigh _)

theorem pop (h : Stacked start depth (value :: held) reached) :
    reached.pop.result = .ok value ∧ Stacked start depth held reached.pop.state := by
  obtain ⟨hlow, hhigh, hrest⟩ := h.holds
  obtain ⟨hresult, hstate⟩ := pop_of_byte? hlow hhigh
  rw [Word.ofBytes_high_low] at hresult
  refine ⟨hresult, ?_⟩
  rw [hstate]
  have hsp := h.sp
  rw [List.length_cons] at hsp
  exact
    { sp := by bv_omega
      holds := hrest
      others := by rw [h.others]
      isAllocated := h.isAllocated
      size := h.size
      window := h.window
      bytes := h.bytes }

end Stacked

section Run

variable {cpu : Cpu} {depth : Nat} {calls early : List StackCall}

/-- After any number of calls that keep to the room there is, the stack holds the words
that have been pushed and not been popped. -/
theorem stacked_afterStack (room : cpu.HasRoom depth) (fits : StackCall.Fits depth calls) :
    Stacked cpu depth (StackCall.held calls) (cpu.afterStack calls) := by
  induction calls using List.reverseRecOn with
  | nil => exact .refl cpu depth
  | append_singleton early last ih =>
    have hstacked := ih (fits.of_isPrefix (List.prefix_append early [last]))
    rw [afterStack_concat, StackCall.held_concat]
    cases last with
    | push value => exact (hstacked.push room fits.length_lt_of_push value).2
    | pop =>
      obtain ⟨value, rest, hheld⟩ := List.exists_cons_of_ne_nil fits.held_ne_nil_of_pop
      rw [hheld] at hstacked ⊢
      exact hstacked.pop.2

/-- Pushes and pops that keep to the room below the stack pointer all succeed, and each
pop gives the word that was pushed last of those that are still there. In between the
stack pointer tells how many words there are, they lie in memory in order, and nothing
else in the processor or in memory changes. -/
theorem stack_is_last_in_first_out (room : cpu.HasRoom depth)
    (fits : StackCall.Fits depth calls) :
    (∀ early, early <+: calls →
      Stacked cpu depth (StackCall.held early) (cpu.afterStack early) ∧
        (StackCall.held early).length + StackCall.pops early = StackCall.pushes early) ∧
    (∀ early value, early ++ [.push value] <+: calls →
      ((cpu.afterStack early).push value).result = .ok ()) ∧
    ∀ early, early ++ [.pop] <+: calls →
      ∃ value, (cpu.afterStack early).pop.result = .ok value ∧
        ∀ other, StackCall.Awaits other early ↔ other = value := by
  refine ⟨?_, ?_, ?_⟩
  · intro early hearly
    have hfits := fits.of_isPrefix hearly
    exact ⟨stacked_afterStack room hfits, hfits.length_held⟩
  · intro early value hearly
    have hfits := fits.of_isPrefix hearly
    have hstacked := stacked_afterStack room (hfits.of_isPrefix (List.prefix_append early _))
    exact (hstacked.push room hfits.length_lt_of_push value).1
  · intro early hearly
    have hfits := fits.of_isPrefix hearly
    have hstacked := stacked_afterStack room (hfits.of_isPrefix (List.prefix_append early _))
    obtain ⟨value, rest, hheld⟩ := List.exists_cons_of_ne_nil hfits.held_ne_nil_of_pop
    rw [hheld] at hstacked
    refine ⟨value, hstacked.pop.1, fun other => ?_⟩
    rw [StackCall.awaits_iff, hheld, List.head?_cons, Option.some.injEq, eq_comm]

end Run

/-- A processor whose stack has all 64 KiB to grow into, over the end of the address
space from the first push on. -/
def wrapping : Cpu where
  sp := 1
  memory.cells := some (Array.replicate 0x10000 0)
  memory.window := .unrestricted
  memory.fits := Memory.fits_replicate (by decide) 0

def crossing : List StackCall := [.push 0x1122, .push 0x3344, .pop, .push 0x5566, .pop, .pop]

/-- The first word has its low byte at the last address and its high byte at the first
one, and comes back with the last pop. -/
theorem stack_is_last_in_first_out_of_wrapping :
    wrapping.HasRoom 0x8000 ∧ StackCall.Fits 0x8000 crossing ∧
    (wrapping.afterStack [.push 0x1122]).sp = 0xFFFF ∧
    (wrapping.afterStack [.push 0x1122]).memory.byte? 0xFFFF = some 0x22 ∧
    (wrapping.afterStack [.push 0x1122]).memory.byte? 0 = some 0x11 ∧
    (wrapping.afterStack (crossing.take 5)).pop.result = .ok 0x1122 := by
  have room : wrapping.HasRoom 0x8000 := by
    refine ⟨Nat.le_refl _, fun addr _ => ⟨?_, ?_⟩⟩
    · have hsize : wrapping.memory.size = 0x10000 := Array.size_replicate
      rw [hsize]
      exact addr.isLt
    · exact (Window.contains_iff _ _).mpr ⟨Nat.zero_le _, addr.isLt.trans (by decide)⟩
  have fits : StackCall.Fits 0x8000 crossing := by decide
  obtain ⟨hstacked, _, hpop⟩ := stack_is_last_in_first_out room fits
  obtain ⟨hone, _⟩ := hstacked [.push 0x1122] (by decide)
  have hsp : (wrapping.afterStack [.push 0x1122]).sp = 0xFFFF := hone.sp
  obtain ⟨hlow, hhigh, _⟩ := hone.holds
  rw [hsp] at hlow hhigh
  obtain ⟨value, hresult, hawaits⟩ := hpop (crossing.take 5) (by decide)
  have hvalue : 0x1122 = value := (hawaits 0x1122).mp (StackCall.awaits_iff.mpr rfl)
  rw [← hvalue] at hresult
  exact ⟨room, fits, hsp, hlow, hhigh, hresult⟩

end Cpu

end Arcade8080
