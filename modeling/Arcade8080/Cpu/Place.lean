import Arcade8080.Cpu.Lemmas

/-!
Places for bytes, and bytes that are carried from one place to another. What is at a place is
told by the fields of the processor and not by how instructions get there. Each byte is carried
as it was before the first of them arrived, so one after the other comes to the same as all at
once, as long as no two have the same target.
-/

namespace Arcade8080

/-- Where the processor keeps bytes that instructions move. -/
inductive Place where
  | register (name : Register)
  | spHigh
  | spLow
  | memory (addr : Nat)
  deriving DecidableEq

/-- Where a byte comes from: another place, or the instruction itself. -/
inductive Source where
  | place (origin : Place)
  | operand (value : Byte)
  deriving DecidableEq

structure Transfer where
  target : Place
  source : Source
  deriving DecidableEq

namespace Core

/-- The byte at a place. There is none at an address that memory does not reach. -/
def at? (core : Core) (memory : Memory) : Place → Option Byte
  | .register .a => some core.registers.a
  | .register .b => some core.registers.b
  | .register .c => some core.registers.c
  | .register .d => some core.registers.d
  | .register .e => some core.registers.e
  | .register .h => some core.registers.h
  | .register .l => some core.registers.l
  | .spHigh => some (Word.high core.sp)
  | .spLow => some (Word.low core.sp)
  | .memory addr => memory.byte? addr

/-- Where an operand is: in a register, or at the address of which H has the high byte. -/
def place (core : Core) : Operand → Place
  | .register name => .register name
  | .memory => .memory (core.registers.h.toNat * 256 + core.registers.l.toNat)

theorem at?_register (core : Core) (memory : Memory) (name : Register) :
    core.at? memory (.register name) = some (core.registers.get name) := by
  cases name <;> rfl

@[simp] theorem place_register (core : Core) (name : Register) :
    core.place (.register name) = .register name := rfl

theorem place_memory (core : Core) : core.place .memory = .memory core.registers.hl.toNat := by
  rw [place, Registers.toNat_hl]

end Core

namespace Cpu

def at? (cpu : Cpu) (place : Place) : Option Byte := cpu.toCore.at? cpu.memory place

@[simp] theorem at?_register (cpu : Cpu) (name : Register) :
    cpu.at? (.register name) = some (cpu.registers.get name) :=
  cpu.toCore.at?_register cpu.memory name

@[simp] theorem at?_spHigh (cpu : Cpu) : cpu.at? .spHigh = some (Word.high cpu.sp) := rfl

@[simp] theorem at?_spLow (cpu : Cpu) : cpu.at? .spLow = some (Word.low cpu.sp) := rfl

@[simp] theorem at?_memory (cpu : Cpu) (addr : Nat) :
    cpu.at? (.memory addr) = cpu.memory.byte? addr := rfl

def value? (cpu : Cpu) : Source → Option Byte
  | .place origin => cpu.at? origin
  | .operand value => some value

/-- The window says which bytes of memory may change. It has no say about the others. -/
def admits (cpu : Cpu) : Place → Bool
  | .memory addr => cpu.memory.window.contains addr
  | _ => true

/-- Puts a byte at a place, where the window lets it. -/
def assign (cpu : Cpu) (place : Place) (value : Byte) : Cpu :=
  match place with
  | .register name => { cpu with registers := cpu.registers.set name value }
  | .spHigh => { cpu with sp := Word.ofBytes value (Word.low cpu.sp) }
  | .spLow => { cpu with sp := Word.ofBytes (Word.high cpu.sp) value }
  | .memory addr => { cpu with memory := (cpu.memory.write addr value).state }

/-- Puts a byte at its target as its source has it on the processor `old`. -/
def carry (cpu old : Cpu) (transfer : Transfer) : Cpu :=
  match old.value? transfer.source with
  | none => cpu
  | some value => cpu.assign transfer.target value

/-- One byte after the other, all of them as they were on the processor `old`. -/
def carryAll (cpu old : Cpu) (transfers : List Transfer) : Cpu :=
  transfers.foldl (·.carry old ·) cpu

/-- Both have what is at no place: flags, program counter, what concerns interrupts, the
configuration, and of memory all but its bytes. -/
structure SameApart (before after : Cpu) : Prop where
  others : after =
    { before with registers := after.registers, sp := after.sp, memory := after.memory }
  isAllocated : after.memory.isAllocated = before.memory.isAllocated
  window : after.memory.window = before.memory.window

/-- All targets have at once got what was at their sources before, except where the window is
closed, and nothing else has changed. -/
structure Assigned (before : Cpu) (transfers : List Transfer) (after : Cpu) : Prop where
  admitted : ∀ transfer ∈ transfers, before.admits transfer.target = true →
    after.at? transfer.target = before.value? transfer.source
  rejected : ∀ transfer ∈ transfers, before.admits transfer.target = false →
    after.at? transfer.target = before.at? transfer.target
  kept : ∀ place, (∀ transfer ∈ transfers, transfer.target ≠ place) →
    after.at? place = before.at? place
  apart : before.SameApart after

variable {cpu old first second : Cpu} {transfer : Transfer} {transfers : List Transfer}
  {place : Place}

theorem at?_assign (cpu : Cpu) (place : Place) (value : Byte) (other : Place) :
    (cpu.assign place value).at? other =
      if other = place ∧ (cpu.at? place).isSome = true ∧ cpu.admits place = true
      then some value else cpu.at? other := by
  cases place with
  | register name =>
    cases other with
    | register asked =>
      by_cases h : asked = name
      · simp [assign, admits, h]
      · simp [assign, h, Registers.get_set_of_ne _ _ h]
    | _ => simp [assign]
  | spHigh => cases other <;> simp [assign, admits]
  | spLow => cases other <;> simp [assign, admits]
  | memory addr =>
    cases other with
    | memory asked => simp [assign, admits, Memory.byte?_write, Memory.isSome_byte?]
    | _ => simp [assign]

theorem SameApart.refl (cpu : Cpu) : cpu.SameApart cpu := ⟨rfl, rfl, rfl⟩

theorem SameApart.trans {middle : Cpu} (early : first.SameApart middle)
    (late : middle.SameApart second) : first.SameApart second where
  others := by rw [late.others, early.others]
  isAllocated := late.isAllocated.trans early.isAllocated
  window := late.window.trans early.window

/-- Only core and memory differ, so these two tell the rest. -/
theorem SameApart.eq_of_core_memory (h : first.SameApart second) :
    { first with toCore := second.toCore, memory := second.memory } = second := by
  obtain ⟨core, pending, memory, config⟩ := second
  have hpending : pending = first.pending := congrArg (·.pending) h.others
  have hconfig : config = first.config := congrArg (·.config) h.others
  rw [hpending, hconfig]

theorem sp_eq_of_at? (hhigh : second.at? .spHigh = first.at? .spHigh)
    (hlow : second.at? .spLow = first.at? .spLow) : second.sp = first.sp := by
  rw [← Word.ofBytes_high_low second.sp, Option.some.inj hhigh, Option.some.inj hlow,
    Word.ofBytes_high_low]

/-- The bytes at all places and what is at none make up the whole processor. -/
theorem SameApart.eq_of_at? (h : first.SameApart second)
    (hat : ∀ place, second.at? place = first.at? place) : second = first := by
  have hregisters : second.registers = first.registers :=
    Registers.eq_of_get fun name => by simpa using hat (.register name)
  have hsp : second.sp = first.sp := sp_eq_of_at? (hat .spHigh) (hat .spLow)
  have hmemory : second.memory = first.memory :=
    Memory.eq_of_byte? h.isAllocated h.window fun addr => hat (.memory addr)
  rw [h.others, hregisters, hsp, hmemory]

theorem SameApart.admits (h : first.SameApart second) (place : Place) :
    second.admits place = first.admits place := by
  cases place with
  | memory addr => exact congrArg (Window.contains · addr) h.window
  | _ => rfl

theorem sameApart_assign (cpu : Cpu) (place : Place) (value : Byte) :
    cpu.SameApart (cpu.assign place value) := by
  cases place with
  | memory addr => exact ⟨rfl, Memory.isAllocated_write _ _ _, Memory.window_write _ _ _⟩
  | _ => exact ⟨rfl, rfl, rfl⟩

theorem carry_of_value? {source : Source} {value : Byte} (h : old.value? source = some value)
    (cpu : Cpu) (target : Place) : cpu.carry old ⟨target, source⟩ = cpu.assign target value := by
  simp only [carry, h]

theorem sameApart_carry (cpu old : Cpu) (transfer : Transfer) :
    cpu.SameApart (cpu.carry old transfer) := by
  obtain ⟨target, source⟩ := transfer
  cases h : old.value? source with
  | none =>
    simp only [carry, h]
    exact .refl cpu
  | some value =>
    rw [carry_of_value? h]
    exact sameApart_assign cpu target value

theorem at?_carry_of_ne (h : transfer.target ≠ place) (cpu old : Cpu) :
    (cpu.carry old transfer).at? place = cpu.at? place := by
  obtain ⟨target, source⟩ := transfer
  cases hvalue : old.value? source with
  | none => simp only [carry, hvalue]
  | some value =>
    rw [carry_of_value? hvalue, at?_assign, if_neg]
    exact fun hboth => h hboth.1.symm

theorem carryAll_cons (cpu old : Cpu) (next : Transfer) (rest : List Transfer) :
    cpu.carryAll old (next :: rest) = (cpu.carry old next).carryAll old rest := rfl

theorem sameApart_carryAll (cpu old : Cpu) (transfers : List Transfer) :
    cpu.SameApart (cpu.carryAll old transfers) := by
  induction transfers generalizing cpu with
  | nil => exact .refl cpu
  | cons next rest ih => exact (sameApart_carry cpu old next).trans (ih _)

theorem at?_carryAll_of_forall_ne (h : ∀ transfer ∈ transfers, transfer.target ≠ place)
    (cpu old : Cpu) : (cpu.carryAll old transfers).at? place = cpu.at? place := by
  induction transfers generalizing cpu with
  | nil => rfl
  | cons next rest ih =>
    obtain ⟨hnext, hrest⟩ := List.forall_mem_cons.mp h
    exact (ih hrest _).trans (at?_carry_of_ne hnext cpu old)

/-- No other transfer gets in the way of one whose target is its own. -/
theorem at?_carryAll_of_mem (hdistinct : (transfers.map Transfer.target).Nodup)
    (hmem : transfer ∈ transfers) {value : Byte}
    (hvalue : old.value? transfer.source = some value)
    (hthere : (cpu.at? transfer.target).isSome = true) :
    (cpu.carryAll old transfers).at? transfer.target =
      if cpu.admits transfer.target then some value else cpu.at? transfer.target := by
  induction transfers generalizing cpu with
  | nil => simp at hmem
  | cons next rest ih =>
    rw [List.map_cons, List.nodup_cons] at hdistinct
    rw [carryAll_cons]
    obtain ⟨hfresh, hrest⟩ := hdistinct
    rcases List.mem_cons.mp hmem with rfl | hlater
    · have hothers : ∀ other ∈ rest, other.target ≠ transfer.target := by
        intro other hother hsame
        exact hfresh (hsame ▸ List.mem_map_of_mem hother)
      obtain ⟨target, source⟩ := transfer
      rw [at?_carryAll_of_forall_ne hothers, carry_of_value? hvalue, at?_assign]
      simp only [hthere, true_and]
    · have hapart : next.target ≠ transfer.target := by
        intro hsame
        exact hfresh (hsame ▸ List.mem_map_of_mem hlater)
      have hkept := at?_carry_of_ne hapart cpu old
      have hadmits := (sameApart_carry cpu old next).admits transfer.target
      rw [← hkept] at hthere
      have hcarried := ih hrest hlater hthere
      rw [hkept, hadmits] at hcarried
      exact hcarried

/-- Bytes that are there, carried to places that are there. -/
theorem assigned_carryAll (hdistinct : (transfers.map Transfer.target).Nodup)
    (hthere : ∀ transfer ∈ transfers, (cpu.at? transfer.target).isSome = true ∧
      (cpu.value? transfer.source).isSome = true) :
    cpu.Assigned transfers (cpu.carryAll cpu transfers) := by
  have hcarried (transfer : Transfer) (hmem : transfer ∈ transfers) :
      (cpu.carryAll cpu transfers).at? transfer.target =
        if cpu.admits transfer.target then cpu.value? transfer.source
        else cpu.at? transfer.target := by
    obtain ⟨htarget, hsource⟩ := hthere transfer hmem
    obtain ⟨value, hvalue⟩ := Option.isSome_iff_exists.mp hsource
    rw [hvalue]
    exact at?_carryAll_of_mem hdistinct hmem hvalue htarget
  constructor
  case admitted =>
    intro transfer hmem hadmits
    rw [hcarried transfer hmem, if_pos hadmits]
  case rejected =>
    intro transfer hmem hrejects
    rw [hcarried transfer hmem, hrejects]
    rfl
  case kept => exact fun place hother => at?_carryAll_of_forall_ne hother cpu cpu
  case apart => exact sameApart_carryAll cpu cpu transfers

/-- A byte put at a place that is there. -/
theorem assigned_assign (h : (cpu.at? place).isSome = true) (value : Byte) :
    cpu.Assigned [⟨place, .operand value⟩] (cpu.assign place value) :=
  assigned_carryAll (by simp) (by simpa [value?] using h)

end Cpu

end Arcade8080
