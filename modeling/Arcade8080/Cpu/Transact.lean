import Arcade8080.Bus.Lemmas
import Arcade8080.Core.Step
import Arcade8080.Cpu

/-!
What the processor does in place is what one transaction does: all that it asks of
memory is a program on the bus, and the core changes only if all of that succeeds.

The rules below take a routine and a program apart side by side. There is none for an
access after a change of the core, because such a routine may leave the change behind
without the rest of it. Every instruction and every delivery gets by without, except
for INR and DCR, which set the flags first and then store where they have just read.
-/

namespace Arcade8080.Cpu

variable {α β : Type}

/-- Runs a program on the processor's memory. The core it ends with takes
effect only if it does end. -/
def transact (cpu : Cpu) (program : Core → Bus (α × Core)) : Attempt Cpu α :=
  match cpu with
  | ⟨core, pending, memory, config⟩ =>
    match (program core).run memory with
    | ⟨.ok (value, after), memory, records⟩ =>
      ⟨.ok value, ⟨after, pending, memory, config⟩, records⟩
    | ⟨.error fault, memory, records⟩ =>
      ⟨.error fault, ⟨core, pending, memory, config⟩, records⟩

namespace Routine

theorem bind_eq (first : Routine α) (next : α → Routine β) (cpu : Cpu) :
    (first >>= next) cpu = (first cpu).andThen next := rfl

theorem bind_pure_eq (routine : Routine α) (cpu : Cpu) :
    (routine cpu).andThen Attempt.succeed = routine cpu := by
  rcases routine cpu with ⟨fault | value, after, records⟩
  · rfl
  · simp [Attempt.andThen, Attempt.after, Attempt.succeed]

instance : LawfulMonad Routine := LawfulMonad.mk' Routine
  (fun routine => funext (bind_pure_eq routine))
  (fun _ _ => rfl)
  (fun first second third => funext fun cpu => Attempt.andThen_andThen (first cpu) second third)

/-- Started from a core, a routine comes to what a program comes to in one transaction. -/
def Settles (start : Core) (routine : Routine α) (program : Bus (α × Core)) : Prop :=
  ∀ pending memory config,
    routine ⟨start, pending, memory, config⟩ =
      transact ⟨start, pending, memory, config⟩ fun _ => program

section Rules

variable {start after : Core} {value : β} {program : Bus (β × Core)} {addr : Word}

theorem settles_pure : Settles start (pure value) (pure (value, start)) :=
  fun _ _ _ => rfl

theorem settles_core {next : Core → Routine β} (h : Settles start (next start) program) :
    Settles start (core >>= next) program :=
  fun pending memory config => h pending memory config

theorem settles_emit {record : Record} {next : Unit → Routine β}
    (h : Settles start (next ()) program) :
    Settles start (emit record >>= next) (Bus.emit record >>= fun _ => program) := by
  intro pending memory config
  simp only [bind_eq, emit, Attempt.andThen, h pending memory config, transact, Bus.run_bind]
  rcases hrun : program.run memory with ⟨fault | ⟨value, after⟩, state, records⟩ <;>
    simp [Bus.emit, Bus.run, Attempt.after, Attempt.succeed, hrun]

theorem settles_load {next : Byte → Routine β} {program : Byte → Bus (β × Core)}
    (h : ∀ byte, Settles start (next byte) (program byte)) :
    Settles start (load addr >>= next) (Bus.load addr >>= program) := by
  intro pending memory config
  simp only [bind_eq, load, transact, Bus.run_bind, Bus.load, Bus.run]
  rcases memory.read addr.toNat with fault | byte
  · rfl
  · exact h byte pending memory config

theorem settles_store {byte : Byte} {next : Unit → Routine β}
    (h : Settles start (next ()) program) :
    Settles start (store addr byte >>= next) (Bus.store addr byte >>= fun _ => program) := by
  intro pending memory config
  simp only [bind_eq, store, transact, Bus.run_bind, Bus.store, Bus.run]
  rcases memory.write addr.toNat byte with ⟨fault | done, stored, records⟩
  · rfl
  · simp only [Attempt.andThen, h pending stored config, transact]
    rcases hrun : program.run stored with ⟨fault | ⟨value, after⟩, state, later⟩ <;>
      simp [Attempt.after, Attempt.succeed, hrun]

/-- A change takes effect where no access comes after it. -/
theorem settles_change {f : Core → Core} {next : Unit → Routine β}
    (h : Settles (f start) (next ()) (pure (value, after))) :
    Settles start (change f >>= next) (pure (value, after)) :=
  fun pending memory config => h pending memory config

theorem settles_change_emit {f : Core → Core} {record : Record} {next : Unit → Routine β}
    (h : Settles (f start) (next ()) (Bus.emit record >>= fun _ => pure (value, after))) :
    Settles start (change f >>= next) (Bus.emit record >>= fun _ => pure (value, after)) :=
  fun pending memory config => h pending memory config

/-- Where a byte has just been read a store cannot fail, so what is changed in between
takes effect as well. -/
theorem settles_update {result : Byte → Byte} {f : Byte → Core → Core}
    {next : Byte → Routine β} {value : Byte → β} {after : Byte → Core}
    (h : ∀ byte, Settles (f byte start) (next byte)
      (Bus.store addr (result byte) >>= fun _ => pure (value byte, after byte))) :
    Settles start (load addr >>= fun byte => change (f byte) >>= fun _ => next byte)
      (Bus.load addr >>= fun byte =>
        Bus.store addr (result byte) >>= fun _ => pure (value byte, after byte)) := by
  intro pending memory config
  cases hread : memory.read addr.toNat with
  | error fault =>
    simp only [bind_eq, load, transact, Bus.run_bind, Bus.load, Bus.run, hread]
    rfl
  | ok byte =>
    have hnext := h byte pending memory config
    have hstore : (memory.write addr.toNat (result byte)).result = .ok () :=
      Memory.result_write_eq_ok_iff.mpr (Memory.lt_size_of_read hread)
    rcases hwrite : memory.write addr.toNat (result byte) with ⟨fault | done, stored, records⟩
    · rw [hwrite] at hstore
      cases hstore
    · simp only [transact, Bus.run_bind, Bus.store, Bus.run, hwrite] at hnext
      simp only [bind_eq, load, transact, Bus.run_bind, Bus.load, Bus.store, Bus.run, hread,
        Attempt.andThen, Attempt.succeed, change, hnext, hwrite]
      rfl

theorem settles_push {word : Word} {next : Unit → Routine β} {program : Bus (β × Core)}
    (h : Settles start (change (fun core => { core with sp := start.sp - 2 }) >>= next) program) :
    Settles start (push word >>= next)
      (Core.storeWord (start.sp - 2) word >>= fun _ => program) := by
  simp only [push, Core.storeWord, bind_assoc]
  exact settles_core (settles_store (settles_store h))

theorem settles_pop {next : Word → Routine β} {value : Word → β} {after : Word → Core}
    (h : ∀ word,
      Settles { start with sp := start.sp + 2 } (next word) (pure (value word, after word))) :
    Settles start (pop >>= next)
      (Core.loadWord start.sp >>= fun word => pure (value word, after word)) := by
  simp only [pop, Core.loadWord, bind_assoc, pure_bind]
  exact settles_core (settles_load fun low => settles_load fun high =>
    settles_change (h (Word.ofBytes high low)))

end Rules

section Instructions

variable {start : Core} {f : Option PortAccess → β} {length : Nat}

theorem settles_next :
    Settles start (follow length .next >>= fun port => pure (f port))
      (pure (f none, { start with pc := start.pc + BitVec.ofNat 16 length })) :=
  fun _ _ _ => rfl

theorem settles_jump (length : Nat) {target : Word} :
    Settles start (follow length (.jump target) >>= fun port => pure (f port))
      (pure (f none, { start with pc := target })) :=
  fun _ _ _ => rfl

theorem settles_port {access : PortAccess} :
    Settles start (follow length (.port access) >>= fun port => pure (f port))
      (pure (f (some access), { start with pc := start.pc + BitVec.ofNat 16 length })) :=
  fun _ _ _ => rfl

theorem settles_readOperand {source : Operand} {next : Byte → Routine β}
    {program : Byte → Bus (β × Core)} (h : ∀ byte, Settles start (next byte) (program byte)) :
    Settles start (readOperand source >>= next) (start.readOperand source >>= program) := by
  cases source with
  | register name => exact h (start.registers.get name)
  | memory =>
    simp only [readOperand, bind_assoc]
    exact settles_core (settles_load h)

theorem settles_writeOperand {target : Operand} {byte : Byte} :
    Settles start
      (writeOperand target byte >>= fun _ => follow length .next >>= fun port => pure (f port))
      (Core.writeOperand { start with pc := start.pc + BitVec.ofNat 16 length } target byte >>=
        fun after => pure (f none, after)) := by
  cases target with
  | register name => exact fun _ _ _ => rfl
  | memory =>
    simp only [writeOperand, Core.writeOperand, bind_assoc, pure_bind]
    exact settles_core (settles_store settles_next)

/-- INR and DCR: the flags before the store. -/
theorem settles_count {target : Operand} {result : Byte → Byte} {flags : Byte → Flags} :
    Settles start
      (readOperand target >>= fun byte =>
        change (fun core => { core with flags := flags byte }) >>= fun _ =>
        writeOperand target (result byte) >>= fun _ =>
        follow length .next >>= fun port => pure (f port))
      (Core.readOperand { start with pc := start.pc + BitVec.ofNat 16 length } target >>=
        fun byte =>
        Core.writeOperand
          { start with pc := start.pc + BitVec.ofNat 16 length, flags := flags byte } target
          (result byte) >>= fun after => pure (f none, after)) := by
  cases target with
  | register name => exact fun _ _ _ => rfl
  | memory =>
    simp only [readOperand, writeOperand, Core.readOperand, Core.writeOperand, bind_assoc,
      pure_bind]
    exact settles_core (settles_update fun byte => settles_core (settles_store settles_next))

theorem settles_call {own : Nat} {target : Word} :
    Settles start
      (call own target >>= fun flow => follow length flow >>= fun port => pure (f port))
      (Core.call { start with pc := start.pc + BitVec.ofNat 16 own } target >>= fun after =>
        pure (f none, after)) := by
  simp only [call, Core.call, Core.push, bind_assoc, pure_bind]
  exact settles_core (settles_push (settles_change (settles_jump length)))

theorem settles_ret :
    Settles start (ret >>= fun flow => follow length flow >>= fun port => pure (f port))
      (start.ret >>= fun after => pure (f none, after)) := by
  simp only [ret, Core.ret, Core.pop, bind_assoc, pure_bind]
  exact settles_pop fun target => settles_jump length

theorem settles_execute (start : Core) (instruction : Instruction) :
    Settles start (execute instruction) (start.execute instruction) := by
  simp only [execute, perform, Core.execute, Core.announce, Core.perform, Core.portAccess?]
  generalize instruction.operation = operation
  cases operation
  all_goals
    simp only [bind_assoc, pure_bind]
    refine settles_core (settles_emit (settles_core ?_))
  case nop => exact settles_next
  case hlt | unassigned => exact settles_emit settles_next
  case input | output => exact settles_port
  case mov target source => exact settles_readOperand fun byte => settles_writeOperand
  case mvi target => exact settles_writeOperand
  case lxi target | inx target | dcx target =>
    cases target <;> exact settles_change settles_next
  case stax | sta => exact settles_store settles_next
  case ldax | lda => exact settles_load fun byte => settles_change settles_next
  case shld =>
    simp only [Core.storeWord, Registers.hl, Word.high_ofBytes, Word.low_ofBytes, bind_assoc]
    exact settles_store (settles_store settles_next)
  case lhld =>
    simp only [Core.loadWord, Registers.setPair, Word.high_ofBytes, Word.low_ofBytes, bind_assoc,
      pure_bind]
    refine settles_load fun low => settles_load fun high => ?_
    exact settles_change (settles_change settles_next)
  case xchg =>
    simp only [Registers.setPair, Registers.setHalves, Registers.hl, Registers.de,
      Word.high_ofBytes, Word.low_ofBytes]
    exact settles_change (settles_change settles_next)
  case inr target | dcr target => exact settles_count
  case dad source =>
    cases source <;> exact settles_core (settles_change (settles_change settles_next))
  case arithmetic kind source =>
    exact settles_readOperand fun byte => settles_change settles_next
  case rotate kind => exact settles_change (settles_change settles_next)
  case arithmeticImmediate | daa | cma | stc | cmc | sphl | ei | di =>
    exact settles_change settles_next
  case jump | pchl => exact settles_jump _
  case jumpIf condition =>
    split
    · exact settles_jump 3
    · exact settles_next
  case call | rst => exact settles_call
  case callIf condition =>
    split
    · exact settles_call
    · exact settles_next
  case ret => exact settles_ret
  case retIf condition =>
    split
    · exact settles_ret
    · exact settles_next
  case push source =>
    simp only [Core.push, bind_assoc, pure_bind]
    exact settles_core (settles_push (settles_change settles_next))
  case pop target =>
    simp only [Core.pop, bind_assoc, pure_bind]
    cases target <;> exact settles_pop fun word => settles_change settles_next
  case xthl =>
    simp only [Core.loadWord, Core.storeWord, Registers.setPair, Registers.hl, Word.high_ofBytes,
      Word.low_ofBytes, bind_assoc, pure_bind]
    refine settles_load fun low => settles_load fun high => ?_
    exact settles_store (settles_store (settles_change (settles_change settles_next)))

theorem settles_fetch_execute (start : Core) :
    Settles start (fetch >>= execute) (start.fetch >>= start.execute) := by
  simp only [fetch, Core.fetch, bind_assoc, pure_bind]
  refine settles_core (settles_load fun opcode => ?_)
  by_cases htwo : 1 < (Operation.decode opcode).length <;>
    by_cases hthree : 2 < (Operation.decode opcode).length <;>
    simp only [htwo, hthree, if_true, if_false, bind_assoc, pure_bind]
  · exact settles_load fun lo => settles_load fun hi => settles_execute start ⟨opcode, lo, hi⟩
  · exact settles_load fun lo => settles_execute start ⟨opcode, lo, 0⟩
  · exact settles_load fun hi => settles_execute start ⟨opcode, 0, hi⟩
  · exact settles_execute start ⟨opcode, 0, 0⟩

theorem settles_enterHandler (number : Restart) {value : β} :
    Settles start (enterHandler number >>= fun _ => pure value)
      (start.enterHandler number >>= fun after => pure (value, after)) := by
  simp only [enterHandler, Core.enterHandler, Core.call, Core.push, bind_assoc, pure_bind]
  refine settles_core (settles_push ?_)
  exact settles_change_emit (settles_change_emit (settles_change_emit (settles_emit settles_pure)))

theorem settles_proceed (start : Core) (request : Option Restart) :
    Settles start (proceed request) (start.step request) := by
  cases request with
  | none => exact settles_fetch_execute start
  | some number =>
    simp only [proceed, Core.step]
    refine settles_core ?_
    split
    · exact settles_enterHandler number
    · exact settles_emit (settles_fetch_execute start)

end Instructions

end Routine

theorem execute_eq (cpu : Cpu) (instruction : Instruction) :
    cpu.execute instruction = cpu.transact (·.execute instruction) :=
  Routine.settles_execute cpu.toCore instruction cpu.pending cpu.memory cpu.config

/-- A step takes the pending request, and what it does then is one transaction. -/
theorem step_eq (cpu : Cpu) :
    cpu.step = { cpu with pending := none }.transact (·.step cpu.pending) :=
  Routine.settles_proceed cpu.toCore cpu.pending none cpu.memory cpu.config

theorem push_eq (cpu : Cpu) (value : Word) :
    cpu.push value = cpu.transact fun core => return ((), ← core.push value) := by
  have hsettles : Routine.Settles cpu.toCore (Routine.push value >>= pure)
      (cpu.toCore.push value >>= fun after => pure ((), after)) := by
    simp only [Core.push, bind_assoc, pure_bind]
    exact Routine.settles_push (Routine.settles_change Routine.settles_pure)
  rw [bind_pure] at hsettles
  exact hsettles cpu.pending cpu.memory cpu.config

theorem pop_eq (cpu : Cpu) : cpu.pop = cpu.transact Core.pop := by
  have hsettles : Routine.Settles cpu.toCore (Routine.pop >>= pure) cpu.toCore.pop :=
    Routine.settles_pop fun word => Routine.settles_pure
  rw [bind_pure] at hsettles
  exact hsettles cpu.pending cpu.memory cpu.config

theorem writeByte_eq (cpu : Cpu) (addr : Word) (value : Byte) :
    cpu.writeByte addr value = cpu.transact fun core => do
      Bus.store addr value
      return ((), core) := by
  have hsettles : Routine.Settles cpu.toCore (Routine.store addr value >>= pure)
      (Bus.store addr value >>= fun _ => pure ((), cpu.toCore)) :=
    Routine.settles_store Routine.settles_pure
  rw [bind_pure] at hsettles
  exact hsettles cpu.pending cpu.memory cpu.config

end Arcade8080.Cpu
