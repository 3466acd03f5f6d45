import Arcade8080.Bus.Visits
import Arcade8080.Core.Footprint
import Arcade8080.Core.Lemmas

/-!
In which order the processor asks for the bytes that it uses. Each routine goes through its
own addresses, and an instruction through its data addresses.
-/

namespace Arcade8080.Core

open Bus (visits_pure visits_load visits_store)

theorem visits_readOperand (core : Core) (source : Operand) :
    (core.readOperand source).Visits (core.operandAddrs source) := by
  cases source with
  | register name => exact visits_pure _
  | memory => exact visits_load _

theorem visits_writeOperand (core : Core) (target : Operand) (value : Byte) :
    (core.writeOperand target value).Visits (core.operandAddrs target) := by
  cases target with
  | register name => exact visits_pure _
  | memory => exact (visits_store _ value).bind_last fun _ => visits_pure core

theorem visits_loadWord (addr : Word) : (loadWord addr).Visits [addr, addr + 1] := by
  apply (visits_load addr).bind
  intro low
  exact (visits_load (addr + 1)).bind_last fun high => visits_pure _

theorem visits_storeWord (addr value : Word) :
    (storeWord addr value).Visits [addr, addr + 1] := by
  apply (visits_store addr _).bind
  intro _
  exact visits_store (addr + 1) _

/-- The low byte goes to the lower address, and first. -/
theorem visits_push_store (core : Core) (value : Word) :
    (storeWord (core.sp - 2) value).Visits core.pushAddrs := by
  have hnext : core.sp - 1 = core.sp - 2 + 1 := by bv_omega
  rw [pushAddrs, hnext]
  exact visits_storeWord (core.sp - 2) value

theorem visits_call (core : Core) (target : Word) : (core.call target).Visits core.pushAddrs := by
  rw [call_eq]
  exact (visits_push_store core core.pc).bind_last fun _ => visits_pure _

theorem visits_pop (core : Core) : core.pop.Visits core.popAddrs :=
  (visits_loadWord core.sp).bind_last fun _ => visits_pure _

theorem visits_ret (core : Core) : core.ret.Visits core.popAddrs :=
  (visits_pop core).bind_last fun _ => visits_pure _

/-- Every instruction goes through its data addresses in order. Some come back to them: to
store a byte that they have counted up or down, or both bytes that they have exchanged. -/
theorem reaches_perform (core : Core) (instruction : Instruction) :
    (core.perform instruction).Reaches (core.dataAddrs instruction) := by
  simp only [perform, dataAddrs]
  cases instruction.operation with
  | mov target source =>
    exact ((visits_readOperand core source).bind fun value =>
      visits_writeOperand core target value).reaches
  | mvi target => exact (visits_writeOperand core target _).reaches
  | inr target =>
    apply Bus.Visits.reaches_of_twice
    apply (visits_readOperand core target).bind
    intro value
    exact visits_writeOperand { core with flags := (Alu.increment core.flags value).2 } target _
  | dcr target =>
    apply Bus.Visits.reaches_of_twice
    apply (visits_readOperand core target).bind
    intro value
    exact visits_writeOperand { core with flags := (Alu.decrement core.flags value).2 } target _
  | arithmetic kind source =>
    exact ((visits_readOperand core source).bind_last fun _ => visits_pure _).reaches
  | stax | sta => exact ((visits_store _ _).bind_last fun _ => visits_pure _).reaches
  | ldax | lda => exact ((visits_load _).bind_last fun _ => visits_pure _).reaches
  | shld => exact ((visits_storeWord _ _).bind_last fun _ => visits_pure _).reaches
  | lhld => exact ((visits_loadWord _).bind_last fun _ => visits_pure _).reaches
  | push => exact ((visits_push_store core _).bind_last fun _ => visits_pure _).reaches
  | call | rst => exact (visits_call core _).reaches
  | callIf condition =>
    dsimp only
    split
    · exact (visits_call core _).reaches
    · exact (visits_pure _).reaches
  | pop => exact ((visits_pop core).bind_last fun _ => visits_pure _).reaches
  | ret => exact (visits_ret core).reaches
  | retIf condition =>
    dsimp only
    split
    · exact (visits_ret core).reaches
    · exact (visits_pure _).reaches
  | xthl =>
    apply Bus.Visits.reaches_of_twice
    apply (visits_loadWord core.sp).bind
    intro value
    exact (visits_storeWord core.sp _).bind_last fun _ => visits_pure _
  | jumpIf condition =>
    dsimp only
    split <;> exact (visits_pure _).reaches
  | _ => exact (visits_pure _).reaches

end Arcade8080.Core
