import Arcade8080.Bus.Stores
import Arcade8080.Core.Lemmas
import Arcade8080.Cpu.Lemmas

/-!
The write window concerns memory and nothing else. Every instruction reads all that it
reads before it stores, so it cannot notice what the window does with its stores: the
outcome and the registers are the same behind every window, and a program whose stores
are all admitted might as well run behind none.
-/

namespace Arcade8080

namespace Core

theorem storesOnly_writeOperand (core : Core) (target : Operand) (value : Byte) :
    (core.writeOperand target value).StoresOnly := by
  cases target with
  | register name => exact Bus.storesOnly_pure _
  | memory => exact (Bus.storesOnly_store _ value).bind fun _ => Bus.storesOnly_pure core

theorem storesOnly_storeWord (addr value : Word) : (storeWord addr value).StoresOnly :=
  (Bus.storesOnly_store addr _).bind fun _ => Bus.storesOnly_store (addr + 1) _

theorem storesOnly_push (core : Core) (value : Word) : (core.push value).StoresOnly :=
  (storesOnly_storeWord _ value).bind fun _ => Bus.storesOnly_pure _

theorem storesOnly_call (core : Core) (target : Word) : (core.call target).StoresOnly :=
  (storesOnly_push core core.pc).bind fun _ => Bus.storesOnly_pure _

theorem orderly_readOperand (core : Core) (source : Operand) :
    (core.readOperand source).Orderly := by
  cases source with
  | register name => exact Bus.orderly_pure _
  | memory => exact Bus.orderly_load _

theorem orderly_loadWord (addr : Word) : (loadWord addr).Orderly := by
  apply (Bus.orderly_load addr).bind (Bus.readOnly_load addr)
  intro low
  exact (Bus.orderly_load (addr + 1)).bind_storesOnly fun _ => Bus.storesOnly_pure _

theorem orderly_pop (core : Core) : core.pop.Orderly :=
  (orderly_loadWord core.sp).bind_storesOnly fun _ => Bus.storesOnly_pure _

theorem orderly_ret (core : Core) : core.ret.Orderly :=
  (orderly_pop core).bind_storesOnly fun _ => Bus.storesOnly_pure _

/-- No instruction reads after it has stored, XTHL and those that change a byte in its
place included. -/
theorem orderly_perform (core : Core) (instruction : Instruction) :
    (core.perform instruction).Orderly := by
  simp only [perform]
  cases instruction.operation with
  | mov target source =>
    exact (orderly_readOperand core source).bind_storesOnly fun value =>
      storesOnly_writeOperand core target value
  | mvi target => exact (storesOnly_writeOperand core target _).orderly
  | stax | sta =>
    exact ((Bus.storesOnly_store _ _).bind fun _ => Bus.storesOnly_pure core).orderly
  | ldax | lda => exact (Bus.orderly_load _).bind_storesOnly fun _ => Bus.storesOnly_pure _
  | shld => exact ((storesOnly_storeWord _ _).bind fun _ => Bus.storesOnly_pure core).orderly
  | lhld => exact (orderly_loadWord _).bind_storesOnly fun _ => Bus.storesOnly_pure _
  | inr target | dcr target =>
    exact (orderly_readOperand core target).bind_storesOnly fun value =>
      storesOnly_writeOperand _ target _
  | arithmetic kind source =>
    exact (orderly_readOperand core source).bind_storesOnly fun _ => Bus.storesOnly_pure _
  | jumpIf condition =>
    dsimp only
    split <;> exact Bus.orderly_pure _
  | call | rst => exact (storesOnly_call core _).orderly
  | callIf condition =>
    dsimp only
    split
    · exact (storesOnly_call core _).orderly
    · exact Bus.orderly_pure _
  | ret => exact orderly_ret core
  | retIf condition =>
    dsimp only
    split
    · exact orderly_ret core
    · exact Bus.orderly_pure _
  | push => exact (storesOnly_push core _).orderly
  | pop => exact (orderly_pop core).bind_storesOnly fun _ => Bus.storesOnly_pure _
  | xthl =>
    apply (orderly_loadWord core.sp).bind_storesOnly
    intro value
    exact (storesOnly_storeWord core.sp _).bind fun _ => Bus.storesOnly_pure _
  | _ => exact Bus.orderly_pure _

theorem readOnly_announce (core : Core) (instruction : Instruction) :
    (core.announce instruction).ReadOnly := by
  rw [announce]
  cases instruction.operation <;> trivial

theorem orderly_announce (core : Core) (instruction : Instruction) :
    (core.announce instruction).Orderly := by
  apply Bus.orderly_emit_bind (by simp [Record.level])
  cases instruction.operation with
  | hlt | unassigned => exact Bus.orderly_emit_bind (by simp [Record.level]) (Bus.orderly_pure ())
  | _ => exact Bus.orderly_pure ()

theorem orderly_execute (core : Core) (instruction : Instruction) :
    (core.execute instruction).Orderly := by
  apply (orderly_announce core instruction).bind (readOnly_announce core instruction)
  intro _
  have hperform := orderly_perform (core.past instruction) instruction
  exact hperform.bind_storesOnly fun _ => Bus.storesOnly_pure _

theorem orderly_fetch (core : Core) : core.fetch.Orderly := by
  have hoperand (present : Prop) [Decidable present] (addr : Word) :
      (if present then Bus.load addr else pure 0).Orderly ∧
        (if present then Bus.load addr else pure 0).ReadOnly := by
    split
    · exact ⟨Bus.orderly_load addr, Bus.readOnly_load addr⟩
    · exact ⟨Bus.orderly_pure 0, Bus.readOnly_pure 0⟩
  rw [fetch_eq]
  apply (Bus.orderly_load core.pc).bind (Bus.readOnly_load core.pc)
  intro opcode
  apply (hoperand _ (core.pc + 1)).1.bind (hoperand _ (core.pc + 1)).2
  intro lo
  exact (hoperand _ (core.pc + 2)).1.bind_storesOnly fun _ => Bus.storesOnly_pure _

/-- A step in whole is orderly: it fetches and executes, or puts the program counter on
the stack. -/
theorem orderly_step (core : Core) (request : Option Restart) : (core.step request).Orderly := by
  have hfetched : (core.fetch >>= core.execute).Orderly :=
    (orderly_fetch core).bind (readOnly_fetch core) (orderly_execute core)
  have hhandler (number : Restart) : (core.enterHandler number).StoresOnly := by
    apply (storesOnly_call core number.address).bind
    intro _
    exact (Bus.storesOnly_emit (by simp [Record.level])).bind fun _ => Bus.storesOnly_pure _
  cases request with
  | none => exact hfetched
  | some number =>
    rw [step]
    split
    · exact ((hhandler number).bind fun _ => Bus.storesOnly_pure _).orderly
    · exact Bus.orderly_emit_bind (by simp [Record.level]) hfetched

end Core

namespace Cpu

variable {α : Type} {cpu : Cpu} {window : Window} {program : Core → Bus (α × Core)}

/-- The same processor with its memory behind another window. -/
def behind (cpu : Cpu) (window : Window) : Cpu :=
  { cpu with memory := cpu.memory.behind window }

/-- What the next step stores at addresses that memory has, in order. -/
def stepStores (cpu : Cpu) : List Store := (cpu.toCore.step cpu.pending).stores cpu.memory

/-- What an instruction stores at addresses that memory has, in order. -/
def executeStores (cpu : Cpu) (instruction : Instruction) : List Store :=
  (cpu.toCore.execute instruction).stores cpu.memory

/-- Two attempts, the second one with the memory behind another window, that differ in
bytes at most, and in those only where something was stored that one window admits and
the other does not. -/
structure AlikeBehind (before : Memory) (window : Window) (stores : List Store)
    (first second : Attempt Cpu α) : Prop where
  result : second.result = first.result
  core : second.state.toCore = first.state.toCore
  pending : second.state.pending = first.state.pending
  config : second.state.config = first.state.config
  isAllocated : second.state.memory.isAllocated = first.state.memory.isAllocated
  size : second.state.memory.size = first.state.memory.size
  windows : first.state.memory.window = before.window ∧ second.state.memory.window = window
  byte? : ∀ addr, (∀ store ∈ stores, store.addr.toNat ≠ addr) ∨
      window.contains addr = before.window.contains addr →
    second.state.memory.byte? addr = first.state.memory.byte? addr

/-- An attempt whose stores are all accounted for: those that the window admits have
made memory what it is now, and of each other one there is a warning. -/
structure Accounts (before : Memory) (stores : List Store) (attempt : Attempt Cpu α) : Prop where
  placed : ∀ store ∈ stores, store.addr.toNat < before.size
  memory : attempt.state.memory =
    before.storeAll (stores.filter fun store => store.admitted before.window)
  warnings : attempt.records.filter (fun record => record.level = .warn) =
    (stores.filter fun store => !store.admitted before.window).map
      (Store.rejection before.window)

theorem alikeBehind_transact (h : ∀ core, (program core).Orderly) (cpu : Cpu)
    (window : Window) :
    AlikeBehind cpu.memory window ((program cpu.toCore).stores cpu.memory)
      (cpu.transact program) ((cpu.behind window).transact program) := by
  obtain ⟨hresult, hstores⟩ := (h cpu.toCore).run_behind cpu.memory window
  have hcore : (cpu.behind window).toCore = cpu.toCore := rfl
  have hmemory : (cpu.behind window).memory = cpu.memory.behind window := rfl
  constructor
  · simp only [transact_eq, hcore, hmemory, hresult]
  · simp only [transact_eq, hcore, hmemory, hresult]
  · rw [pending_transact, pending_transact]
    rfl
  · rw [config_transact, config_transact]
    rfl
  · simp only [memory_transact, Bus.state_run, hcore, hmemory, Memory.isAllocated_storeAll]
    rfl
  · simp only [memory_transact, Bus.state_run, hcore, hmemory, Memory.size_storeAll,
      Memory.size_behind]
  · simp only [memory_transact, Bus.state_run, hcore, hmemory, Memory.window_storeAll,
      Memory.window_behind, and_self]
  · intro addr hsame
    simp only [memory_transact, Bus.state_run, hcore, hmemory, hstores]
    rcases hsame with hunused | hwindow
    · rw [Memory.byte?_storeAll_of_forall_ne hunused, Memory.byte?_storeAll_of_forall_ne hunused]
      rfl
    · apply Memory.byte?_storeAll_congr
      · rfl
      · exact hwindow
      · rfl

theorem accounts_transact (h : ∀ core, (program core).Orderly) (cpu : Cpu) :
    Accounts cpu.memory ((program cpu.toCore).stores cpu.memory) (cpu.transact program) where
  placed := fun store hmem => Bus.lt_size_of_mem_stores hmem
  memory := by
    rw [memory_transact, Bus.state_run, Memory.storeAll_filter_admitted]
  warnings := by
    rw [transact_eq]
    exact (h cpu.toCore).warnings_run cpu.memory

/-- Without a warning every store was admitted, and a window that admits them all makes no
difference. -/
theorem transact_behind_of_no_warning (h : ∀ core, (program core).Orderly)
    (hopen : ∀ addr : Word, window.contains addr.toNat = true)
    (hsilent : ∀ record ∈ (cpu.transact program).records, record.level ≠ .warn) :
    ((cpu.behind window).transact program).result = (cpu.transact program).result ∧
      ((cpu.behind window).transact program).state =
        (cpu.transact program).state.behind window := by
  obtain ⟨hresult, hstores⟩ := (h cpu.toCore).run_behind cpu.memory window
  have hadmitted : ∀ store ∈ (program cpu.toCore).stores cpu.memory,
      store.admitted window = store.admitted cpu.memory.window := by
    intro store hmem
    have hwarnings := (accounts_transact h cpu).warnings
    rw [List.filter_eq_nil_iff.mpr (by simpa using hsilent), eq_comm, List.map_eq_nil_iff,
      List.filter_eq_nil_iff] at hwarnings
    have hown := hwarnings store hmem
    rw [Bool.not_eq_true', Bool.not_eq_false] at hown
    rw [hown]
    exact hopen store.addr
  have hcore : (cpu.behind window).toCore = cpu.toCore := rfl
  have hmemory : (cpu.behind window).memory = cpu.memory.behind window := rfl
  have hstate := Memory.storeAll_behind hadmitted
  constructor
  · exact (alikeBehind_transact h cpu window).result
  · simp only [transact_eq, hcore, hmemory, hresult, Bus.state_run, hstores, hstate]
    rfl

theorem step_behind_of_no_warning (hopen : ∀ addr : Word, window.contains addr.toNat = true)
    (hsilent : ∀ record ∈ cpu.step.records, record.level ≠ .warn) :
    (cpu.behind window).step.result = cpu.step.result ∧
      (cpu.behind window).step.state = cpu.step.state.behind window := by
  rw [step_eq] at hsilent ⊢
  rw [step_eq]
  exact transact_behind_of_no_warning (fun core => core.orderly_step cpu.pending) hopen hsilent

/-- Induction on the steps: those so far have led to the same processor. -/
theorem afterSteps_behind_of_no_warning {count : Nat}
    (hopen : ∀ addr : Word, window.contains addr.toNat = true)
    (hsilent : ∀ index < count, ∀ record ∈ (cpu.afterSteps index).step.records,
      record.level ≠ .warn) :
    (cpu.behind window).afterSteps count = (cpu.afterSteps count).behind window := by
  induction count with
  | zero => rfl
  | succ count ih =>
    have hearlier := ih fun index hindex => hsilent index (by omega)
    rw [afterSteps_succ, hearlier, afterSteps_succ]
    exact (step_behind_of_no_warning hopen (hsilent count (by omega))).2

theorem unrestricted_contains (addr : Word) : Window.unrestricted.contains addr.toNat = true := by
  have haddr := addr.isLt
  rw [Window.contains_iff]
  simp only [Window.unrestricted, Address.last]
  omega

/-- The window decides which stores take effect and nothing else. Behind two windows one
step, or one instruction, comes to the same outcome and the same state of the processor,
and to memories that differ at most where it stored something that only one of the
windows admits. A store that is not admitted leaves one warning and no other trace, an
admitted one none at all. So steps without such a warning do what they would do behind
no window. -/
theorem window_decides_stores_only :
    (∀ (cpu : Cpu) (window : Window),
      (cpu.behind window).stepStores = cpu.stepStores ∧
      AlikeBehind cpu.memory window cpu.stepStores cpu.step (cpu.behind window).step ∧
      ∀ instruction,
        (cpu.behind window).executeStores instruction = cpu.executeStores instruction ∧
        AlikeBehind cpu.memory window (cpu.executeStores instruction)
          (cpu.execute instruction) ((cpu.behind window).execute instruction)) ∧
    (∀ cpu : Cpu, Accounts cpu.memory cpu.stepStores cpu.step ∧
      ∀ instruction, Accounts cpu.memory (cpu.executeStores instruction)
        (cpu.execute instruction)) ∧
    (∀ (memory : Memory) (addr : Nat) (value : Byte), addr < memory.size →
      (memory.window.contains addr = false → memory.write addr value =
        ⟨.ok (), memory, [.rejectedStore value addr memory.window]⟩) ∧
      (memory.window.contains addr = true → (memory.write addr value).result = .ok () ∧
        (memory.write addr value).records = [] ∧
        (memory.write addr value).state.byte? addr = some value)) ∧
    ∀ (cpu : Cpu) (count : Nat),
      (∀ index < count, ∀ record ∈ (cpu.afterSteps index).step.records,
        record.level ≠ .warn) →
      (∀ index < count, ((cpu.behind .unrestricted).afterSteps index).step.result =
        (cpu.afterSteps index).step.result) ∧
      (cpu.behind .unrestricted).afterSteps count =
        (cpu.afterSteps count).behind .unrestricted := by
  refine ⟨?_, ?_, ?_, ?_⟩
  · intro cpu window
    have hstep (core : Core) := core.orderly_step cpu.pending
    refine ⟨((hstep cpu.toCore).run_behind cpu.memory window).2, ?_, ?_⟩
    · rw [step_eq, step_eq]
      exact alikeBehind_transact hstep { cpu with pending := none } window
    intro instruction
    have hexecute (core : Core) := core.orderly_execute instruction
    rw [execute_eq, execute_eq]
    exact ⟨((hexecute cpu.toCore).run_behind cpu.memory window).2,
      alikeBehind_transact hexecute cpu window⟩
  · intro cpu
    have hstep (core : Core) := core.orderly_step cpu.pending
    rw [step_eq]
    refine ⟨accounts_transact hstep { cpu with pending := none }, ?_⟩
    intro instruction
    rw [execute_eq]
    exact accounts_transact (fun core => core.orderly_execute instruction) cpu
  · intro memory addr value hsize
    refine ⟨Memory.write_eq_of_rejected hsize, ?_⟩
    intro hopen
    refine ⟨Memory.result_write_eq_ok_iff.mpr hsize, ?_, ?_⟩
    · rw [Memory.records_write, if_neg]
      rintro ⟨_, hclosed⟩
      rw [hopen] at hclosed
      cases hclosed
    · rw [Memory.byte?_write, if_pos ⟨rfl, hsize, hopen⟩]
  · intro cpu count hsilent
    constructor
    · intro index hindex
      rw [afterSteps_behind_of_no_warning unrestricted_contains fun earlier hearlier =>
        hsilent earlier (by omega)]
      exact (step_behind_of_no_warning unrestricted_contains (hsilent index hindex)).1
    · exact afterSteps_behind_of_no_warning unrestricted_contains hsilent

/-- XTHL on two bytes of which the window opens the second. -/
def swapping : Cpu where
  registers := { h := 0x33, l := 0x44 }
  sp := 2
  memory := ⟨some #[0xE3, 0x00, 0x11, 0x22], ⟨3, 4⟩, by decide⟩

/-- Behind no window both bytes are exchanged, behind this one half of them, with a
warning; HL gets both. A window that opens both bytes makes no difference. -/
theorem window_decides_stores_only_of_swapping :
    swapping.stepStores = [⟨2, 0x44⟩, ⟨3, 0x33⟩] ∧
    (swapping.behind .unrestricted).step.state.registers.hl = 0x2211 ∧
    swapping.step.state.toCore = (swapping.behind .unrestricted).step.state.toCore ∧
    (swapping.behind .unrestricted).step.state.memory.byte? 3 =
      swapping.step.state.memory.byte? 3 ∧
    swapping.step.records.filter (fun record => record.level = .warn) =
      [.rejectedStore 0x44 2 ⟨3, 4⟩] ∧
    ((swapping.behind ⟨2, 4⟩).behind .unrestricted).afterSteps 1 =
      ((swapping.behind ⟨2, 4⟩).afterSteps 1).behind .unrestricted := by
  obtain ⟨hpairs, haccounts, _, hruns⟩ := window_decides_stores_only
  have halike := (hpairs swapping .unrestricted).2.1
  have hstores : swapping.stepStores = [⟨2, 0x44⟩, ⟨3, 0x33⟩] := rfl
  have hwarnings := (haccounts swapping).1.warnings
  rw [hstores] at hwarnings
  exact ⟨hstores, rfl, halike.core.symm, halike.byte? 3 (.inr rfl), hwarnings,
    (hruns (swapping.behind ⟨2, 4⟩) 1 (by decide)).2⟩

end Cpu

end Arcade8080
