import Arcade8080.Core.Visits
import Arcade8080.Proofs.Fetching

/-!
Steps are local: one step depends on the bytes of its footprint and changes no
others. As the footprint is told from the state alone, it says in advance which
part of memory a step can be about, and the footprints of a run together say the
same of the run, also where the program rewrites itself on the way.
-/

namespace Arcade8080

namespace Core

variable {core : Core} {first second memory : Memory}

/-- Every instruction keeps to its data addresses. -/
theorem within_perform (core : Core) (instruction : Instruction) :
    (core.perform instruction).Within (core.dataAddrs instruction) :=
  (reaches_perform core instruction).within

theorem within_execute (core : Core) (instruction : Instruction) :
    (core.execute instruction).Within (core.dataAddrs instruction) := by
  have hannounce : (core.announce instruction).Within (core.dataAddrs instruction) := by
    apply (Bus.within_emit _).bind
    intro _
    cases instruction.operation with
    | hlt | unassigned => exact Bus.within_emit _
    | _ => exact Bus.within_pure _
  apply hannounce.bind
  intro _
  exact (within_perform (core.past instruction) instruction).bind fun _ => Bus.within_pure _

theorem within_enterHandler (core : Core) (number : Restart) :
    (core.enterHandler number).Within core.pushAddrs := by
  apply (visits_call core number.address).within.bind
  intro after
  exact (Bus.within_emit _).bind fun _ => Bus.within_pure _

theorem dataAddrs_trimmed (core : Core) (instruction : Instruction) :
    core.dataAddrs instruction.trimmed = core.dataAddrs instruction := by
  simp only [dataAddrs, Instruction.operation_trimmed]
  cases hoperation : instruction.operation with
  | sta | lda | shld | lhld =>
    have hword : instruction.trimmed.word = instruction.word :=
      Instruction.word_trimmed (by simp [hoperation, Operation.length])
    simp only [hword]
  | _ => rfl

theorem mem_codeAddrs {opcode : Byte} {index : Nat} {addr : Word}
    (h : memory.byte? core.pc.toNat = some opcode)
    (hlength : index < (Operation.decode opcode).length)
    (haddr : [core.pc, core.pc + 1, core.pc + 2][index]? = some addr) :
    addr ∈ core.codeAddrs memory := by
  rw [codeAddrs_eq h]
  apply List.mem_of_getElem?
  rw [List.getElem?_take_of_lt hlength]
  exact haddr

theorem pc_mem_codeAddrs (core : Core) (memory : Memory) : core.pc ∈ core.codeAddrs memory := by
  cases hopcode : memory.byte? core.pc.toNat with
  | none => simp [codeAddrs, codeLength, hopcode]
  | some opcode =>
    have hlength := (Operation.decode opcode).length_cases
    have hfirst : 0 < (Operation.decode opcode).length := by omega
    exact mem_codeAddrs hopcode hfirst rfl

theorem codeAddrs_congr (h : first.AgreeOn (core.codeAddrs first) second) :
    core.codeAddrs second = core.codeAddrs first := by
  simp only [codeAddrs, codeLength, h.byte? core.pc (pc_mem_codeAddrs core first)]

theorem missing?_congr (h : first.AgreeOn (core.codeAddrs first) second) :
    core.missing? second = core.missing? first := by
  rw [missing?, missing?, codeAddrs_congr h, h.size]

theorem standsAt_congr {instruction : Instruction}
    (h : first.AgreeOn (core.codeAddrs first) second)
    (hstands : instruction.StandsAt first core.pc) :
    instruction.StandsAt second core.pc where
  opcode := by
    rw [h.byte? core.pc (pc_mem_codeAddrs core first)]
    exact hstands.opcode
  lo := by
    intro htwo
    rw [h.byte? (core.pc + 1) (mem_codeAddrs hstands.opcode htwo rfl)]
    exact hstands.lo htwo
  hi := by
    intro hthree
    rw [h.byte? (core.pc + 2) (mem_codeAddrs hstands.opcode hthree rfl)]
    exact hstands.hi hthree

section Step

variable {request : Option Restart} {addrs : List Word}

/-- What a step has before it: a request that is due, or else an instruction, or an
address where the instruction would go on and memory does not. -/
theorem footprint_cases (core : Core) (request : Option Restart) (memory : Memory) :
    (∃ number, request = some number ∧ core.interruptsEnabled = true) ∨
      (request = none ∨ core.interruptsEnabled = false) ∧
        ((∃ addr, core.missing? memory = some addr) ∨
          ∃ instruction : Instruction, instruction.StandsAt memory core.pc) := by
  have hthere : (∃ addr, core.missing? memory = some addr) ∨
      ∃ instruction : Instruction, instruction.StandsAt memory core.pc := by
    cases hmissing : core.missing? memory with
    | some addr => exact .inl ⟨addr, rfl⟩
    | none => exact .inr (exists_standsAt hmissing)
  cases request with
  | none => exact .inr ⟨.inl rfl, hthere⟩
  | some number =>
    cases henabled : core.interruptsEnabled with
    | true => exact .inl ⟨number, rfl, rfl⟩
    | false => exact .inr ⟨.inr rfl, hthere⟩

theorem footprint_of_due {number : Restart} (h : core.interruptsEnabled = true) :
    core.footprint (some number) memory = core.pushAddrs := by
  simp [footprint, h]

theorem not_due (h : request = none ∨ core.interruptsEnabled = false) :
    (request.isSome && core.interruptsEnabled) = false := by
  rcases h with rfl | hmasked
  · rfl
  · rw [hmasked, Bool.and_false]

theorem footprint_of_standsAt {instruction : Instruction}
    (hidle : request = none ∨ core.interruptsEnabled = false)
    (h : instruction.StandsAt memory core.pc) :
    core.footprint request memory = core.codeAddrs memory ++ core.dataAddrs instruction := by
  simp [footprint, not_due hidle, run_fetch_of_standsAt h, Attempt.succeed, dataAddrs_trimmed]

theorem footprint_of_missing {addr : Word}
    (hidle : request = none ∨ core.interruptsEnabled = false)
    (h : core.missing? memory = some addr) :
    core.footprint request memory = core.codeAddrs memory := by
  simp [footprint, not_due hidle, run_fetch_of_missing h, Attempt.fail]

theorem within_step_of_due {number : Restart} (h : core.interruptsEnabled = true) :
    (core.step (some number)).Within core.pushAddrs := by
  simp only [step, h, if_true]
  exact (within_enterHandler core number).bind fun _ => Bus.within_pure _

/-- A step comes to the same on memories that agree on its footprint. -/
theorem agree_step (h : first.AgreeOn addrs second)
    (hsub : core.footprint request first ⊆ addrs) :
    ((core.step request).run first).AgreeOn addrs ((core.step request).run second) := by
  rcases core.footprint_cases request first with
    ⟨number, rfl, henabled⟩ | ⟨hidle, ⟨addr, hmissing⟩ | ⟨instruction, hstands⟩⟩
  · rw [footprint_of_due henabled] at hsub
    exact ((within_step_of_due henabled).mono hsub).agree_run h
  · rw [footprint_of_missing hidle hmissing] at hsub
    have hother := (missing?_congr (h.mono hsub)).trans hmissing
    rw [run_step_of_missing hidle hmissing, run_step_of_missing hidle hother, h.faultAt]
    exact ⟨rfl, rfl, h⟩
  · rw [footprint_of_standsAt hidle hstands] at hsub
    obtain ⟨hcode, hdata⟩ := List.append_subset.mp hsub
    have hother := standsAt_congr (h.mono hcode) hstands
    rw [run_step_of_standsAt hidle hstands, run_step_of_standsAt hidle hother]
    exact (((within_execute core instruction).mono hdata).agree_run h).after _

/-- A step changes nothing outside its footprint. -/
theorem kept_step (core : Core) (request : Option Restart) (memory : Memory) :
    memory.KeptOutside (core.footprint request memory) ((core.step request).run memory).state := by
  rcases core.footprint_cases request memory with
    ⟨number, rfl, henabled⟩ | ⟨hidle, ⟨addr, hmissing⟩ | ⟨instruction, hstands⟩⟩
  · rw [footprint_of_due henabled]
    exact (within_step_of_due henabled).kept_run memory
  · rw [run_step_of_missing hidle hmissing]
    exact .refl memory
  · rw [footprint_of_standsAt hidle hstands, run_step_of_standsAt hidle hstands]
    have hkept := (within_execute core instruction).kept_run memory
    exact hkept.mono (List.subset_append_right _ _)

/-- Memories that agree on the footprint give the same footprint. -/
theorem footprint_congr (h : first.AgreeOn (core.footprint request first) second) :
    core.footprint request second = core.footprint request first := by
  rcases core.footprint_cases request first with
    ⟨number, rfl, henabled⟩ | ⟨hidle, ⟨addr, hmissing⟩ | ⟨instruction, hstands⟩⟩
  · rw [footprint_of_due henabled, footprint_of_due henabled]
  · rw [footprint_of_missing hidle hmissing] at h ⊢
    have hother := (missing?_congr h).trans hmissing
    rw [footprint_of_missing hidle hother, codeAddrs_congr h]
  · rw [footprint_of_standsAt hidle hstands] at h ⊢
    have hcode : first.AgreeOn (core.codeAddrs first) second :=
      h.mono (List.subset_append_left _ _)
    rw [footprint_of_standsAt hidle (standsAt_congr hcode hstands), codeAddrs_congr hcode]

end Step

end Core

/-- Two processors that differ in bytes of memory at most, and not in those at some
addresses. -/
structure Cpu.AgreeOn (addrs : List Word) (first second : Cpu) : Prop where
  core : second.toCore = first.toCore
  pending : second.pending = first.pending
  config : second.config = first.config
  memory : first.memory.AgreeOn addrs second.memory

namespace Cpu

variable {addrs : List Word} {first second : Cpu} {count : Nat}

/-- The addresses that the next step uses. -/
def footprint (cpu : Cpu) : List Word := cpu.toCore.footprint cpu.pending cpu.memory

/-- The addresses that the next steps use. -/
def runFootprint (cpu : Cpu) (count : Nat) : List Word :=
  (List.range count).flatMap fun index => (cpu.afterSteps index).footprint

theorem AgreeOn.mono {larger : List Word} (h : first.AgreeOn larger second)
    (hsub : addrs ⊆ larger) : first.AgreeOn addrs second :=
  ⟨h.core, h.pending, h.config, h.memory.mono hsub⟩

theorem footprint_congr (h : first.AgreeOn first.footprint second) :
    second.footprint = first.footprint := by
  rw [footprint, h.core, h.pending]
  exact Core.footprint_congr h.memory

/-- A step of one processor is what it is of the other. -/
structure StepsAlike (addrs : List Word) (first second : Cpu) : Prop where
  result : second.step.result = first.step.result
  records : second.step.records = first.step.records
  state : first.step.state.AgreeOn addrs second.step.state

theorem AgreeOn.stepsAlike (h : first.AgreeOn addrs second) (hsub : first.footprint ⊆ addrs) :
    first.StepsAlike addrs second := by
  obtain ⟨hresult, hrecords, hstate⟩ := Core.agree_step h.memory hsub
  constructor
  · simp only [step_eq, transact_eq, h.core, h.pending, hresult]
  · simp only [step_eq, transact_eq, h.core, h.pending, hrecords]
  · simp only [step_eq, transact_eq, h.core, h.pending, hresult]
    exact ⟨rfl, rfl, h.config, hstate⟩

theorem kept_step (cpu : Cpu) : cpu.memory.KeptOutside cpu.footprint cpu.step.state.memory := by
  rw [step_eq, memory_transact]
  exact Core.kept_step cpu.toCore cpu.pending cpu.memory

theorem footprint_subset_runFootprint (cpu : Cpu) {index : Nat} (h : index < count) :
    (cpu.afterSteps index).footprint ⊆ cpu.runFootprint count := by
  intro addr hmem
  exact List.mem_flatMap.mpr ⟨index, List.mem_range.mpr h, hmem⟩

/-- Induction on the steps: those so far have left processors that agree, and the
next one uses no other addresses. -/
theorem AgreeOn.afterSteps (h : first.AgreeOn addrs second)
    (hsub : ∀ index < count, (first.afterSteps index).footprint ⊆ addrs) :
    (first.afterSteps count).AgreeOn addrs (second.afterSteps count) := by
  induction count with
  | zero => exact h
  | succ count ih =>
    have hearlier := ih fun index hindex => hsub index (by omega)
    exact (hearlier.stepsAlike (hsub count (by omega))).state

theorem kept_afterSteps {cpu : Cpu}
    (hsub : ∀ index < count, (cpu.afterSteps index).footprint ⊆ addrs) :
    cpu.memory.KeptOutside addrs (cpu.afterSteps count).memory := by
  induction count with
  | zero => exact .refl cpu.memory
  | succ count ih =>
    have hearlier := ih fun index hindex => hsub index (by omega)
    exact hearlier.trans ((kept_step (cpu.afterSteps count)).mono (hsub count (by omega)))

/-- Two processors that agree on the footprint of a step of the one take the same
step: the same outcome, the same records, the same state but for bytes outside the
footprint, and those are as they were in each of them. So are they after any number
of steps of which no footprint has them, and they have no part in what these steps
do. -/
theorem steps_use_only_their_footprints :
    (∀ first second : Cpu, first.AgreeOn first.footprint second →
      first.StepsAlike first.footprint second ∧
      first.memory.KeptOutside first.footprint first.step.state.memory ∧
      second.memory.KeptOutside first.footprint second.step.state.memory) ∧
    ∀ (count : Nat) (first second : Cpu), first.AgreeOn (first.runFootprint count) second →
      (∀ index < count,
        (first.afterSteps index).StepsAlike (first.runFootprint count)
          (second.afterSteps index)) ∧
      (first.afterSteps count).AgreeOn (first.runFootprint count) (second.afterSteps count) ∧
      first.memory.KeptOutside (first.runFootprint count) (first.afterSteps count).memory ∧
      second.memory.KeptOutside (first.runFootprint count) (second.afterSteps count).memory := by
  constructor
  · intro first second h
    have hsecond := kept_step second
    rw [footprint_congr h] at hsecond
    exact ⟨h.stepsAlike (List.Subset.refl _), kept_step first, hsecond⟩
  · intro count first second h
    have hused {index : Nat} (hindex : index < count) :=
      footprint_subset_runFootprint first hindex
    have hagree {index : Nat} (hindex : index ≤ count) :
        (first.afterSteps index).AgreeOn (first.runFootprint count) (second.afterSteps index) :=
      h.afterSteps fun earlier hearlier => hused (by omega)
    have hother {index : Nat} (hindex : index < count) :
        (second.afterSteps index).footprint ⊆ first.runFootprint count := by
      rw [footprint_congr ((hagree (by omega)).mono (hused hindex))]
      exact hused hindex
    refine ⟨?_, hagree (by omega), ?_, ?_⟩
    · intro index hindex
      exact (hagree (by omega)).stepsAlike (hused hindex)
    · exact kept_afterSteps fun index hindex => hused hindex
    · exact kept_afterSteps fun index hindex => hother hindex

/-- A processor about to store 0 over the opcode that follows, where HLT stands. One
more byte comes after it. -/
def patching (spare : Byte) : Cpu where
  memory := ⟨some #[0x32, 0x03, 0x00, 0x76, spare], .unrestricted, by
    simp [Memory.limit]⟩

/-- A processor about to add the bytes that BC and HL point to and to store their sum at the
next address. One more byte comes after it. -/
def summing (spare : Byte) : Cpu where
  registers := { c := 5, l := 6 }
  memory := ⟨some #[0x0A, 0x86, 0x32, 0x07, 0x00, 0x11, 0x22, 0x00, spare], .unrestricted, by
    simp [Memory.limit]⟩

/-- The last byte of memory has no part in two steps, of which the first writes the
second, and comes through them. The same holds of three steps that use the bytes before it
by LDAX, ADD M and STA. -/
theorem steps_use_only_their_footprints_of_patching :
    (patching 0).runFootprint 2 = [0, 1, 2, 3, 3] ∧
    ((patching 0).afterSteps 1).StepsAlike [0, 1, 2, 3, 3] ((patching 0xFF).afterSteps 1) ∧
    ((patching 0).afterSteps 2).AgreeOn [0, 1, 2, 3, 3] ((patching 0xFF).afterSteps 2) ∧
    ((patching 0xFF).afterSteps 2).memory.byte? 4 = some 0xFF ∧
    (summing 0).runFootprint 3 = [0, 5, 1, 6, 2, 3, 4, 7] ∧
    ((summing 0).afterSteps 3).AgreeOn [0, 5, 1, 6, 2, 3, 4, 7]
      ((summing 0xFF).afterSteps 3) ∧
    ((summing 0xFF).afterSteps 3).memory.byte? 7 = some 0x33 ∧
    ((summing 0xFF).afterSteps 3).memory.byte? 8 = some 0xFF := by
  have hused : (patching 0).runFootprint 2 = [0, 1, 2, 3, 3] := by decide
  have hstart : (patching 0).AgreeOn [0, 1, 2, 3, 3] (patching 0xFF) := by
    refine ⟨rfl, rfl, rfl, rfl, rfl, rfl, ?_⟩
    intro addr hmem
    simp only [List.mem_cons, List.not_mem_nil, or_false] at hmem
    rcases hmem with rfl | rfl | rfl | rfl | rfl <;> rfl
  have hrun := steps_use_only_their_footprints.2 2 (patching 0) (patching 0xFF)
  rw [hused] at hrun
  obtain ⟨halike, hend, _, hkept⟩ := hrun hstart
  have hpointed : (summing 0).runFootprint 3 = [0, 5, 1, 6, 2, 3, 4, 7] := by decide
  have hsame : (summing 0).AgreeOn [0, 5, 1, 6, 2, 3, 4, 7] (summing 0xFF) := by
    refine ⟨rfl, rfl, rfl, rfl, rfl, rfl, ?_⟩
    intro addr hmem
    simp only [List.mem_cons, List.not_mem_nil, or_false] at hmem
    rcases hmem with rfl | rfl | rfl | rfl | rfl | rfl | rfl | rfl <;> rfl
  have hsum := steps_use_only_their_footprints.2 3 (summing 0) (summing 0xFF)
  rw [hpointed] at hsum
  obtain ⟨_, hagree, _, hspared⟩ := hsum hsame
  refine ⟨hused, halike 1 (by decide), hend, ?_, hpointed, hagree, by decide, ?_⟩
  · rw [hkept 4 (by simp)]
    rfl
  · rw [hspared 8 (by simp)]
    rfl

end Cpu

end Arcade8080
