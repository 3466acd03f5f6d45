import Arcade8080.Alu.Lemmas
import Arcade8080.Cpu.Chain
import Arcade8080.Proofs.DataMovement
import Arcade8080.Proofs.StackDiscipline

/-!
Instructions that take back what others have done. Those that work on the processor alone do so
always; those that exchange or save bytes do so where memory takes all of them, because a byte
that the window has kept out cannot be found again.
-/

namespace Arcade8080

/-- The operation that takes back what another one has done. -/
def Operation.inverse? : Operation → Option Operation
  | .inx target => some (.dcx target)
  | .dcx target => some (.inx target)
  | .xchg => some .xchg
  | .xthl => some .xthl
  | .cma => some .cma
  | .cmc => some .cmc
  | .rotate .ral => some (.rotate .rar)
  | .rotate .rar => some (.rotate .ral)
  | _ => none

namespace Core

@[simp] theorem wide_setWide (core : Core) (target : WideOperand) (value : Word) :
    (core.setWide target value).wide target = value := by
  cases target with
  | pair name => exact Registers.pair_setPair _ name value
  | sp => rfl

@[simp] theorem setWide_setWide (core : Core) (target : WideOperand) (former value : Word) :
    (core.setWide target former).setWide target value = core.setWide target value := by
  cases target <;> simp [setWide]

@[simp] theorem setWide_wide (core : Core) (target : WideOperand) :
    core.setWide target (core.wide target) = core := by
  cases target <;> simp [setWide, wide]

/-- An instruction that changes the core and has nothing to do with memory. What it changes does
not depend on the program counter. -/
structure Acts (instruction : Instruction) (effect : Core → Core) : Prop where
  perform : ∀ core : Core, core.perform instruction = pure (effect core)
  past : ∀ (core : Core) (other : Instruction), (effect core).past other = effect (core.past other)

/-- The core after a rotation: of the flags it has to do with the carry alone. -/
def rotated (core : Core) (kind : Rotation) : Core :=
  { core with
    registers := { core.registers with a := (Alu.rotate kind core.flags.cy core.registers.a).1 }
    flags := { core.flags with cy := (Alu.rotate kind core.flags.cy core.registers.a).2 } }

variable {instruction : Instruction} {target : WideOperand} {kind : Rotation}

theorem acts_inx (h : instruction.operation = .inx target) :
    Acts instruction fun core => core.setWide target (core.wide target + 1) := by
  constructor
  · intro core
    simp only [perform, h]
  · intro core other
    cases target <;> rfl

theorem acts_dcx (h : instruction.operation = .dcx target) :
    Acts instruction fun core => core.setWide target (core.wide target - 1) := by
  constructor
  · intro core
    simp only [perform, h]
  · intro core other
    cases target <;> rfl

theorem acts_cma (h : instruction.operation = .cma) :
    Acts instruction fun core =>
      { core with registers := { core.registers with a := ~~~core.registers.a } } := by
  constructor
  · intro core
    simp only [perform, h]
  · exact fun core other => rfl

theorem acts_cmc (h : instruction.operation = .cmc) :
    Acts instruction fun core =>
      { core with flags := { core.flags with cy := !core.flags.cy } } := by
  constructor
  · intro core
    simp only [perform, h]
  · exact fun core other => rfl

theorem acts_rotate (h : instruction.operation = .rotate kind) :
    Acts instruction (·.rotated kind) := by
  constructor
  · intro core
    simp only [perform, h]
    rfl
  · exact fun core other => rfl

end Core

namespace Cpu

variable {cpu : Cpu} {first second : Instruction} {effect undo : Core → Core}

/-- Of two instructions that change the core, the second goes on from what the first has made. -/
theorem runs_of_acts (hfirst : Core.Acts first effect) (hsecond : Core.Acts second undo)
    (cpu : Cpu) :
    cpu.Runs [first, second]
      { cpu with toCore := undo (effect ((cpu.skip first).skip second).toCore) } := by
  have hpast : (effect (cpu.past first)).past second =
      effect ((cpu.skip first).skip second).toCore := hfirst.past _ _
  rw [← hpast]
  exact runs_pair (execute_of_pure (hfirst.perform (cpu.past first)))
    (execute_of_pure (hsecond.perform _))

theorem runs_of_undo (hfirst : Core.Acts first effect) (hsecond : Core.Acts second undo)
    (hundo : ∀ core, undo (effect core) = core) (cpu : Cpu) :
    cpu.Runs [first, second] ((cpu.skip first).skip second) := by
  have hruns := runs_of_acts hfirst hsecond cpu
  rwa [hundo] at hruns

/-- Every byte on the list has its way back on the list as well. -/
def Exchanges (transfers : List Transfer) : Prop :=
  ∀ transfer ∈ transfers, ∃ back ∈ transfers,
    transfer.source = .place back.target ∧ back.source = .place transfer.target

theorem exchanges_two (first second third fourth : Place) :
    Exchanges [⟨first, .place third⟩, ⟨second, .place fourth⟩, ⟨third, .place first⟩,
      ⟨fourth, .place second⟩] := by
  simp [Exchanges]

/-- An exchange that takes place in full, and takes place again, changes nothing. -/
theorem Assigned.at?_of_exchanges {before middle after : Cpu} {transfers : List Transfer}
    (hfirst : before.Assigned transfers middle) (hexchanges : Exchanges transfers)
    (hadmits : ∀ transfer ∈ transfers, before.admits transfer.target = true)
    (hsecond : middle.Assigned transfers after) (place : Place) :
    after.at? place = before.at? place := by
  by_cases hmoved : ∃ transfer ∈ transfers, transfer.target = place
  · obtain ⟨transfer, hmem, rfl⟩ := hmoved
    obtain ⟨back, hback, hsource, htarget⟩ := hexchanges transfer hmem
    have hopen : middle.admits transfer.target = true := by
      rw [hfirst.apart.admits]
      exact hadmits transfer hmem
    calc after.at? transfer.target = middle.value? transfer.source :=
          hsecond.admitted transfer hmem hopen
      _ = middle.at? back.target := by rw [hsource]; rfl
      _ = before.value? back.source := hfirst.admitted back hback (hadmits back hback)
      _ = before.at? transfer.target := by rw [htarget]; rfl
  · have hother : ∀ transfer ∈ transfers, transfer.target ≠ place := by simpa using hmoved
    rw [hsecond.kept place hother, hfirst.kept place hother]

/-- Two instructions with the same exchange on their lists. -/
theorem runs_exchange (hfirst : first.operation.movesData = true)
    (hsecond : second.operation.movesData = true)
    (hsame : (cpu.execute first).state.transfers second = cpu.transfers first)
    (hexchanges : Exchanges (cpu.transfers first)) (hthere : cpu.HasTransfers first)
    (hadmits : ∀ transfer ∈ cpu.transfers first, cpu.admits transfer.target = true) :
    cpu.Runs [first, second] ((cpu.skip first).skip second) := by
  have hgone := assigned_execute hfirst hthere
  have hfull (transfer : Transfer) (hmem : transfer ∈ cpu.transfers first) :
      ((cpu.execute first).state.at? transfer.target).isSome = true := by
    rw [hgone.admitted transfer hmem (hadmits transfer hmem), value?_skip]
    exact (hthere transfer hmem).2
  -- What the second looks for is where the first has put it.
  have hstill : (cpu.execute first).state.HasTransfers second := by
    intro transfer hmem
    rw [hsame] at hmem
    obtain ⟨back, hback, hsource, _⟩ := hexchanges transfer hmem
    rw [hsource]
    exact ⟨hfull transfer hmem, hfull back hback⟩
  have hcome := assigned_execute hsecond hstill
  rw [hsame] at hcome
  have hat := (hgone.skip second).at?_of_exchanges hexchanges hadmits hcome
  have hsettled := ((hgone.skip second).apart.trans hcome.apart).eq_of_at? hat
  have hresult := (execute_of_hasTransfers hsecond hstill).1
  exact runs_pair ⟨(execute_of_hasTransfers hfirst hthere).1, rfl⟩ ⟨hresult, hsettled⟩

theorem runs_xchg (hfirst : first.operation = .xchg) (hsecond : second.operation = .xchg)
    (cpu : Cpu) : cpu.Runs [first, second] ((cpu.skip first).skip second) := by
  have hmoves {core : Core} {instruction : Instruction} (h : instruction.operation = .xchg) :
      core.transfers instruction =
        [⟨.register .d, .place (.register .h)⟩, ⟨.register .e, .place (.register .l)⟩,
          ⟨.register .h, .place (.register .d)⟩, ⟨.register .l, .place (.register .e)⟩] := by
    simp only [Core.transfers, h]
  apply runs_exchange
  · rw [hfirst]
    rfl
  · rw [hsecond]
    rfl
  · rw [hmoves hfirst, hmoves hsecond]
  · rw [hmoves hfirst]
    exact exchanges_two _ _ _ _
  · simp [HasTransfers, hmoves hfirst, value?]
  · simp [hmoves hfirst, admits]

theorem runs_xthl (hfirst : first.operation = .xthl) (hsecond : second.operation = .xthl)
    (hlow : cpu.memory.Takes cpu.sp) (hhigh : cpu.memory.Takes (cpu.sp + 1)) :
    cpu.Runs [first, second] ((cpu.skip first).skip second) := by
  have hmoves {core : Core} {instruction : Instruction} (h : instruction.operation = .xthl) :
      core.transfers instruction =
        [⟨.memory core.sp.toNat, .place (.register .l)⟩,
          ⟨.memory (core.sp + 1).toNat, .place (.register .h)⟩,
          ⟨.register .l, .place (.memory core.sp.toNat)⟩,
          ⟨.register .h, .place (.memory (core.sp + 1).toNat)⟩] := by
    simp only [Core.transfers, h, Word.toNat_add_one]
  have hmovesData {instruction : Instruction} (h : instruction.operation = .xthl) :
      instruction.operation.movesData = true := by
    rw [h]
    rfl
  have hthere : cpu.HasTransfers first := by
    rw [hasTransfers_iff (hmovesData hfirst)]
    simp only [Core.dataAddrs, hfirst, Core.popAddrs, List.forall_mem_cons]
    exact ⟨hlow.allocated, hhigh.allocated, List.forall_mem_nil _⟩
  have hgone := assigned_execute (hmovesData hfirst) hthere
  have hsp : (cpu.execute first).state.sp = cpu.sp := by
    apply sp_eq_of_at?
    · exact hgone.kept .spHigh (by simp [hmoves hfirst])
    · exact hgone.kept .spLow (by simp [hmoves hfirst])
  apply runs_exchange (hmovesData hfirst) (hmovesData hsecond)
  · rw [hmoves hfirst, hmoves hsecond, hsp]
  · rw [hmoves hfirst]
    exact exchanges_two _ _ _ _
  · exact hthere
  · simp only [hmoves hfirst, List.forall_mem_cons]
    exact ⟨hlow.admitted, hhigh.admitted, rfl, rfl, List.forall_mem_nil _⟩

/-- An instruction and its inverse. -/
theorem runs_inverse (h : first.operation.inverse? = some second.operation)
    (htakes : first.operation = .xthl →
      cpu.memory.Takes cpu.sp ∧ cpu.memory.Takes (cpu.sp + 1)) :
    cpu.Runs [first, second] ((cpu.skip first).skip second) := by
  generalize hfirst : first.operation = operation at h htakes
  generalize hsecond : second.operation = inverse at h
  cases operation with
  | inx target =>
    cases h
    refine runs_of_undo (Core.acts_inx hfirst) (Core.acts_dcx hsecond) (fun core => ?_) cpu
    simp only [Core.wide_setWide, Core.setWide_setWide, BitVec.add_sub_cancel, Core.setWide_wide]
  | dcx target =>
    cases h
    refine runs_of_undo (Core.acts_dcx hfirst) (Core.acts_inx hsecond) (fun core => ?_) cpu
    simp only [Core.wide_setWide, Core.setWide_setWide, BitVec.sub_add_cancel, Core.setWide_wide]
  | xchg =>
    cases h
    exact runs_xchg hfirst hsecond cpu
  | xthl =>
    cases h
    obtain ⟨hlow, hhigh⟩ := htakes rfl
    exact runs_xthl hfirst hsecond hlow hhigh
  | cma =>
    cases h
    refine runs_of_undo (Core.acts_cma hfirst) (Core.acts_cma hsecond) (fun core => ?_) cpu
    simp only [BitVec.not_not]
  | cmc =>
    cases h
    refine runs_of_undo (Core.acts_cmc hfirst) (Core.acts_cmc hsecond) (fun core => ?_) cpu
    simp only [Bool.not_not]
  | rotate kind =>
    cases kind with
    | ral =>
      cases h
      refine runs_of_undo (Core.acts_rotate hfirst) (Core.acts_rotate hsecond) (fun core => ?_) cpu
      simp only [Core.rotated, Alu.rotate_rar_ral]
    | rar =>
      cases h
      refine runs_of_undo (Core.acts_rotate hfirst) (Core.acts_rotate hsecond) (fun core => ?_) cpu
      simp only [Core.rotated, Alu.rotate_ral_rar]
    | rlc | rrc => cases h
  | _ => cases h

/-- RRC takes A back to where RLC has found it, but CY shows what has gone around. -/
theorem runs_rlc_rrc (hfirst : first.operation = .rotate .rlc)
    (hsecond : second.operation = .rotate .rrc) (cpu : Cpu) :
    cpu.Runs [first, second]
      { (cpu.skip first).skip second with
        flags := { cpu.flags with cy := cpu.registers.a.getLsbD 7 } } := by
  have hruns := runs_of_acts (Core.acts_rotate hfirst) (Core.acts_rotate hsecond) cpu
  simp only [Core.rotated, Alu.rotate_rrc_rlc] at hruns
  exact hruns

/-- SHLD leaves both halves of HL in memory. -/
theorem saved_of_shld {save : Instruction} (h : save.operation = .shld)
    (hlow : cpu.memory.Takes save.word) (hhigh : cpu.memory.Takes (save.word + 1)) :
    (∃ outcome, (cpu.execute save).result = .ok outcome) ∧
    (cpu.execute save).state.memory.byte? save.word.toNat = some cpu.registers.l ∧
    (cpu.execute save).state.memory.byte? (save.word + 1).toNat = some cpu.registers.h := by
  have hmoves : save.operation.movesData = true := by
    rw [h]
    rfl
  have hthere : cpu.HasTransfers save := by
    rw [hasTransfers_iff hmoves]
    simp only [Core.dataAddrs, h, List.forall_mem_cons]
    exact ⟨hlow.allocated, hhigh.allocated, List.forall_mem_nil _⟩
  have hsaved := (assigned_execute hmoves hthere).admitted
  simp only [Core.transfers, h, ← Instruction.toNat_word, ← Word.toNat_add_one,
    List.forall_mem_cons] at hsaved
  obtain ⟨hfirst, hsecond, _⟩ := hsaved
  exact ⟨⟨_, (execute_of_hasTransfers hmoves hthere).1⟩, hfirst hlow.admitted,
    hsecond hhigh.admitted⟩

/-- LHLD makes HL of the two bytes that it finds. -/
theorem execute_of_lhld {restore : Instruction} {low high : Byte}
    (h : restore.operation = .lhld)
    (hlow : cpu.memory.byte? restore.word.toNat = some low)
    (hhigh : cpu.memory.byte? (restore.word + 1).toNat = some high) :
    (cpu.execute restore).result = .ok (cpu.report restore) ∧
      (cpu.execute restore).state =
        { cpu.skip restore with
          registers := cpu.registers.setPair .hl (Word.ofBytes high low) } := by
  have hmoves : restore.operation.movesData = true := by
    rw [h]
    rfl
  have hthere : cpu.HasTransfers restore := by
    simp only [HasTransfers, Core.transfers, h, ← Instruction.toNat_word,
      ← Word.toNat_add_one, List.forall_mem_cons, at?_register, value?, at?_memory, hlow, hhigh]
    exact ⟨⟨rfl, rfl⟩, ⟨rfl, rfl⟩, List.forall_mem_nil _⟩
  obtain ⟨hresult, hstate⟩ := execute_of_hasTransfers hmoves hthere
  refine ⟨hresult, ?_⟩
  have hfirst : (cpu.skip restore).value? (.place (.memory restore.word.toNat)) = some low := hlow
  have hsecond : (cpu.skip restore).value? (.place (.memory (restore.word + 1).toNat)) =
      some high := hhigh
  rw [hstate, Registers.setPair_eq_set, Word.low_ofBytes, Word.high_ofBytes]
  simp only [Core.transfers, h, ← Instruction.toNat_word, ← Word.toNat_add_one, carryAll,
    List.foldl_cons, List.foldl_nil, carry_of_value? hfirst, carry_of_value? hsecond]
  rfl

/-- An instruction and then its inverse only move the program counter on, for the exchange with
the stack on condition that memory takes both bytes. RLC and RRC differ from that in CY, which
shows the highest bit that A has had. Where memory takes the two bytes that SHLD leaves, HL comes
back with LHLD from any processor on which these bytes are still there. -/
theorem inverse_pairs_cancel (cpu : Cpu) :
    (∀ instruction : Instruction, ∀ operation, instruction.operation = operation ↔
      instruction.opcode.toNat ∈ operation.opcodes) ∧
    (∀ first second : Instruction, first.operation.inverse? = some second.operation →
      (first.operation = .xthl →
        cpu.memory.Takes cpu.sp ∧ cpu.memory.Takes (cpu.sp + 1)) →
      cpu.Runs [first, second] ((cpu.skip first).skip second)) ∧
    (∀ first second : Instruction, first.operation = .rotate .rlc →
      second.operation = .rotate .rrc →
      cpu.Runs [first, second]
        { (cpu.skip first).skip second with
          flags := { cpu.flags with cy := cpu.registers.a.getLsbD 7 } }) ∧
    ∀ save restore : Instruction, save.operation = .shld → restore.operation = .lhld →
      restore.word = save.word →
      cpu.memory.Takes save.word → cpu.memory.Takes (save.word + 1) →
      (∃ outcome, (cpu.execute save).result = .ok outcome) ∧
      ∀ changed : Cpu,
        (∀ addr ∈ [save.word, save.word + 1], changed.memory.byte? addr.toNat =
          (cpu.execute save).state.memory.byte? addr.toNat) →
        (∃ outcome, (changed.execute restore).result = .ok outcome) ∧
        (changed.execute restore).state =
          { changed.skip restore with
            registers := changed.registers.setPair .hl cpu.registers.hl } := by
  refine ⟨fun instruction => Operation.decode_eq_iff instruction.opcode, ?_, ?_, ?_⟩
  · intro first second hinverse htakes
    exact runs_inverse hinverse htakes
  · intro first second hfirst hsecond
    exact runs_rlc_rrc hfirst hsecond cpu
  · intro save restore hsave hrestore hword hlow hhigh
    obtain ⟨hresult, hsavedLow, hsavedHigh⟩ := saved_of_shld hsave hlow hhigh
    refine ⟨hresult, fun changed hsame => ?_⟩
    simp only [List.forall_mem_cons] at hsame
    obtain ⟨hsameLow, hsameHigh, _⟩ := hsame
    rw [← hword] at hsameLow hsameHigh hsavedLow hsavedHigh
    obtain ⟨hloaded, hstate⟩ :=
      execute_of_lhld hrestore (hsameLow.trans hsavedLow) (hsameHigh.trans hsavedHigh)
    exact ⟨⟨_, hloaded⟩, hstate⟩

/-- Two words that can change places, with the stack pointer at its lowest. -/
def exchanging : Cpu where
  registers := { a := 0x81, h := 0x12, l := 0x34 }
  memory := { cells := some #[0xCD, 0xAB], window := ⟨0, 2⟩ }

/-- XTHL takes the word from the stack and gives it back. DCX SP goes around the end of the
address space and INX SP comes back. RLC and RRC leave the highest bit of A in CY, and a
processor with nothing in its registers gets HL back from memory. -/
theorem inverse_pairs_cancel_of_exchanging :
    (exchanging.execute ⟨0xE3, 0, 0⟩).state.registers.hl = 0xABCD ∧
    exchanging.Runs [⟨0xE3, 0, 0⟩, ⟨0xE3, 0, 0⟩] { exchanging with pc := 2 } ∧
    exchanging.Runs [⟨0x3B, 0, 0⟩, ⟨0x33, 0, 0⟩] { exchanging with pc := 2 } ∧
    exchanging.Runs [⟨0x07, 0, 0⟩, ⟨0x0F, 0, 0⟩]
      { exchanging with pc := 2, flags := { cy := true } } ∧
    (({ exchanging with
        memory := (exchanging.execute ⟨0x22, 0, 0⟩).state.memory
        registers := {} } : Cpu).execute ⟨0x2A, 0, 0⟩).state.registers =
      { h := 0x12, l := 0x34 } := by
  obtain ⟨_, hinverse, hrotate, hsave⟩ := inverse_pairs_cancel exchanging
  have hlow : exchanging.memory.Takes 0 := ⟨by decide, by decide⟩
  have hhigh : exchanging.memory.Takes 1 := ⟨by decide, by decide⟩
  obtain ⟨_, hrestore⟩ := hsave ⟨0x22, 0, 0⟩ ⟨0x2A, 0, 0⟩ rfl rfl rfl hlow hhigh
  obtain ⟨_, hstate⟩ := hrestore
    { exchanging with
      memory := (exchanging.execute ⟨0x22, 0, 0⟩).state.memory
      registers := {} } fun _ _ => rfl
  refine ⟨rfl, ?_, ?_, ?_, ?_⟩
  · exact hinverse ⟨0xE3, 0, 0⟩ ⟨0xE3, 0, 0⟩ rfl fun _ => ⟨hlow, hhigh⟩
  · exact hinverse ⟨0x3B, 0, 0⟩ ⟨0x33, 0, 0⟩ rfl fun h => absurd h (by decide)
  · exact hrotate ⟨0x07, 0, 0⟩ ⟨0x0F, 0, 0⟩ rfl rfl
  · rw [hstate]
    rfl

end Cpu

end Arcade8080
