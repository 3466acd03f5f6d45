import Arcade8080.Alu
import Arcade8080.Alu.Checked
import Arcade8080.Alu.Lemmas
import Arcade8080.Attempt
import Arcade8080.Board
import Arcade8080.Board.Call
import Arcade8080.Board.Lemmas
import Arcade8080.Board.Ports
import Arcade8080.Bus
import Arcade8080.Bus.Lemmas
import Arcade8080.Bus.Stores
import Arcade8080.Bus.Visits
import Arcade8080.Bus.Within
import Arcade8080.CommandLine
import Arcade8080.Core
import Arcade8080.Core.Checked
import Arcade8080.Core.Footprint
import Arcade8080.Core.Lemmas
import Arcade8080.Core.Perform
import Arcade8080.Core.Step
import Arcade8080.Core.Visits
import Arcade8080.Cpu
import Arcade8080.Cpu.Call
import Arcade8080.Cpu.Chain
import Arcade8080.Cpu.File
import Arcade8080.Cpu.Lemmas
import Arcade8080.Cpu.Operand
import Arcade8080.Cpu.Place
import Arcade8080.Cpu.Routine
import Arcade8080.Cpu.StackCall
import Arcade8080.Cpu.State
import Arcade8080.Cpu.Transact
import Arcade8080.Emulation
import Arcade8080.Fault
import Arcade8080.Files
import Arcade8080.Flags
import Arcade8080.Instruction
import Arcade8080.Log
import Arcade8080.Main
import Arcade8080.Memory
import Arcade8080.Memory.Call
import Arcade8080.Memory.Lemmas
import Arcade8080.Operation
import Arcade8080.Operation.Decode
import Arcade8080.Operation.Mnemonic
import Arcade8080.Operation.Table
import Arcade8080.Outcome
import Arcade8080.Parity
import Arcade8080.Parity.Lemmas
import Arcade8080.Proofs.Allocation
import Arcade8080.Proofs.AuxiliaryCarry
import Arcade8080.Proofs.BinaryChains
import Arcade8080.Proofs.CallReturn
import Arcade8080.Proofs.CommandReplies
import Arcade8080.Proofs.ControlFlow
import Arcade8080.Proofs.DataMovement
import Arcade8080.Proofs.DecimalChains
import Arcade8080.Proofs.Definedness
import Arcade8080.Proofs.Failure
import Arcade8080.Proofs.Faults
import Arcade8080.Proofs.Fetching
import Arcade8080.Proofs.FlagCoherence
import Arcade8080.Proofs.FrameCounts
import Arcade8080.Proofs.FrameRequests
import Arcade8080.Proofs.IntegerArithmetic
import Arcade8080.Proofs.Interrupts
import Arcade8080.Proofs.InversePairs
import Arcade8080.Proofs.Locality
import Arcade8080.Proofs.MemoryHistory
import Arcade8080.Proofs.Numbering
import Arcade8080.Proofs.ParityCount
import Arcade8080.Proofs.PortHistory
import Arcade8080.Proofs.PortLog
import Arcade8080.Proofs.Protection
import Arcade8080.Proofs.RegisterFrame
import Arcade8080.Proofs.Restart
import Arcade8080.Proofs.RunLog
import Arcade8080.Proofs.Schedule
import Arcade8080.Proofs.ShiftChains
import Arcade8080.Proofs.SpecialArithmetic
import Arcade8080.Proofs.StackDiscipline
import Arcade8080.Proofs.StackTransfer
import Arcade8080.Proofs.StatusFields
import Arcade8080.Proofs.WindowEffect
import Arcade8080.Record
import Arcade8080.Registers
import Arcade8080.StatusLine
import Arcade8080.Text.Hex
import Arcade8080.Text.Quoted
import Arcade8080.Text.Visible
import Arcade8080.Window
import Arcade8080.Word
