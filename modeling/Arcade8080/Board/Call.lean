import Arcade8080.Board
import Arcade8080.Cpu.Call
import Arcade8080.Memory.Call

/-!
What a host can do to a board: let it go on by a step or a frame, load an image, and
reach past it to the processor, to memory and to the ports. A step or a frame that
fails leaves a state behind as well, and the next call goes on from there. What asks
for more memory than there can be has changed nothing.
-/

namespace Arcade8080

namespace Cpu

/-- What a host can do to a processor that it holds: make one of its calls, load an
image, call its memory, or put values into its parts. -/
inductive Action where
  | call (call : Call)
  | loadImage (image : Array Byte)
  | memory (call : Memory.Call)
  | assign (registers : Registers) (pc sp : Word) (interruptsEnabled : Bool)
  | assignFlags (flags : Flags)

def act (cpu : Cpu) : Action → Cpu
  | .call call => cpu.after call
  | .loadImage image => ((cpu.loadImage image).map Prod.fst).getD cpu
  | .memory call => { cpu with memory := cpu.memory.after call }
  | .assign registers pc sp interruptsEnabled =>
    { cpu with registers, pc, sp, interruptsEnabled }
  | .assignFlags flags => { cpu with flags }

namespace Action

/-- The window that an action puts memory behind, where it does that. -/
def window? : Action → Option Window
  | .memory request => request.window?
  | _ => none

/-- The flags that an action assigns, where it does that. -/
def flags? : Action → Option Flags
  | .assignFlags flags => some flags
  | _ => none

end Action

end Cpu

namespace Board

inductive Call where
  | step
  | frame
  | load (image : Array Byte)
  | act (action : Cpu.Action)
  | assignPorts (ports : Ports)

/-- The board that a call leaves, whether or not it succeeds. -/
def after (board : Board) : Call → Board
  | .step => board.step.state
  | .frame => (board.frame {}).board
  | .load image => ((board.load image).map Prod.fst).getD board
  | .act action => { board with cpu := board.cpu.act action }
  | .assignPorts ports => { board with ports }

def afterAll (board : Board) (calls : List Call) : Board := calls.foldl after board

@[simp] theorem afterAll_nil (board : Board) : board.afterAll [] = board := rfl

@[simp] theorem afterAll_cons (board : Board) (call : Call) (rest : List Call) :
    board.afterAll (call :: rest) = (board.after call).afterAll rest := rfl

/-- What a host learns from a step, or from a frame: of a frame only whether it got to
its end. Other calls tell nothing of that kind. -/
def reply (board : Board) : Call → Except Fault (Option StepOutcome)
  | .step => board.step.result.map some
  | .frame =>
    match (board.frame {}).fault with
    | none => .ok none
    | some fault => .error fault
  | _ => .ok none

/-- The replies to a sequence of calls, oldest first. -/
def replies (board : Board) : List Call → List (Except Fault (Option StepOutcome))
  | [] => []
  | call :: rest => board.reply call :: (board.after call).replies rest

/-- The action that a call takes on the processor, where it reaches past the board. -/
def Call.action? : Call → Option Cpu.Action
  | .act action => some action
  | _ => none

/-- The window that a call puts memory behind, where it does that. -/
def Call.window? (call : Call) : Option Window := call.action?.bind Cpu.Action.window?

end Board

end Arcade8080
