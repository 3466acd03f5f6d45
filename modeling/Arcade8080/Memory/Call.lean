import Arcade8080.Memory

/-!
What a host can ask of a memory by itself, and what a sequence of such calls says
about it without any memory being there: how much of it was made and when, which
window was in force at which call, and what each call put at an address.
-/

namespace Arcade8080.Memory

inductive Call where
  | allocate (size : Nat)
  | loadImage (image : Array Byte) (minimum : Nat)
  | patch (start : Nat) (bytes : Array Byte)
  | write (addr : Nat) (value : Byte)
  | setWindow (window : Window)
  deriving DecidableEq

/-- A call as it goes. One that asks for more than memory can have does not come back. -/
def attempt (memory : Memory) : Call → Option (Attempt Memory Unit)
  | .allocate size => (memory.allocate size).map (.succeed ())
  | .loadImage image minimum => (memory.loadImage image minimum).map (.succeed ())
  | .patch start bytes => some (memory.patch start bytes)
  | .write addr value => some (memory.write addr value)
  | .setWindow window => some (.succeed () { memory with window })

/-- The memory that a call leaves, whether or not it succeeds. One that does not come
back has changed nothing. -/
def after (memory : Memory) (call : Call) : Memory :=
  (memory.attempt call).elim memory Attempt.state

def afterAll (memory : Memory) (calls : List Call) : Memory := calls.foldl after memory

@[simp] theorem afterAll_nil (memory : Memory) : memory.afterAll [] = memory := rfl

@[simp] theorem afterAll_cons (memory : Memory) (call : Call) (rest : List Call) :
    memory.afterAll (call :: rest) = (memory.after call).afterAll rest := rfl

theorem afterAll_append (memory : Memory) (early late : List Call) :
    memory.afterAll (early ++ late) = (memory.afterAll early).afterAll late :=
  List.foldl_append

namespace Call

/-- How much memory a call asks for, where it asks for any in place of what there was. -/
def asked? : Call → Option Nat
  | .allocate size => some size
  | .loadImage image minimum => some (max image.size minimum)
  | _ => none

/-- How much memory a call makes: what it asks for, where there can be that much. -/
def extent? (call : Call) : Option Nat := call.asked?.filter (· ≤ limit)

/-- The byte at an address of memory that a call has just made. -/
def initial (addr : Nat) : Call → Byte
  | .loadImage image _ => image[addr]?.getD 0
  | _ => 0

def window? : Call → Option Window
  | .setWindow window => some window
  | _ => none

end Call

/-- The window in force after some calls, which begin under another. -/
def windowAfter (window : Window) (calls : List Call) : Window :=
  calls.foldl (fun current call => call.window?.getD current) window

/-- A call under the window that was in force when it was made. -/
structure Event where
  window : Window
  call : Call
  deriving DecidableEq

/-- The events of a sequence of calls that begins under a window, oldest first. -/
def history (window : Window) : List Call → List Event
  | [] => []
  | call :: rest => ⟨window, call⟩ :: history (call.window?.getD window) rest

/-- What an event puts at an address of a memory of some size: a patch that fits puts
its bytes, and a store its value where the window of its time is open. -/
def Event.stored? (size addr : Nat) (event : Event) : Option Byte :=
  match event.call with
  | .patch start bytes =>
    if start + bytes.size ≤ size ∧ start ≤ addr then bytes[addr - start]? else none
  | .write target value =>
    if target = addr ∧ event.window.contains target = true then some value else none
  | _ => none

end Arcade8080.Memory
