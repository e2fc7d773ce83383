import Handheld.Machine.Run

/-!
# What is done with a machine

The host steps a machine or lets it run, presses keys, asks for interrupts, accesses the bus,
changes the cartridge and takes the frames. Each operation has an answer, and afterwards the host
looks at the machine. After a fault it goes on with the machine as the fault left it.
-/

namespace Handheld.Machine

set_option autoImplicit false

inductive Operation where
  | step
  | run (boundary : Boundary)
  | keyDown (button : Button)
  | keyUp (button : Button)
  | request (source : Interrupt)
  | read (address : UInt16)
  | write (address : UInt16) (value : UInt8)
  | reset
  | insert (image : Cartridge.Image)
  | takeFrames

inductive Answer where
  | done
  | stepped (notices : List Notice) (ticks : Except Fault UInt32)
  | ran (notices : Array Notice) (outcome : Except Fault Progress)
  | byte (value : UInt8)
  | inserted (outcome : Except Cartridge.Rejection (List Notice))
  | frames (count : UInt32)

def withBoard (machine : Machine) (board : Board) : Machine := { machine with board }

def Operation.perform (operation : Operation) (machine : Machine) : Answer × Machine :=
  match operation with
  | step => (.stepped machine.step.notices machine.step.ticks, machine.step.machine)
  | run boundary =>
    let reached := machine.run boundary
    (.ran reached.notices reached.answer, reached.machine)
  | keyDown button => (.done, machine.keyDown button)
  | keyUp button => (.done, machine.keyUp button)
  | request source =>
    (.done, machine.withBoard { machine.board with bank := machine.board.bank.request source })
  | read address => (.byte (machine.board.read address), machine)
  | write address value => (.done, machine.withBoard (machine.board.write address value))
  | reset => (.done, machine.reset)
  | insert image =>
    let inserted := machine.insert image
    (.inserted inserted.answer, inserted.state)
  | takeFrames =>
    let (count, machine) := machine.takeFrames
    (.frames count, machine)

def performAll (machine : Machine) (operations : List Operation) : Machine :=
  operations.foldl (fun machine operation => (operation.perform machine).2) machine

/-- All that the host looks at. The cost slot and the bits above the interrupt lines are cleared. -/
@[ext] structure View where
  registers : Registers
  ticks : UInt64
  timer : Option Timer
  joypad : Joypad
  interruptEnable : UInt8
  interruptLines : UInt8
  clock : FrameClock

def view (machine : Machine) : View where
  registers := machine.cpu.registers.setCost 0
  ticks := machine.cpu.ticks
  timer := machine.board.timer
  joypad := machine.board.joypad
  interruptEnable := machine.board.bank.enable
  interruptLines := machine.board.bank.flag &&& Interrupt.linesMask
  clock := machine.clock

/-- The answer to each operation, and the view after it. -/
def transcript : Machine → List Operation → List (Answer × View)
  | _, [] => []
  | machine, operation :: rest =>
    let (answer, machine) := operation.perform machine
    (answer, machine.view) :: transcript machine rest

end Handheld.Machine
