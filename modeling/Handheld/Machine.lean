import Handheld.Board
import Handheld.Cpu
import Handheld.FrameClock

/-!
# The machine

A processor on a board with a timer, and the clock of its video frames. A machine is reset whenever
a cartridge is put in; a refused cartridge changes nothing.
-/

namespace Handheld

set_option autoImplicit false

structure Machine where
  cpu : Cpu Board
  board : Board
  clock : FrameClock

namespace Machine

def ofConfig (config : Config) : Machine where
  cpu := .ofConfig config
  board := Board.bare.withTimer
  clock := .zero

/-- Takes processor, devices and frame clock back to their first state; memory is kept. -/
def reset (machine : Machine) : Machine where
  cpu := machine.cpu.reset
  board := machine.board.reset
  clock := .zero

def insert (machine : Machine) (image : Cartridge.Image) :
    Attempt Machine Cartridge.Rejection (List Notice) :=
  let ⟨cpu, board, clock⟩ := machine
  let inserted := board.insert image
  match inserted.answer with
  | .error rejection => ⟨⟨cpu, inserted.state, clock⟩, .error rejection⟩
  | .ok notices =>
    let model := cpu.config.model
    ⟨reset ⟨cpu, inserted.state, clock⟩, .ok (notices ++ [.inserted image.size model])⟩

def ofImage (image : Cartridge.Image) (tracing : Bool) :
    Except Cartridge.Rejection (Machine × List Notice) :=
  let model := (Cartridge.requestedModel? image).getD .standard
  let inserted := (ofConfig ⟨model, tracing⟩).insert image
  match inserted.answer with
  | .error rejection => .error rejection
  | .ok notices => .ok (inserted.state, notices)

def keyDown (machine : Machine) (button : Button) : Machine :=
  { machine with board := machine.board.keyDown button }

def keyUp (machine : Machine) (button : Button) : Machine :=
  { machine with board := machine.board.keyUp button }

def takeFrames (machine : Machine) : UInt32 × Machine :=
  let (frames, clock) := machine.clock.take
  (frames, { machine with clock })

/-- Where a step of the machine ended, and what was reported in it. -/
structure Step where
  machine : Machine
  notices : List Notice
  ticks : Except Fault UInt32

/-- The notice of a step that entered or left the halt state. -/
def haltNotice? (wasHalted : Bool) (registers : Registers) : Option Notice :=
  if registers.halted = wasHalted then none
  else if registers.halted then some (.halted registers.pc)
  else some (.woke registers.pc)

def step (machine : Machine) : Step :=
  let ⟨cpu, board, clock⟩ := machine
  let wasHalted := cpu.registers.halted
  let ⟨cpu, board, notices, ticks⟩ := cpu.step board
  match ticks with
  | .error fault => { machine := ⟨cpu, board, clock⟩, notices, ticks := .error fault }
  | .ok ticks =>
    let notices := notices ++ (haltNotice? wasHalted cpu.registers).toList
    let counted := clock.advance ticks
    { machine := ⟨cpu, board, counted.state⟩, notices,
      ticks := counted.answer.map fun _ => ticks }

end Machine

end Handheld
