import Handheld.Bus
import Handheld.Joypad
import Handheld.Memory
import Handheld.Notice
import Handheld.Timer

/-!
# The board of the machine

The board joins the backing memory with the devices: interrupt registers, key pad and, if one is
attached, a timer. Reading and writing decode an address each for itself. Writes to the cartridge
and to the gap are dropped, the gap reads as ones, and echo addresses share the cells of the work
RAM. Without a timer its four addresses are plain cells.
-/

namespace Handheld

set_option autoImplicit false

structure Board where
  memory : Memory
  bank : InterruptBank
  timer : Option Timer
  joypad : Joypad

namespace Board

/-- Memory and registers all zero, no timer, no key held. -/
def bare : Board where
  memory := .blank
  bank := .clear
  timer := none
  joypad := .idle

def attachTimer (board : Board) (timer : Timer) : Board := { board with timer := some timer }

def withTimer (board : Board) : Board := board.attachTimer .stopped

def detachTimer (board : Board) : Option Timer × Board :=
  (board.timer, { board with timer := none })

def read (board : Board) (address : UInt16) : UInt8 :=
  if address = Address.keys then board.joypad.read
  else if Address.divider ≤ address ∧ address ≤ Address.timerControl then
    (board.timer.bind (·.readAt? address)).getD (board.memory.read address)
  else if address = Address.interruptFlag then ~~~Interrupt.linesMask ||| board.bank.flag
  else if address = Address.interruptEnable then board.bank.enable
  else
    match Region.ofAddress address with
    | .echo => board.memory.read (address - echoDistance)
    | .unusable => 0xFF
    | _ => board.memory.read address

/-- Changes one cell of the backing memory, whatever stands before it. -/
def poke (board : Board) (cell : UInt16) (value : UInt8) : Board :=
  { board with memory := board.memory.write cell value }

def write (board : Board) (address : UInt16) (value : UInt8) : Board :=
  if address = Address.keys then { board with joypad := board.joypad.write value }
  else if Address.divider ≤ address ∧ address ≤ Address.timerControl then
    match board.timer with
    | some timer => { board with timer := (timer.writeAt? address value).getD timer }
    | none => board.poke address value
  else if address = Address.interruptFlag then
    { board with bank := board.bank.setFlag (value &&& Interrupt.linesMask) }
  else if address = Address.interruptEnable then
    { board with bank := board.bank.setEnable value }
  else
    match Region.ofAddress address with
    | .rom | .unusable => board
    | .echo => board.poke (address - echoDistance) value
    | _ => board.poke address value

def advanceTimer (board : Board) (cycles : UInt32) : Attempt Board Fault Unit :=
  match board.timer with
  | none => ⟨board, .ok ()⟩
  | some timer =>
    let advanced := timer.advance board.bank cycles
    let (timer, bank) := advanced.state
    ⟨{ board with timer := some timer, bank }, advanced.answer⟩

instance : Bus Board where
  read := read
  write := write
  bank := bank
  setBank board bank := { board with bank }
  advanceTimer := advanceTimer

def keyDown (board : Board) (button : Button) : Board :=
  let (joypad, bank) := board.joypad.keyDown board.bank button
  { board with joypad, bank }

def keyUp (board : Board) (button : Button) : Board :=
  { board with joypad := board.joypad.release button }

/-- Puts bytes into the backing memory, past all devices and the write protection. -/
def load (board : Board) (address : UInt16) (bytes : List UInt8) : Board :=
  { board with memory := board.memory.load address bytes }

/-- Maps a cartridge image into its window. A refused image leaves the board as it is. -/
def insert (board : Board) (image : Cartridge.Image) :
    Attempt Board Cartridge.Rejection (List Notice) :=
  match Cartridge.rejection? image with
  | some rejection => ⟨board, .error rejection⟩
  | none =>
    let notices :=
      (Cartridge.controller? image).toList.map fun controller =>
        Notice.controllerIgnored controller image.size
    ⟨{ board with memory := board.memory.mapCartridge image }, .ok notices⟩

/-- Takes the devices back to their first state. The backing memory is kept. -/
def reset (board : Board) : Board :=
  { board with
    bank := .clear
    timer := board.timer.map fun _ => .stopped
    joypad := .idle }

end Board

end Handheld
