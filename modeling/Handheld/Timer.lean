import Handheld.AddressMap
import Handheld.Interrupt

/-!
# The timer

A divider goes up by one every 64 machine cycles and wraps round. A counter, when the control
register switches it on, goes up by one every 256, 4, 16 or 64 machine cycles; after 255 it starts
again from the modulo register and asks for the timer interrupt. Cycles that do not yet make up an
increment are kept for the next advance.

The two increments are taken one after the other, and each of them can fault: a fault of the divider
leaves the timer alone, a fault of the counter comes after the divider went on.
-/

namespace Handheld

set_option autoImplicit false

inductive TimerRegister where
  | divider
  | counter
  | modulo
  | control
  deriving DecidableEq

namespace TimerRegister

def address : TimerRegister → UInt16
  | divider => Address.divider
  | counter => Address.timerCounter
  | modulo => Address.timerModulo
  | control => Address.timerControl

def ofAddress? (address : UInt16) : Option TimerRegister :=
  if address = Address.divider then some divider
  else if address = Address.timerCounter then some counter
  else if address = Address.timerModulo then some modulo
  else if address = Address.timerControl then some control
  else none

end TimerRegister

@[ext] structure Timer where
  /-- Machine cycles since the divider went up. -/
  dividerCycles : UInt32
  /-- Machine cycles since the counter went up. -/
  counterCycles : UInt32
  divider : UInt8
  counter : UInt8
  modulo : UInt8
  control : UInt8
  deriving DecidableEq

namespace Timer

def dividerPeriod : UInt32 := 64

def enableBit : UInt8 := 0x04

/-- The bits of the control register that hold state; the others read as ones. -/
def controlMask : UInt8 := 0x07

/-- Machine cycles between two increments of the counter. -/
def period (control : UInt8) : UInt32 :=
  match control &&& 0x03 with
  | 0 => 256
  | 1 => 4
  | 2 => 16
  | _ => 64

def stopped : Timer := ⟨0, 0, 0, 0, 0, 0⟩

def running (timer : Timer) : Bool := timer.control &&& enableBit != 0

/-- Counts `times` up from `value`, going on from `modulo` after 255. The answer also tells whether
255 was passed, here or already before. -/
def countUp (modulo : UInt8) : Nat → UInt8 → Bool → UInt8 × Bool
  | 0, value, passed => (value, passed)
  | times + 1, value, passed =>
      if value = 255 then countUp modulo times modulo true
      else countUp modulo times (value + 1) passed

theorem countUp_add (modulo : UInt8) (first second : Nat) (value : UInt8) (passed : Bool) :
    countUp modulo (first + second) value passed =
      countUp modulo second (countUp modulo first value passed).1
        (countUp modulo first value passed).2 := by
  induction first generalizing value passed with
  | zero => simp [countUp]
  | succ first induction =>
    rw [show first + 1 + second = (first + second) + 1 by omega, countUp, countUp]
    split <;> exact induction _ _

def advanceDivider (timer : Timer) (cycles : UInt32) : Except Fault Timer :=
  match Checked.add32 timer.dividerCycles cycles with
  | .error fault => .error fault
  | .ok total => .ok { timer with
      dividerCycles := total % dividerPeriod
      divider := timer.divider + (total / dividerPeriod).toUInt8 }

def advanceCounter (timer : Timer) (bank : InterruptBank) (cycles : UInt32) :
    Except Fault (Timer × InterruptBank) :=
  if timer.running then
    match Checked.add32 timer.counterCycles cycles with
    | .error fault => .error fault
    | .ok total =>
      let increments := total / period timer.control
      let (counter, passed) := countUp timer.modulo increments.toNat timer.counter false
      .ok ({ timer with counterCycles := total % period timer.control, counter },
        if passed then bank.request .timer else bank)
  else .ok (timer, bank)

/-- Lets machine cycles pass. -/
def advance (timer : Timer) (bank : InterruptBank) (cycles : UInt32) :
    Attempt (Timer × InterruptBank) Fault Unit :=
  match timer.advanceDivider cycles with
  | .error fault => ⟨(timer, bank), .error fault⟩
  | .ok divided =>
    match divided.advanceCounter bank cycles with
    | .error fault => ⟨(divided, bank), .error fault⟩
    | .ok reached => ⟨reached, .ok ()⟩

def read (timer : Timer) : TimerRegister → UInt8
  | .divider => timer.divider
  | .counter => timer.counter
  | .modulo => timer.modulo
  | .control => ~~~controlMask ||| timer.control

/-- Every write to the divider clears it, together with the cycles it has kept. -/
def write (timer : Timer) (register : TimerRegister) (value : UInt8) : Timer :=
  match register with
  | .divider => { timer with divider := 0, dividerCycles := 0 }
  | .counter => { timer with counter := value }
  | .modulo => { timer with modulo := value }
  | .control => { timer with control := value &&& controlMask }

def readAt? (timer : Timer) (address : UInt16) : Option UInt8 :=
  (TimerRegister.ofAddress? address).map timer.read

def writeAt? (timer : Timer) (address : UInt16) (value : UInt8) : Option Timer :=
  (TimerRegister.ofAddress? address).map (timer.write · value)

end Timer

end Handheld
