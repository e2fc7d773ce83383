import Handheld.Interrupt

/-!
# The key pad

Eight keys stand in two columns of four lines each. A held key pulls its line low, and reading shows
the lines of the selected columns; a column is selected by a low bit. Where both are selected, a
line is low if either column pulls it low. Every press asks for the joypad interrupt, also that of a
key which is held already.
-/

namespace Handheld

set_option autoImplicit false

inductive Button where
  | a | b | select | start | right | left | up | down
  deriving DecidableEq

namespace Button

def all : List Button := [a, b, select, start, right, left, up, down]

def name : Button → String
  | a => "A"
  | b => "B"
  | select => "Select"
  | start => "Start"
  | right => "Right"
  | left => "Left"
  | up => "Up"
  | down => "Down"

/-- The line that the key pulls low. -/
def line : Button → UInt8
  | a | right => 0x01
  | b | left => 0x02
  | select | up => 0x04
  | start | down => 0x08

def isDirection : Button → Bool
  | a | b | select | start => false
  | right | left | up | down => true

end Button

@[ext] structure Joypad where
  /-- The lines of the action buttons, low where held. -/
  buttons : UInt8
  /-- The lines of the directions, low where held. -/
  directions : UInt8
  /-- The two select bits, low where selected. -/
  select : UInt8
  deriving DecidableEq

namespace Joypad

def selectButtons : UInt8 := 0x20

def selectDirections : UInt8 := 0x10

def selectMask : UInt8 := selectButtons ||| selectDirections

def released : UInt8 := 0x0F

/-- The bits that no line and no selection stands behind. -/
def unusedBits : UInt8 := 0xC0

def idle : Joypad := ⟨released, released, selectMask⟩

def read (joypad : Joypad) : UInt8 :=
  let buttons := if joypad.select &&& selectButtons = 0 then joypad.buttons else released
  let directions :=
    if joypad.select &&& selectDirections = 0 then joypad.directions else released
  unusedBits ||| joypad.select ||| (released &&& buttons &&& directions)

/-- Only the select bits can be written. -/
def write (joypad : Joypad) (value : UInt8) : Joypad :=
  { joypad with select := value &&& selectMask }

def column (joypad : Joypad) (button : Button) : UInt8 :=
  if button.isDirection then joypad.directions else joypad.buttons

def setColumn (joypad : Joypad) (button : Button) (lines : UInt8) : Joypad :=
  if button.isDirection then { joypad with directions := lines }
  else { joypad with buttons := lines }

def press (joypad : Joypad) (button : Button) : Joypad :=
  joypad.setColumn button (joypad.column button &&& ~~~button.line)

def release (joypad : Joypad) (button : Button) : Joypad :=
  joypad.setColumn button (joypad.column button ||| button.line)

def isPressed (joypad : Joypad) (button : Button) : Bool :=
  joypad.column button &&& button.line == 0

/-- The press of a key, as the key pad and the interrupt registers see it. -/
def keyDown (joypad : Joypad) (bank : InterruptBank) (button : Button) :
    Joypad × InterruptBank :=
  (joypad.press button, bank.request .joypad)

end Joypad

end Handheld
