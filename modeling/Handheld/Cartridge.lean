import Handheld.Model

/-!
# Cartridge images

An image is the sequence of bytes of a cartridge. Its header, when the image is long enough to hold
one, says which model the game was made for and which bank controller it has. Only images that fit
into the 32 KiB window without a bank controller are accepted.
-/

namespace Handheld.Cartridge

set_option autoImplicit false

abbrev Image := Array UInt8

def colorFlagOffset : Nat := 0x143

def superFlagOffset : Nat := 0x146

def controllerOffset : Nat := 0x147

def headerEnd : Nat := 0x150

def windowSize : Nat := 0x8000

/-- The model that the header asks for: color wins over super. -/
def requestedModel? (image : Image) : Option Model :=
  if headerEnd ≤ image.size then
    let color := image.getD colorFlagOffset 0
    if color = 0x80 ∨ color = 0xC0 then some .gameBoyColor
    else if image.getD superFlagOffset 0 = 0x03 then some .superGameBoy
    else some .gameBoy
  else none

def controller? (image : Image) : Option UInt8 :=
  if headerEnd ≤ image.size then
    let controller := image.getD controllerOffset 0
    if controller = 0 then none else some controller
  else none

inductive Rejection where
  | empty
  | tooLarge (size : Nat)
  deriving DecidableEq

def Rejection.message : Rejection → String
  | empty => "rom image is empty"
  | tooLarge size =>
      "rom image of " ++ toString size ++ " bytes exceeds the 32 KiB unbanked window"

def rejection? (image : Image) : Option Rejection :=
  if image.size = 0 then some .empty
  else if windowSize < image.size then some (.tooLarge image.size)
  else none

end Handheld.Cartridge
