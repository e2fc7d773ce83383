import Handheld.Checked

/-!
# The address map

Ten regions cover the address space without gaps or overlaps. Echo addresses stand for the work RAM
address 0x2000 below them.
-/

namespace Handheld

set_option autoImplicit false

inductive Region where
  | rom
  | videoRam
  | externalRam
  | workRam
  | echo
  | oam
  | unusable
  | io
  | highRam
  | interruptEnable
  deriving DecidableEq

namespace Region

/-- The regions in ascending order of their addresses. -/
def all : List Region :=
  [rom, videoRam, externalRam, workRam, echo, oam, unusable, io, highRam, interruptEnable]

def name : Region → String
  | rom => "Rom"
  | videoRam => "VideoRam"
  | externalRam => "ExternalRam"
  | workRam => "WorkRam"
  | echo => "Echo"
  | oam => "Oam"
  | unusable => "Unusable"
  | io => "Io"
  | highRam => "HighRam"
  | interruptEnable => "InterruptEnable"

def first : Region → UInt16
  | rom => 0x0000
  | videoRam => 0x8000
  | externalRam => 0xA000
  | workRam => 0xC000
  | echo => 0xE000
  | oam => 0xFE00
  | unusable => 0xFEA0
  | io => 0xFF00
  | highRam => 0xFF80
  | interruptEnable => 0xFFFF

def last : Region → UInt16
  | rom => 0x7FFF
  | videoRam => 0x9FFF
  | externalRam => 0xBFFF
  | workRam => 0xDFFF
  | echo => 0xFDFF
  | oam => 0xFE9F
  | unusable => 0xFEFF
  | io => 0xFF7F
  | highRam => 0xFFFE
  | interruptEnable => 0xFFFF

def contains (region : Region) (address : UInt16) : Bool :=
  region.first ≤ address && address ≤ region.last

def ofAddress (address : UInt16) : Region :=
  if address ≤ rom.last then rom
  else if address ≤ videoRam.last then videoRam
  else if address ≤ externalRam.last then externalRam
  else if address ≤ workRam.last then workRam
  else if address ≤ echo.last then echo
  else if address ≤ oam.last then oam
  else if address ≤ unusable.last then unusable
  else if address ≤ io.last then io
  else if address ≤ highRam.last then highRam
  else interruptEnable

end Region

/-- How far the echo lies above the work RAM it repeats. -/
def echoDistance : UInt16 := 0x2000

/-- The work RAM address that an echo address stands for. -/
def echoTarget (address : UInt16) : Except Fault UInt16 :=
  Checked.sub16 address echoDistance

namespace Address

def keys : UInt16 := 0xFF00

def divider : UInt16 := 0xFF04

def timerCounter : UInt16 := 0xFF05

def timerModulo : UInt16 := 0xFF06

def timerControl : UInt16 := 0xFF07

def interruptFlag : UInt16 := 0xFF0F

def interruptEnable : UInt16 := 0xFFFF

end Address

end Handheld
