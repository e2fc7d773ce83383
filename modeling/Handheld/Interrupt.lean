/-!
# Interrupt sources and their registers

Five sources share one register pair: a bit of the flag register says that its source asks for
service, the same bit of the enable register lets it through. Bits above the five lines can be set,
but no source stands behind them.
-/

namespace Handheld

set_option autoImplicit false

inductive Interrupt where
  | vblank
  | lcdStat
  | timer
  | serial
  | joypad
  deriving DecidableEq

namespace Interrupt

/-- The bits of the interrupt registers that have a source. -/
def linesMask : UInt8 := 0x1F

/-- The sources, highest priority first. -/
def all : List Interrupt := [vblank, lcdStat, timer, serial, joypad]

def bit : Interrupt → UInt8
  | vblank => 0
  | lcdStat => 1
  | timer => 2
  | serial => 3
  | joypad => 4

def mask (source : Interrupt) : UInt8 := 1 <<< source.bit

def vector : Interrupt → UInt16
  | vblank => 0x0040
  | lcdStat => 0x0048
  | timer => 0x0050
  | serial => 0x0058
  | joypad => 0x0060

def name : Interrupt → String
  | vblank => "VBlank"
  | lcdStat => "LcdStat"
  | timer => "Timer"
  | serial => "Serial"
  | joypad => "Joypad"

end Interrupt

/-- The interrupt flag and interrupt enable registers. -/
@[ext] structure InterruptBank where
  flag : UInt8
  enable : UInt8
  deriving DecidableEq

namespace InterruptBank

def clear : InterruptBank := ⟨0, 0⟩

def setFlag (bank : InterruptBank) (value : UInt8) : InterruptBank := { bank with flag := value }

def setEnable (bank : InterruptBank) (value : UInt8) : InterruptBank :=
  { bank with enable := value }

def request (bank : InterruptBank) (source : Interrupt) : InterruptBank :=
  { bank with flag := bank.flag ||| source.mask }

def acknowledge (bank : InterruptBank) (source : Interrupt) : InterruptBank :=
  { bank with flag := bank.flag &&& ~~~source.mask }

def isRequested (bank : InterruptBank) (source : Interrupt) : Bool :=
  bank.flag &&& source.mask != 0

/-- The requests that are let through, one bit for each source. -/
def pending (bank : InterruptBank) : UInt8 :=
  bank.flag &&& bank.enable &&& Interrupt.linesMask

end InterruptBank

end Handheld
