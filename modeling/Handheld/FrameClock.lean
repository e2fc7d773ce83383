import Handheld.Clock

/-!
# Video frames

Counts the frames that clock ticks complete. Ticks past the end of a frame belong to the next one.
-/

namespace Handheld

set_option autoImplicit false

@[ext] structure FrameClock where
  /-- Frames completed and not yet taken. -/
  frames : UInt32
  /-- Ticks of the frame that is under way. -/
  ticks : UInt32
  deriving DecidableEq

namespace FrameClock

def zero : FrameClock := ⟨0, 0⟩

/-- Takes whole frames off the ticks under way, one after the other, and counts them. -/
@[semireducible] def carry (clock : FrameClock) : Attempt FrameClock Fault Unit :=
  if _under : clock.ticks < ticksPerFrame then ⟨clock, .ok ()⟩
  else
    let ended := { clock with ticks := clock.ticks - ticksPerFrame }
    match Checked.add32 ended.frames 1 with
    | .error fault => ⟨ended, .error fault⟩
    | .ok frames => carry { ended with frames }
termination_by clock.ticks.toNat
decreasing_by
  have ended := UInt32.not_lt.mp _under
  have positive : 0 < ticksPerFrame.toNat := by decide
  have enough := UInt32.le_iff_toNat_le.mp ended
  rw [UInt32.toNat_sub_of_le _ _ ended]
  omega

def advance (clock : FrameClock) (ticks : UInt32) : Attempt FrameClock Fault Unit :=
  match Checked.add32 clock.ticks ticks with
  | .error fault => ⟨clock, .error fault⟩
  | .ok total => carry { clock with ticks := total }

def take (clock : FrameClock) : UInt32 × FrameClock :=
  (clock.frames, { clock with frames := 0 })

end FrameClock

end Handheld
