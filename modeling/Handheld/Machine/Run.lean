import Handheld.Machine

/-!
# Running to a boundary

A run repeats the step of the machine until its boundary is reached, and stops at the first fault.
It counts its steps in 32 bits; the step that cannot be counted any more is carried out and then
faults, so every run ends.
-/

namespace Handheld.Machine

set_option autoImplicit false

inductive Boundary where
  /-- The end of the frame that is under way. -/
  | frame
  /-- The halt state, or as many ticks as a frame has. -/
  | halted
  | steps (count : UInt32)
  deriving DecidableEq

/-- The steps of a run and the clock ticks they took. -/
@[ext] structure Progress where
  steps : UInt32
  ticks : UInt64
  deriving DecidableEq

def Progress.none : Progress := ⟨0, 0⟩

/-- Whether a run that found `frames` completed frames at its start is over. -/
def Boundary.reached (boundary : Boundary) (frames : UInt32) (machine : Machine)
    (progress : Progress) : Bool :=
  match boundary with
  | .frame => machine.clock.frames != frames
  | .halted => machine.cpu.registers.halted || ticksPerFrame.toUInt64 ≤ progress.ticks
  | .steps count => progress.steps == count

structure Run where
  machine : Machine
  notices : Array Notice
  answer : Except Fault Progress

/-- Steps until `stop` holds. `room` is the number of steps that can still be counted. -/
def runUntil (stop : Machine → Progress → Bool) (room : Nat) (machine : Machine)
    (progress : Progress) (notices : Array Notice) : Run :=
  if stop machine progress then { machine, notices, answer := .ok progress }
  else
    let ⟨machine, reported, ticks⟩ := machine.step
    let notices := notices ++ reported
    match ticks, room with
    | .error fault, _ => { machine, notices, answer := .error fault }
    | .ok _, 0 => { machine, notices, answer := .error .additionOverflow }
    | .ok ticks, room + 1 =>
      let progress := ⟨progress.steps + 1, progress.ticks + ticks.toUInt64⟩
      runUntil stop room machine progress notices

def run (machine : Machine) (boundary : Boundary) : Run :=
  let frames := machine.clock.frames
  runUntil (boundary.reached frames) (UInt32.size - 1) machine .none #[]

end Handheld.Machine
