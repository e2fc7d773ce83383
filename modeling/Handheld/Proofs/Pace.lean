import Handheld.Proofs.FrameAccounting
import Handheld.Proofs.Iteration
import Handheld.Proofs.StepCost

/-!
# The pace of the frame clock

With control instructions every step brings the frame clock on by 4 up to 32 ticks, and always by
whole machine cycles. Whatever is done with a machine, its frame clock stands at a whole machine
cycle.
-/

namespace Handheld.Machine

set_option autoImplicit false

/-- The instruction of the next step is carried out: the processor is halted, or there is a handler
for the opcode. -/
def Assigned (machine : Machine) : Prop :=
  machine.cpu.registers.halted = true ∨
    ∃ handler, machine.cpu.table.handler? (machine.board.read machine.cpu.registers.pc) =
      some handler

/-- What carries the runs: the frame clock stands at a whole machine cycle within the frame. -/
structure Paced (machine : Machine) : Prop where
  within : machine.clock.ticks.toNat < 70224
  whole : 4 ∣ machine.clock.ticks.toNat
  timer : machine.board.TimerReachable
  only : machine.cpu.table.OnlyControl

/-- The frames and the ticks of the frame under way, all in ticks. -/
def clockTotal (machine : Machine) : Nat :=
  70224 * machine.clock.frames.toNat + machine.clock.ticks.toNat

theorem paced_step {machine : Machine} (paced : machine.Paced) (assigned : machine.Assigned)
    (room : machine.HasRoom) :
    ∃ cost, machine.step.ticks = .ok cost ∧ Cpu.IsStepCost cost ∧ machine.step.machine.Paced ∧
      machine.step.machine.clockTotal = machine.clockTotal + cost.toNat := by
  have answered := Cpu.answered_of_handled assigned
  obtain ⟨ticksRoom, framesRoom⟩ := room answered
  have keeps := OpcodeTable.keeps_timers_of_only_control paced.only
  obtain ⟨cost, completed, law⟩ := Cpu.step_of_reachable keeps paced.timer answered ticksRoom
  have isCost := law.is_step_cost paced.only
  obtain ⟨_, most, cycles⟩ := isCost.bounds
  rw [← law.cost_eq] at framesRoom
  obtain ⟨counted, within, total⟩ :=
    FrameClock.advance_of_room paced.within (show cost.toNat < 70224 by omega) framesRoom
  obtain ⟨reached, ticks⟩ := step_of_completed completed
  refine ⟨cost, by rw [ticks, counted]; rfl, isCost, ?_, ?_⟩
  · rw [reached]
    constructor
    · exact within
    · have whole := paced.whole
      dsimp only
      omega
    · exact law.timer_reachable keeps paced.timer
    · rw [law.table_eq]
      exact paced.only
  · rw [reached]
    exact total

theorem step_whole {machine : Machine} (whole : 4 ∣ machine.clock.ticks.toNat) :
    4 ∣ machine.step.machine.clock.ticks.toNat := by
  cases stepped : (machine.cpu.step machine.board).ticks with
  | error fault =>
      rw [(step_of_fault stepped).1]
      exact whole
  | ok cost =>
      have law := Cpu.step_completed _ _ stepped
      rw [(step_of_completed stepped).1]
      apply FrameClock.advance_whole whole
      rw [law.cost_eq]
      exact Nat.dvd_mul_right 4 _

theorem insert_whole {machine : Machine} (whole : 4 ∣ machine.clock.ticks.toNat)
    (image : Cartridge.Image) : 4 ∣ (machine.insert image).state.clock.ticks.toNat := by
  rcases machine.insert_cases image with accepted | ⟨rejection, refused⟩
  · rw [accepted]
    exact Nat.dvd_zero 4
  · rw [refused]
    exact whole

theorem loaded_whole {image : Cartridge.Image} {tracing : Bool} {machine : Machine}
    {notices : List Notice} (accepted : ofImage image tracing = .ok (machine, notices)) :
    4 ∣ machine.clock.ticks.toNat := by
  have fresh : 4 ∣ (ofConfig (configFor image tracing)).clock.ticks.toNat := Nat.dvd_zero 4
  have inserted := insert_whole fresh image
  rw [insert_of_made accepted] at inserted
  exact inserted

theorem history_whole {machine : Machine} {taken : Nat} (history : History machine taken) :
    4 ∣ machine.clock.ticks.toNat := by
  induction history with
  | made config => exact Nat.dvd_zero 4
  | loaded accepted => exact loaded_whole accepted
  | step earlier room whole => exact step_whole whole
  | run earlier boundary room whole =>
      exact run_until_keeps (fun machine => 4 ∣ machine.clock.ticks.toNat)
        (fun _ _ => step_whole) whole
  | takeFrames earlier whole => exact whole
  | keyDown earlier button whole => exact whole
  | keyUp earlier button whole => exact whole
  | reset earlier whole => exact Nat.dvd_zero 4
  | inserted earlier accepted whole => exact insert_whole whole _
  | refused earlier rejected whole => exact insert_whole whole _
  | editBoard earlier reachable whole => exact whole
  | editRegisters earlier registers whole => exact whole
  | editTable earlier keeps whole => exact whole

theorem history_paced {machine : Machine} {taken : Nat} (history : History machine taken)
    (only : machine.cpu.table.OnlyControl) : machine.Paced where
  within := (history_balanced history).within
  whole := history_whole history
  timer := (history_balanced history).timer
  only := only

end Handheld.Machine
