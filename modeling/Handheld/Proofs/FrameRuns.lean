import Handheld.Proofs.FullTable
import Handheld.Proofs.Pace

/-!
# Runs to the end of a frame

Every step of a paced machine leaves less of the frame to do. So a run to the end of a frame comes
to its end, completes one frame and no more, and goes past the edge by 28 ticks at most; these are
carried, and any number of such runs takes as many whole frames, up to what the clock shows before
and after. A run to the halt state is bounded in the same way.
-/

namespace Handheld.Machine

set_option autoImplicit false

/-- No opcode without a handler and no full counter comes in the way of the run. -/
def RunIsClear (machine : Machine) (boundary : Boundary) : Prop :=
  (∀ visited,
    StepsFrom (boundary.reached machine.clock.frames) (UInt32.size - 1) machine .none visited →
      visited.Assigned) ∧
    machine.RunHasRoom boundary

/-- Steps that keep `kept` and each time leave less to do come to a first stop. -/
theorem first_stop_of_descent {stop : Machine → Progress → Bool}
    {kept : Machine → Progress → Prop} (left : Machine → Progress → Nat)
    (descends : ∀ machine progress, kept machine progress → stop machine progress = false →
      machine.Assigned → machine.HasRoom →
        ∃ cost, machine.step.ticks = .ok cost ∧ kept machine.step.machine (progress.count cost) ∧
          left machine.step.machine (progress.count cost) < left machine progress)
    {room : Nat} {machine : Machine} {progress : Progress} (start : kept machine progress)
    (countable : left machine progress ≤ room)
    (assigned : ∀ visited, StepsFrom stop room machine progress visited → visited.Assigned)
    (spacious : ∀ visited, StepsFrom stop room machine progress visited → visited.HasRoom) :
    ∃ costs final, FirstStop stop machine progress costs final ∧
      costs.length ≤ left machine progress ∧ kept final (progress.after costs) := by
  -- Where no room is left nothing is left to do, so that `stop` must hold.
  induction room generalizing machine progress with
  | zero =>
      cases stopped : stop machine progress with
      | true => exact ⟨[], machine, first_stop_now stopped, Nat.zero_le _, start⟩
      | false =>
          obtain ⟨cost, _, _, less⟩ := descends machine progress start stopped
            (assigned _ (.now stopped)) (spacious _ (.now stopped))
          omega
  | succ room induction =>
      cases stopped : stop machine progress with
      | true => exact ⟨[], machine, first_stop_now stopped, Nat.zero_le _, start⟩
      | false =>
          obtain ⟨cost, completed, next, less⟩ := descends machine progress start stopped
            (assigned _ (.now stopped)) (spacious _ (.now stopped))
          obtain ⟨costs, final, first, short, last⟩ := induction next (by omega)
            (fun visited rest => assigned visited (.later stopped completed rest))
            (fun visited rest => spacious visited (.later stopped completed rest))
          exact ⟨cost :: costs, final, first_stop_later stopped completed first,
            Nat.succ_le_of_lt (Nat.lt_of_le_of_lt short less), last⟩

/-- Where a run to the end of a frame can be: within the frame of its start, or just past it. -/
structure AtFrame (start machine : Machine) (progress : Progress) : Prop where
  paced : machine.Paced
  account : machine.clockTotal = start.clockTotal + progress.ticks.toNat
  edge : machine.clock.frames = start.clock.frames ∨
    (machine.clock.frames.toNat = start.clock.frames.toNat + 1 ∧ machine.clock.ticks.toNat ≤ 28)

def frameLeft (start machine : Machine) : Nat :=
  if machine.clock.frames = start.clock.frames then (70224 - machine.clock.ticks.toNat) / 4 else 0

theorem frame_descends {start machine : Machine} {progress : Progress}
    (kept : AtFrame start machine progress)
    (running : Boundary.frame.reached start.clock.frames machine progress = false)
    (assigned : machine.Assigned) (room : machine.HasRoom) :
    ∃ cost, machine.step.ticks = .ok cost ∧
      AtFrame start machine.step.machine (progress.count cost) ∧
      frameLeft start machine.step.machine < frameLeft start machine := by
  have same : machine.clock.frames = start.clock.frames := by
    simpa [Boundary.reached] using running
  obtain ⟨cost, completed, isCost, paced, total⟩ := paced_step kept.paced assigned room
  obtain ⟨least, most, _⟩ := isCost.bounds
  have account := kept.account
  have within := kept.paced.within
  have whole := kept.paced.whole
  have withinNext := paced.within
  have small : progress.ticks.toNat + cost.toNat < UInt64.size := by
    simp only [clockTotal, same] at account
    simp only [UInt64.size]
    omega
  have counted := Progress.ticks_count small
  have frames : machine.clock.frames.toNat = start.clock.frames.toNat := by rw [same]
  refine ⟨cost, completed, ⟨paced, by omega, ?_⟩, ?_⟩
  · -- Before the step at least 4 ticks of the frame were left, and it cost 32 at most.
    rw [← UInt32.toNat_inj]
    unfold clockTotal at total
    omega
  · unfold clockTotal at total
    simp only [frameLeft, ← UInt32.toNat_inj]
    split <;> omega

structure FrameRun (start : Machine) (progress : Progress) (final : Machine) : Prop where
  steps_le : progress.steps.toNat ≤ (70224 - start.clock.ticks.toNat) / 4
  frames_eq : final.clock.frames.toNat = start.clock.frames.toNat + 1
  ticks_eq : start.clock.ticks.toNat + progress.ticks.toNat = 70224 + final.clock.ticks.toNat
  overshoot : final.clock.ticks.toNat ≤ 28
  paced : final.Paced

theorem frame_run_returns {machine : Machine} (paced : machine.Paced)
    (clear : machine.RunIsClear .frame) :
    ∃ progress, (machine.run .frame).answer = .ok progress ∧
      FrameRun machine progress (machine.run .frame).machine := by
  have start : AtFrame machine machine .none := ⟨paced, rfl, .inl rfl⟩
  have left : frameLeft machine machine = (70224 - machine.clock.ticks.toNat) / 4 := if_pos rfl
  have countable : frameLeft machine machine ≤ UInt32.size - 1 := by
    simp only [left, UInt32.size]
    omega
  obtain ⟨costs, final, first, short, last⟩ :=
    first_stop_of_descent (fun reached _ => frameLeft machine reached)
      (fun _ _ => frame_descends) start countable clear.1 clear.2
  obtain ⟨reached, answered⟩ :=
    run_until_of_first_stop #[] first (Nat.le_trans short countable)
  have fits : costs.length < UInt32.size := by
    simp only [UInt32.size] at countable ⊢
    omega
  have steps := (Progress.none_after fits).1
  have apart : final.clock.frames ≠ machine.clock.frames := by
    simpa [Boundary.reached] using first.stopped
  refine ⟨_, answered, ?_⟩
  rw [run, reached]
  have account := last.account
  rcases last.edge with same | ⟨frames, overshoot⟩
  · exact absurd same apart
  · constructor
    · rw [steps, ← left]
      exact short
    · exact frames
    · unfold clockTotal at account
      omega
    · exact overshoot
    · exact last.paced

/-- Where a run to the halt state can be: not more than one step past the ticks of a frame. -/
structure AtHalt (machine : Machine) (progress : Progress) : Prop where
  paced : machine.Paced
  whole : 4 ∣ progress.ticks.toNat
  most : progress.ticks.toNat ≤ 70224 + 28

def haltLeft (progress : Progress) : Nat :=
  (70224 - progress.ticks.toNat) / 4

theorem halt_reached_iff {machine : Machine} {progress : Progress} (frames : UInt32) :
    Boundary.halted.reached frames machine progress = true ↔
      machine.cpu.registers.halted = true ∨ 70224 ≤ progress.ticks.toNat := by
  have frame : ticksPerFrame.toUInt64.toNat = 70224 := rfl
  simp only [Boundary.reached, Bool.or_eq_true, decide_eq_true_eq]
  rw [UInt64.le_iff_toNat_le, frame]

theorem halt_is_short {machine : Machine} {progress : Progress} (frames : UInt32)
    (running : Boundary.halted.reached frames machine progress = false) :
    progress.ticks.toNat < 70224 := by
  apply Nat.lt_of_not_le
  intro enough
  rw [(halt_reached_iff frames).mpr (.inr enough)] at running
  contradiction

theorem halt_descends {frames : UInt32} {machine : Machine} {progress : Progress}
    (kept : AtHalt machine progress)
    (running : Boundary.halted.reached frames machine progress = false)
    (assigned : machine.Assigned) (room : machine.HasRoom) :
    ∃ cost, machine.step.ticks = .ok cost ∧ AtHalt machine.step.machine (progress.count cost) ∧
      haltLeft (progress.count cost) < haltLeft progress := by
  have under := halt_is_short frames running
  obtain ⟨cost, completed, isCost, paced, _⟩ := paced_step kept.paced assigned room
  obtain ⟨least, most, multiple⟩ := isCost.bounds
  have whole := kept.whole
  have counted : (progress.count cost).ticks.toNat = progress.ticks.toNat + cost.toNat :=
    Progress.ticks_count (by simp only [UInt64.size]; omega)
  refine ⟨cost, completed, ⟨paced, ?_, ?_⟩, ?_⟩
  · omega
  · omega
  · unfold haltLeft
    omega

theorem halt_run_returns {machine : Machine} (paced : machine.Paced)
    (clear : machine.RunIsClear .halted) :
    ∃ progress, (machine.run .halted).answer = .ok progress ∧
      ((machine.run .halted).machine.cpu.registers.halted = true ∨
        70224 ≤ progress.ticks.toNat) ∧
      progress.ticks.toNat ≤ 70224 + 28 := by
  have start : AtHalt machine .none := ⟨paced, Nat.dvd_zero 4, Nat.zero_le _⟩
  have countable : haltLeft .none ≤ UInt32.size - 1 := by decide
  obtain ⟨costs, final, first, short, last⟩ :=
    first_stop_of_descent (fun _ progress => haltLeft progress)
      (fun _ _ => halt_descends) start countable clear.1 clear.2
  obtain ⟨reached, answered⟩ :=
    run_until_of_first_stop #[] first (Nat.le_trans short countable)
  refine ⟨_, answered, ?_, last.most⟩
  rw [run, reached]
  exact (halt_reached_iff machine.clock.frames).mp first.stopped

/-- Runs to the end of a frame that all returned, one after another. -/
inductive FrameRuns : Machine → List Progress → Machine → Prop where
  | none {machine : Machine} : FrameRuns machine [] machine
  | next {machine final : Machine} {progress : Progress} {outcomes : List Progress}
      (returned : (machine.run .frame).answer = .ok progress)
      (rest : FrameRuns (machine.run .frame).machine outcomes final) :
      FrameRuns machine (progress :: outcomes) final

def consumedTicks (outcomes : List Progress) : Nat :=
  (outcomes.map (·.ticks.toNat)).sum

theorem frame_runs_return {machine : Machine} (paced : machine.Paced) {count : Nat}
    (clear : ∀ outcomes reached, FrameRuns machine outcomes reached → outcomes.length < count →
      reached.RunIsClear .frame) :
    ∃ outcomes final, FrameRuns machine outcomes final ∧ outcomes.length = count ∧
      machine.clock.ticks.toNat + consumedTicks outcomes =
        70224 * count + final.clock.ticks.toNat ∧
      (1 ≤ count → final.clock.ticks.toNat ≤ 28) := by
  induction count generalizing machine with
  | zero => exact ⟨[], machine, .none, rfl, (Nat.add_zero _).trans (Nat.zero_add _).symm, by simp⟩
  | succ count induction =>
      obtain ⟨progress, returned, first⟩ :=
        frame_run_returns paced (clear [] machine .none (Nat.zero_lt_succ _))
      obtain ⟨outcomes, final, runs, counted, total, overshoot⟩ := induction first.paced
        (fun outcomes reached runs short =>
          clear (progress :: outcomes) reached (.next returned runs) (Nat.succ_lt_succ short))
      refine ⟨progress :: outcomes, final, .next returned runs, congrArg (· + 1) counted, ?_, ?_⟩
      · have ticks := first.ticks_eq
        simp only [consumedTicks, List.map_cons, List.sum_cons] at total ⊢
        omega
      · intro _
        cases runs with
        | none => exact first.overshoot
        | next again rest =>
            apply overshoot
            rw [← counted]
            exact Nat.le_add_left 1 _

/-- A machine with a handler for every opcode, `progress` after the start of a run. -/
structure Follows (start machine : Machine) (progress : Progress) : Prop where
  paced : machine.Paced
  full : machine.cpu.table.Full
  account : machine.clockTotal = start.clockTotal + progress.ticks.toNat
  ticks : machine.cpu.ticks.toNat = start.cpu.ticks.toNat + progress.ticks.toNat

section Follows

variable {start machine : Machine} {progress : Progress}

theorem follows_assigned (follows : Follows start machine progress) : machine.Assigned :=
  .inr (follows.full _)

theorem follows_has_room (follows : Follows start machine progress)
    (under : progress.ticks.toNat < 70224) (within : start.clock.ticks.toNat < 70224)
    (ticksRoom : start.cpu.ticks.toNat + 70256 < UInt64.size)
    (framesRoom : start.clock.frames.toNat + 2 < UInt32.size) : machine.HasRoom := by
  intro answered
  have short := Cpu.step_ticks_le follows.paced.only answered
  have account := follows.account
  have ticks := follows.ticks
  have withinNow := follows.paced.within
  unfold clockTotal at account
  constructor
  · omega
  · omega

theorem follows_next (follows : Follows start machine progress)
    (under : progress.ticks.toNat < 70224) (room : machine.HasRoom) {cost : UInt32}
    (completed : machine.step.ticks = .ok cost) :
    Follows start machine.step.machine (progress.count cost) := by
  have step := step_completed completed
  obtain ⟨same, again, isCost, paced, total⟩ :=
    paced_step follows.paced (follows_assigned follows) room
  rw [completed] at again
  obtain rfl := Except.ok.inj again
  obtain ⟨_, most, _⟩ := isCost.bounds
  have counted : (progress.count cost).ticks.toNat = progress.ticks.toNat + cost.toNat :=
    Progress.ticks_count (by simp only [UInt64.size]; omega)
  have account := follows.account
  have ticks := follows.ticks
  have stepTicks := step.law.ticks_eq
  constructor
  · exact paced
  · rw [step.reached]
    dsimp only
    rw [step.law.table_eq]
    exact follows.full
  · omega
  · rw [step.reached]
    dsimp only
    omega

theorem visited_is_clear {stop : Machine → Progress → Bool} {room : Nat} {visited : Machine}
    (short : ∀ machine progress, Follows start machine progress → stop machine progress = false →
      progress.ticks.toNat < 70224)
    (within : start.clock.ticks.toNat < 70224)
    (ticksRoom : start.cpu.ticks.toNat + 70256 < UInt64.size)
    (framesRoom : start.clock.frames.toNat + 2 < UInt32.size)
    (follows : Follows start machine progress)
    (visits : StepsFrom stop room machine progress visited) :
    visited.Assigned ∧ visited.HasRoom := by
  induction visits with
  | now under =>
      exact ⟨follows_assigned follows,
        follows_has_room follows (short _ _ follows under) within ticksRoom framesRoom⟩
  | later under completed rest induction =>
      have early := short _ _ follows under
      exact induction (follows_next follows early
        (follows_has_room follows early within ticksRoom framesRoom) completed)

end Follows

/-- With a handler for every opcode, a run that is over after the ticks of a frame is clear unless
the counters are all but full. -/
theorem run_is_clear_of_short {machine : Machine} {boundary : Boundary}
    (short : ∀ reached progress, Follows machine reached progress →
      boundary.reached machine.clock.frames reached progress = false →
        progress.ticks.toNat < 70224)
    (paced : machine.Paced) (full : machine.cpu.table.Full)
    (ticksRoom : machine.cpu.ticks.toNat + 70256 < UInt64.size)
    (framesRoom : machine.clock.frames.toNat + 2 < UInt32.size) :
    machine.RunIsClear boundary := by
  have start : Follows machine machine .none := ⟨paced, full, rfl, rfl⟩
  have ready : ∀ visited,
      StepsFrom (boundary.reached machine.clock.frames) (UInt32.size - 1) machine .none visited →
        visited.Assigned ∧ visited.HasRoom :=
    fun _ visits => visited_is_clear short paced.within ticksRoom framesRoom start visits
  exact ⟨fun visited visits => (ready visited visits).1,
    fun visited visits => (ready visited visits).2⟩

theorem frame_is_short (machine reached : Machine) (progress : Progress)
    (follows : Follows machine reached progress)
    (under : Boundary.frame.reached machine.clock.frames reached progress = false) :
    progress.ticks.toNat < 70224 := by
  have same : reached.clock.frames = machine.clock.frames := by
    simpa [Boundary.reached] using under
  have account := follows.account
  have within := follows.paced.within
  simp only [clockTotal, same] at account
  omega

theorem frame_runs_clear_of_full {machine reached : Machine} {outcomes : List Progress}
    (runs : FrameRuns machine outcomes reached) (paced : machine.Paced)
    (full : machine.cpu.table.Full)
    (ticksRoom : machine.cpu.ticks.toNat + 70252 * outcomes.length + 70256 < UInt64.size)
    (framesRoom : machine.clock.frames.toNat + outcomes.length + 2 < UInt32.size) :
    reached.RunIsClear .frame := by
  induction runs with
  | none => exact run_is_clear_of_short (frame_is_short _) paced full ticksRoom framesRoom
  | next returned rest induction =>
      rw [List.length_cons] at ticksRoom framesRoom
      have clear := run_is_clear_of_short (frame_is_short _) paced full (by omega) (by omega)
      obtain ⟨progress, again, law⟩ := frame_run_returns paced clear
      rw [returned] at again
      obtain rfl := Except.ok.inj again
      have iterated := returned_iterated returned
      obtain ⟨costs, steps, _, _⟩ := iterated.steps
      have ticks := iterated.ticks_eq
      have consumed := law.ticks_eq
      have overshoot := law.overshoot
      have frames := law.frames_eq
      apply induction law.paced
      · rw [steps_table steps]
        exact full
      · omega
      · omega

/-- Runs to the end of a frame and to the halt state come to their end, however the machine was used
before; what goes past the edge of a frame is at most 28 ticks, and it is carried. -/
theorem frame_runs_bounded {machine : Machine} {taken : Nat} (history : History machine taken)
    (only : machine.cpu.table.OnlyControl) :
    (machine.RunIsClear .frame →
        ∃ progress, (machine.run .frame).answer = .ok progress ∧
          progress.steps.toNat ≤ (70224 - machine.clock.ticks.toNat) / 4 ∧
          (machine.run .frame).machine.clock.frames.toNat = machine.clock.frames.toNat + 1) ∧
      (∀ count, (∀ outcomes reached, FrameRuns machine outcomes reached →
          outcomes.length < count → reached.RunIsClear .frame) →
        ∃ outcomes final, FrameRuns machine outcomes final ∧ outcomes.length = count ∧
          machine.clock.ticks.toNat + consumedTicks outcomes =
            70224 * count + final.clock.ticks.toNat ∧
          (1 ≤ count → final.clock.ticks.toNat ≤ 28)) ∧
      (machine.RunIsClear .halted →
        ∃ progress, (machine.run .halted).answer = .ok progress ∧
          ((machine.run .halted).machine.cpu.registers.halted = true ∨
            70224 ≤ progress.ticks.toNat) ∧
          progress.ticks.toNat ≤ 70224 + 28) := by
  have paced := history_paced history only
  refine ⟨?_, fun count clear => frame_runs_return paced clear, halt_run_returns paced⟩
  intro clear
  obtain ⟨progress, returned, law⟩ := frame_run_returns paced clear
  exact ⟨progress, returned, law.steps_le, law.frames_eq⟩

def idling : Machine :=
  { ofConfig .standard with
    cpu := { (ofConfig .standard).cpu with
      table := OpcodeTable.control.fillUnassigned Instruction.nop } }

theorem idling_runs_bounded :
    History idling 0 ∧ idling.RunIsClear .frame ∧ idling.RunIsClear .halted ∧
      (∃ progress, (idling.run .frame).answer = .ok progress ∧ progress.steps.toNat ≤ 17556 ∧
        (idling.run .frame).machine.clock.frames.toNat = 1) ∧
      (∃ outcomes final, FrameRuns idling outcomes final ∧ outcomes.length = 1000 ∧
        consumedTicks outcomes = 70224000 + final.clock.ticks.toNat ∧
        final.clock.ticks.toNat ≤ 28) ∧
      ∃ progress, (idling.run .halted).answer = .ok progress ∧ progress.ticks.toNat ≤ 70252 := by
  have only : idling.cpu.table.OnlyControl :=
    OpcodeTable.fill_only_control OpcodeTable.control_only_control .nop
  have full : idling.cpu.table.Full := OpcodeTable.control.fill_full Instruction.nop
  have history : History idling 0 :=
    (History.made .standard).editTable (OpcodeTable.keeps_timers_of_only_control only)
  have paced := history_paced history only
  have frame : idling.RunIsClear .frame :=
    run_is_clear_of_short (frame_is_short _) paced full (by decide) (by decide)
  have halted : idling.RunIsClear .halted :=
    run_is_clear_of_short (fun _ _ _ => halt_is_short _) paced full (by decide) (by decide)
  have frames : ∀ outcomes reached, FrameRuns idling outcomes reached → outcomes.length < 1000 →
      reached.RunIsClear .frame := by
    intro outcomes reached runs short
    have ticks : idling.cpu.ticks.toNat = 0 := rfl
    have counted : idling.clock.frames.toNat = 0 := rfl
    apply frame_runs_clear_of_full runs paced full
    · simp only [ticks, UInt64.size]
      omega
    · simp only [counted, UInt32.size]
      omega
  obtain ⟨oneFrame, manyFrames, toHalt⟩ := frame_runs_bounded history only
  obtain ⟨outcomes, final, runs, counted, total, overshoot⟩ := manyFrames 1000 frames
  obtain ⟨progress, returned, _, most⟩ := toHalt halted
  have zero : idling.clock.ticks.toNat = 0 := rfl
  rw [zero, Nat.zero_add] at total
  exact ⟨history, frame, halted, oneFrame frame,
    ⟨outcomes, final, runs, counted, total, overshoot (by decide)⟩, progress, returned, most⟩

end Handheld.Machine
