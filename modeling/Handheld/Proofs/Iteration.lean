import Handheld.Machine.Run
import Handheld.Proofs.Checked
import Handheld.Proofs.FrameClock
import Handheld.Proofs.Step
import Mathlib.Order.Bounds.Defs

/-!
# Runs are iterated steps

`Steps` is the plain iteration of the step of a machine, with the costs of the steps. A run that
returns took exactly the steps that it counted, and it stopped after the least number of them at
which its boundary holds. So runs to two numbers of steps, one after the other, are the run to
their sum, also where one of them faults.
-/

namespace Handheld

set_option autoImplicit false

namespace Machine

theorem step_of_fault {machine : Machine} {fault : Fault}
    (stopped : (machine.cpu.step machine.board).ticks = .error fault) :
    machine.step.machine = ⟨(machine.cpu.step machine.board).cpu,
        (machine.cpu.step machine.board).bus, machine.clock⟩ ∧
      machine.step.ticks = .error fault := by
  obtain ⟨cpu, board, clock⟩ := machine
  simp only [step, stopped, and_self]

theorem step_of_completed {machine : Machine} {cost : UInt32}
    (completed : (machine.cpu.step machine.board).ticks = .ok cost) :
    machine.step.machine = ⟨(machine.cpu.step machine.board).cpu,
        (machine.cpu.step machine.board).bus, (machine.clock.advance cost).state⟩ ∧
      machine.step.ticks = (machine.clock.advance cost).answer.map fun _ => cost := by
  obtain ⟨cpu, board, clock⟩ := machine
  simp only [step, completed, and_self]

/-- What a step of the machine that came to its end did. -/
structure Completed (machine : Machine) (cost : UInt32) : Prop where
  law : machine.cpu.Completed machine.board cost
  counted : (machine.clock.advance cost).answer = .ok ()
  reached : machine.step.machine = ⟨(machine.cpu.step machine.board).cpu,
    (machine.cpu.step machine.board).bus, (machine.clock.advance cost).state⟩

theorem step_completed {machine : Machine} {cost : UInt32}
    (completed : machine.step.ticks = .ok cost) : machine.Completed cost := by
  cases stepped : (machine.cpu.step machine.board).ticks with
  | error fault =>
      rw [(step_of_fault stepped).2] at completed
      contradiction
  | ok ticks =>
      obtain ⟨reached, answered⟩ := step_of_completed stepped
      rw [answered] at completed
      cases counted : (machine.clock.advance ticks).answer with
      | error fault =>
          rw [counted] at completed
          contradiction
      | ok _ =>
          rw [counted] at completed
          obtain rfl := Except.ok.inj completed
          exact ⟨Cpu.step_completed _ _ stepped, counted, reached⟩

/-- Steps that all came to their end, one after another, with their costs. -/
inductive Steps : Machine → List UInt32 → Machine → Prop where
  | none {machine : Machine} : Steps machine [] machine
  | next {machine final : Machine} {cost : UInt32} {costs : List UInt32}
      (completed : machine.step.ticks = .ok cost)
      (rest : Steps machine.step.machine costs final) : Steps machine (cost :: costs) final

def totalCost (costs : List UInt32) : Nat :=
  (costs.map UInt32.toNat).sum

section Steps

variable {machine final : Machine} {costs : List UInt32}

theorem steps_ticks (steps : Steps machine costs final) :
    final.cpu.ticks.toNat = machine.cpu.ticks.toNat + totalCost costs := by
  induction steps with
  | none => rfl
  | next completed rest induction =>
      have step := step_completed completed
      have ticks := step.law.ticks_eq
      rw [step.reached] at induction
      rw [induction, ticks, totalCost, totalCost, List.map_cons, List.sum_cons, Nat.add_assoc]

theorem steps_table (steps : Steps machine costs final) :
    final.cpu.table = machine.cpu.table := by
  induction steps with
  | none => rfl
  | next completed rest induction =>
      have step := step_completed completed
      rw [step.reached] at induction
      exact induction.trans step.law.table_eq

theorem steps_frames (steps : Steps machine costs final) :
    machine.clock.frames.toNat ≤ final.clock.frames.toNat := by
  induction steps with
  | none => exact Nat.le_refl _
  | next completed rest induction =>
      have step := step_completed completed
      rw [step.reached] at induction
      exact Nat.le_trans (FrameClock.frames_advance step.counted) induction

end Steps

namespace Progress

def count (progress : Progress) (cost : UInt32) : Progress :=
  ⟨progress.steps + 1, progress.ticks + cost.toUInt64⟩

def after (progress : Progress) (costs : List UInt32) : Progress :=
  costs.foldl count progress

theorem total_cost_bound (costs : List UInt32) :
    totalCost costs ≤ costs.length * (UInt32.size - 1) := by
  induction costs with
  | nil => exact Nat.le_refl 0
  | cons cost rest induction =>
      have bound := cost.toNat_lt
      rw [totalCost, List.map_cons, List.sum_cons, List.length_cons, Nat.add_one_mul]
      unfold totalCost at induction
      simp only [UInt32.size] at induction ⊢
      omega

theorem steps_after {progress : Progress} {costs : List UInt32}
    (countable : progress.steps.toNat + costs.length < UInt32.size) :
    (progress.after costs).steps.toNat = progress.steps.toNat + costs.length := by
  induction costs generalizing progress with
  | nil => rfl
  | cons cost rest induction =>
      have one : (1 : UInt32).toNat = 1 := rfl
      rw [List.length_cons] at countable ⊢
      have room : progress.steps.toNat + (1 : UInt32).toNat < UInt32.size := by omega
      have counted : (progress.count cost).steps.toNat = progress.steps.toNat + 1 :=
        Checked.sum32_of_room room
      have later : ((progress.count cost).after rest).steps.toNat =
          (progress.count cost).steps.toNat + rest.length := induction (by omega)
      rw [after, List.foldl_cons, ← after, later, counted]
      omega

theorem ticks_count {progress : Progress} {cost : UInt32}
    (room : progress.ticks.toNat + cost.toNat < UInt64.size) :
    (progress.count cost).ticks.toNat = progress.ticks.toNat + cost.toNat := by
  rw [← UInt32.toNat_toUInt64] at room ⊢
  exact Checked.sum64_of_room room

theorem ticks_after {progress : Progress} {costs : List UInt32}
    (room : progress.ticks.toNat + totalCost costs < UInt64.size) :
    (progress.after costs).ticks.toNat = progress.ticks.toNat + totalCost costs := by
  induction costs generalizing progress with
  | nil => rfl
  | cons cost rest induction =>
      rw [totalCost, List.map_cons, List.sum_cons, ← totalCost] at room ⊢
      have counted : (progress.count cost).ticks.toNat = progress.ticks.toNat + cost.toNat :=
        ticks_count (by omega)
      have later : ((progress.count cost).after rest).ticks.toNat =
          (progress.count cost).ticks.toNat + totalCost rest := induction (by omega)
      rw [after, List.foldl_cons, ← after, later, counted]
      omega

/-- What is counted from nothing is exact, for as long as the steps can be counted. -/
theorem none_after {costs : List UInt32} (countable : costs.length < UInt32.size) :
    (none.after costs).steps.toNat = costs.length ∧
      (none.after costs).ticks.toNat = totalCost costs := by
  have steps : none.steps.toNat = 0 := rfl
  have ticks : none.ticks.toNat = 0 := rfl
  have bound := total_cost_bound costs
  constructor
  · rw [steps_after (by omega), steps, Nat.zero_add]
  · have small := Nat.mul_le_mul_right (UInt32.size - 1) (Nat.le_sub_one_of_lt countable)
    simp only [UInt32.size] at small bound ⊢
    rw [ticks_after (by simp only [UInt64.size]; omega), ticks, Nat.zero_add]

end Progress

/-- The steps lead to where `stop` holds, and it held nowhere before. -/
structure FirstStop (stop : Machine → Progress → Bool) (machine : Machine) (progress : Progress)
    (costs : List UInt32) (final : Machine) : Prop where
  steps : Steps machine costs final
  stopped : stop final (progress.after costs) = true
  before : ∀ earlier reached, Steps machine earlier reached → earlier.length < costs.length →
    stop reached (progress.after earlier) = false

section FirstStop

variable {stop : Machine → Progress → Bool} {machine final : Machine} {progress : Progress}
  {costs : List UInt32}

theorem first_stop_now (stopped : stop machine progress = true) :
    FirstStop stop machine progress [] machine := by
  refine ⟨.none, stopped, ?_⟩
  intro earlier reached _ shorter
  contradiction

theorem first_stop_later {cost : UInt32} (running : stop machine progress = false)
    (completed : machine.step.ticks = .ok cost)
    (rest : FirstStop stop machine.step.machine (progress.count cost) costs final) :
    FirstStop stop machine progress (cost :: costs) final := by
  refine ⟨.next completed rest.steps, rest.stopped, ?_⟩
  intro earlier reached steps shorter
  cases steps with
  | none => exact running
  | next completedAgain later =>
      rw [completed] at completedAgain
      obtain rfl := Except.ok.inj completedAgain
      exact rest.before _ reached later (Nat.lt_of_succ_lt_succ shorter)

/-- A run that returns comes to its first stop, and has counted its way there. -/
theorem run_until_returned {room : Nat} {notices : Array Notice} {reached : Progress}
    (returned : (runUntil stop room machine progress notices).answer = .ok reached) :
    ∃ costs : List UInt32, costs.length ≤ room ∧ reached = progress.after costs ∧
      FirstStop stop machine progress costs (runUntil stop room machine progress notices).machine
    := by
  fun_induction runUntil stop room machine progress notices with
  | case1 room machine progress notices stopped =>
      obtain rfl := Except.ok.inj returned
      exact ⟨[], Nat.zero_le room, rfl, first_stop_now stopped⟩
  | case2 => contradiction
  | case3 => contradiction
  | case4 machine progress notices running next reported told ticks room total stepped induction =>
      obtain ⟨costs, countable, counted, first⟩ := induction returned
      have completed : machine.step.ticks = .ok ticks := by rw [stepped]
      refine ⟨ticks :: costs, Nat.succ_le_succ countable, counted, ?_⟩
      apply first_stop_later (eq_false_of_ne_true running) completed
      rw [stepped]
      exact first

/-- Where the first stop is near enough to be counted, the run returns. -/
theorem run_until_of_first_stop {room : Nat} (notices : Array Notice)
    (first : FirstStop stop machine progress costs final) (countable : costs.length ≤ room) :
    (runUntil stop room machine progress notices).machine = final ∧
      (runUntil stop room machine progress notices).answer = .ok (progress.after costs) := by
  induction costs generalizing machine progress room notices with
  | nil =>
      cases first.steps with
      | none =>
          have stopped : stop final progress = true := first.stopped
          unfold runUntil
          rw [if_pos stopped]
          exact ⟨rfl, rfl⟩
  | cons cost rest induction =>
      cases first.steps with
      | next completed later =>
          have running : stop machine progress = false :=
            first.before [] _ .none (Nat.zero_lt_succ _)
          obtain ⟨room, rfl⟩ : ∃ less, room = less + 1 :=
            Nat.exists_eq_succ_of_ne_zero (Nat.ne_of_gt (Nat.lt_of_lt_of_le (by simp) countable))
          have remaining : FirstStop stop machine.step.machine (progress.count cost) rest final := by
            refine ⟨later, first.stopped, ?_⟩
            intro earlier reached steps shorter
            exact first.before (cost :: earlier) reached (.next completed steps)
              (Nat.succ_lt_succ shorter)
          have goesOn := induction (notices ++ machine.step.notices) remaining
            (Nat.le_of_succ_le_succ countable)
          unfold runUntil
          rw [running]
          generalize machine.step = stepped at completed goesOn
          obtain ⟨next, reported, ticks⟩ := stepped
          obtain rfl : ticks = .ok cost := completed
          exact goesOn

end FirstStop

/-- What a boundary asks for, after steps with these costs from one machine to another. -/
def Boundary.Holds (boundary : Boundary) (start reached : Machine) (costs : List UInt32) : Prop :=
  match boundary with
  | .frame => start.clock.frames.toNat + 1 ≤ reached.clock.frames.toNat
  | .halted => reached.cpu.registers.halted = true ∨ 70224 ≤ totalCost costs
  | .steps count => costs.length = count.toNat

def Boundary.HoldsAfter (boundary : Boundary) (start : Machine) (count : Nat) : Prop :=
  ∃ costs reached, Steps start costs reached ∧ costs.length = count ∧
    boundary.Holds start reached costs

theorem reached_iff_holds (boundary : Boundary) {start reached : Machine} {costs : List UInt32}
    (steps : Steps start costs reached) (countable : costs.length < UInt32.size) :
    boundary.reached start.clock.frames reached (Progress.none.after costs) = true ↔
      boundary.Holds start reached costs := by
  obtain ⟨counted, ticks⟩ := Progress.none_after countable
  cases boundary with
  | frame =>
      have upward := steps_frames steps
      simp only [Boundary.reached, Boundary.Holds, bne_iff_ne, ne_eq]
      rw [← UInt32.toNat_inj]
      omega
  | halted =>
      have frame : ticksPerFrame.toUInt64.toNat = 70224 := rfl
      simp only [Boundary.reached, Boundary.Holds, Bool.or_eq_true, decide_eq_true_eq]
      rw [UInt64.le_iff_toNat_le, ticks, frame]
  | steps count =>
      simp only [Boundary.reached, Boundary.Holds, beq_iff_eq]
      rw [← UInt32.toNat_inj, counted]

def Progress.add (first second : Progress) : Progress :=
  ⟨first.steps + second.steps, first.ticks + second.ticks⟩

/-- A run and, where it returned, the run that goes on from there. -/
def Run.andThen (first : Run) (following : Machine → Run) : Run :=
  match first.answer with
  | .error _ => first
  | .ok progress =>
    let second := following first.machine
    { machine := second.machine
      notices := first.notices ++ second.notices
      answer := second.answer.map progress.add }

theorem and_then_assoc (first : Run) (second third : Machine → Run) :
    (first.andThen second).andThen third =
      first.andThen fun machine => (second machine).andThen third := by
  obtain ⟨machine, notices, answer⟩ := first
  cases answer with
  | error fault => rfl
  | ok progress =>
      simp only [Run.andThen]
      obtain ⟨next, more, answer⟩ := second machine
      cases answer with
      | error fault => rfl
      | ok counted =>
          obtain ⟨final, last, answer⟩ := third next
          cases answer with
          | error fault => simp [Except.map]
          | ok rest => simp [Except.map, Progress.add, UInt32.add_assoc, UInt64.add_assoc]

def stepRun (machine : Machine) : Run where
  machine := machine.step.machine
  notices := machine.step.notices.toArray
  answer := machine.step.ticks.map Progress.none.count

def stepRuns : Nat → Machine → Run
  | 0, machine => { machine, notices := #[], answer := .ok .none }
  | count + 1, machine => (stepRun machine).andThen (stepRuns count)

theorem none_and_then (machine : Machine) (following : Machine → Run) :
    Run.andThen { machine, notices := #[], answer := .ok .none } following = following machine := by
  simp only [Run.andThen]
  obtain ⟨final, notices, answer⟩ := following machine
  cases answer with
  | error fault => simp [Except.map]
  | ok progress => simp [Except.map, Progress.none, Progress.add]

theorem step_runs_add (first second : Nat) (machine : Machine) :
    stepRuns (first + second) machine = (stepRuns first machine).andThen (stepRuns second) := by
  induction first generalizing machine with
  | zero => rw [Nat.zero_add, stepRuns, none_and_then]
  | succ first induction =>
      rw [Nat.add_right_comm, stepRuns, stepRuns, and_then_assoc]
      congr 1
      funext machine
      exact induction machine

theorem run_until_counted {count : UInt32} {left room : Nat} (frames : UInt32) {machine : Machine}
    {progress : Progress} (notices : Array Notice)
    (remaining : progress.steps.toNat + left = count.toNat) (countable : left ≤ room) :
    runUntil ((Boundary.steps count).reached frames) room machine progress notices =
      Run.andThen { machine, notices, answer := .ok progress } (stepRuns left) := by
  have bound := count.toNat_lt
  -- `andThen` is associative, so what the run has so far can take over each step as it comes.
  induction left generalizing room machine progress notices with
  | zero =>
      have stopped : (Boundary.steps count).reached frames machine progress = true := by
        simp only [Boundary.reached, beq_iff_eq]
        exact UInt32.toNat.inj remaining
      unfold runUntil
      rw [if_pos stopped]
      simp [Run.andThen, stepRuns, Except.map, Progress.none, Progress.add]
  | succ left induction =>
      have running : (Boundary.steps count).reached frames machine progress = false := by
        simp only [Boundary.reached, beq_eq_false_iff_ne, ne_eq]
        intro same
        rw [same] at remaining
        omega
      obtain ⟨room, rfl⟩ : ∃ less, room = less + 1 :=
        Nat.exists_eq_succ_of_ne_zero (by omega)
      have one : (1 : UInt32).toNat = 1 := rfl
      have fits : progress.steps.toNat + (1 : UInt32).toNat < UInt32.size := by
        simp only [UInt32.size]
        omega
      have counted := Checked.sum32_of_room fits
      have unrolled : stepRuns (left + 1) = fun machine =>
          (stepRun machine).andThen (stepRuns left) := rfl
      unfold runUntil
      rw [running, unrolled, ← and_then_assoc]
      simp only [Run.andThen, stepRun]
      obtain ⟨next, reported, ticks⟩ := machine.step
      have listed : notices ++ reported = notices ++ reported.toArray := by
        apply Array.toList_inj.mp
        simp
      cases ticks with
      | error fault => simp [listed, Except.map]
      | ok cost =>
          have goesOn : runUntil ((Boundary.steps count).reached frames) room next
              (progress.count cost) (notices ++ reported) =
                Run.andThen ⟨next, notices ++ reported, .ok (progress.count cost)⟩
                  (stepRuns left) :=
            induction _ (by simp only [Progress.count]; omega) (Nat.le_of_succ_le_succ countable)
          simp only [Bool.false_eq_true, if_false]
          rw [← Progress.count, goesOn]
          simp [listed, Run.andThen, Except.map, Progress.none, Progress.add, Progress.count]

theorem run_steps_eq (machine : Machine) (count : UInt32) :
    machine.run (.steps count) = stepRuns count.toNat machine := by
  have bound := count.toNat_lt
  have countable : count.toNat ≤ UInt32.size - 1 := by
    simp only [UInt32.size]
    omega
  rw [run, run_until_counted _ _ (Nat.zero_add _) countable, none_and_then]

theorem run_steps_add (machine : Machine) {first second : UInt32}
    (fits : first.toNat + second.toNat < UInt32.size) :
    machine.run (.steps (first + second)) =
      (machine.run (.steps first)).andThen (·.run (.steps second)) := by
  simp only [run_steps_eq, Checked.sum32_of_room fits, step_runs_add]

/-- What a run that returned did, told by the plain iteration of the step. -/
structure Iterated (boundary : Boundary) (start : Machine) (progress : Progress)
    (final : Machine) : Prop where
  steps : ∃ costs, Steps start costs final ∧ costs.length = progress.steps.toNat ∧
    totalCost costs = progress.ticks.toNat
  ticks_eq : final.cpu.ticks.toNat = start.cpu.ticks.toNat + progress.ticks.toNat
  least : IsLeast {count | boundary.HoldsAfter start count} progress.steps.toNat

theorem returned_iterated {machine : Machine} {boundary : Boundary} {progress : Progress}
    (returned : (machine.run boundary).answer = .ok progress) :
    Iterated boundary machine progress (machine.run boundary).machine := by
  obtain ⟨costs, countable, rfl, first⟩ := run_until_returned returned
  have short : costs.length < UInt32.size := by
    simp only [UInt32.size] at countable ⊢
    omega
  obtain ⟨counted, ticks⟩ := Progress.none_after short
  refine ⟨⟨costs, first.steps, counted.symm, ticks.symm⟩, ?_, ?_, ?_⟩
  · rw [ticks]
    exact steps_ticks first.steps
  · exact ⟨costs, _, first.steps, counted.symm,
      (reached_iff_holds boundary first.steps short).mp first.stopped⟩
  · rintro count ⟨others, reached, steps, rfl, holds⟩
    rw [counted]
    rcases Nat.lt_or_ge others.length costs.length with shorter | enough
    · have under := first.before others reached steps shorter
      rw [(reached_iff_holds boundary steps (Nat.lt_trans shorter short)).mpr holds] at under
      contradiction
    · exact enough

/-- A run is the iterated step up to the first boundary, and runs by count add up. -/
theorem run_iterates_step (machine : Machine) :
    (∀ boundary progress, (machine.run boundary).answer = .ok progress →
        Iterated boundary machine progress (machine.run boundary).machine) ∧
      ∀ first second : UInt32, first.toNat + second.toNat < UInt32.size →
        machine.run (.steps (first + second)) =
          (machine.run (.steps first)).andThen (·.run (.steps second)) :=
  ⟨fun _ _ returned => returned_iterated returned, fun _ _ fits => run_steps_add machine fits⟩

def beforeHalt : Machine :=
  { ofConfig .standard with board := Board.bare.withTimer.load 0x0100 [Opcode.nop, Opcode.halt] }

theorem halting_iterates_step :
    (beforeHalt.run .halted).answer = .ok ⟨2, 8⟩ ∧
      Iterated .halted beforeHalt ⟨2, 8⟩ (beforeHalt.run .halted).machine ∧
      beforeHalt.run (.steps 3) = (beforeHalt.run (.steps 1)).andThen (·.run (.steps 2)) :=
  ⟨rfl, (run_iterates_step beforeHalt).1 .halted ⟨2, 8⟩ rfl,
    (run_iterates_step beforeHalt).2 1 2 (by decide)⟩

end Machine

end Handheld
