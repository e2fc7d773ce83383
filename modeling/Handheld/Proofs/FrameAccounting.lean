import Handheld.Machine.Run
import Handheld.Proofs.FrameClock
import Handheld.Proofs.Insertion
import Handheld.Proofs.TimerSafety

/-!
# Frame accounting never drifts

A history is any order of the operations that a machine offers, with all frames that were taken
since the last reset. Through every history the frames, taken or not, and the ticks of the frame
under way add up to the tick counter of the processor. The counters have room for what is counted,
and whatever timer is attached is a reachable one.
-/

namespace Handheld

set_option autoImplicit false

namespace Machine

/-- The tick counter and the frame count have room for the step. Nothing is counted where the
instruction is not carried out. -/
def HasRoom (machine : Machine) : Prop :=
  (machine.cpu.execute machine.board).2.answer = .ok () →
    machine.cpu.ticks.toNat + machine.cpu.stepTicks machine.board < UInt64.size ∧
      machine.clock.frames.toNat +
        (machine.clock.ticks.toNat + machine.cpu.stepTicks machine.board) / 70224 < UInt32.size

/-- The machines from which a run takes its steps. -/
inductive StepsFrom (stop : Machine → Progress → Bool) :
    Nat → Machine → Progress → Machine → Prop where
  | now {room : Nat} {machine : Machine} {progress : Progress}
      (under : stop machine progress = false) : StepsFrom stop room machine progress machine
  | later {room : Nat} {machine other : Machine} {progress : Progress} {ticks : UInt32}
      (under : stop machine progress = false) (completed : machine.step.ticks = .ok ticks)
      (rest : StepsFrom stop room machine.step.machine
        ⟨progress.steps + 1, progress.ticks + ticks.toUInt64⟩ other) :
      StepsFrom stop (room + 1) machine progress other

def RunHasRoom (machine : Machine) (boundary : Boundary) : Prop :=
  ∀ visited,
    StepsFrom (boundary.reached machine.clock.frames) (UInt32.size - 1) machine .none visited →
      visited.HasRoom

/-- What can have been done with a machine, and the frames taken since its last reset. Steps and
runs may have stopped at a fault. -/
inductive History : Machine → Nat → Prop where
  | made (config : Config) : History (.ofConfig config) 0
  | loaded {image : Cartridge.Image} {tracing : Bool} {machine : Machine} {notices : List Notice}
      (accepted : ofImage image tracing = .ok (machine, notices)) : History machine 0
  | step {machine : Machine} {taken : Nat} (earlier : History machine taken)
      (room : machine.HasRoom) : History machine.step.machine taken
  | run {machine : Machine} {taken : Nat} (earlier : History machine taken) (boundary : Boundary)
      (room : machine.RunHasRoom boundary) : History (machine.run boundary).machine taken
  | takeFrames {machine : Machine} {taken : Nat} (earlier : History machine taken) :
      History machine.takeFrames.2 (taken + machine.takeFrames.1.toNat)
  | keyDown {machine : Machine} {taken : Nat} (earlier : History machine taken) (button : Button) :
      History (machine.keyDown button) taken
  | keyUp {machine : Machine} {taken : Nat} (earlier : History machine taken) (button : Button) :
      History (machine.keyUp button) taken
  | reset {machine : Machine} {taken : Nat} (earlier : History machine taken) :
      History machine.reset 0
  | inserted {machine : Machine} {taken : Nat} (earlier : History machine taken)
      {image : Cartridge.Image} {notices : List Notice}
      (accepted : (machine.insert image).answer = .ok notices) :
      History (machine.insert image).state 0
  | refused {machine : Machine} {taken : Nat} (earlier : History machine taken)
      {image : Cartridge.Image} {rejection : Cartridge.Rejection}
      (rejected : (machine.insert image).answer = .error rejection) :
      History (machine.insert image).state taken
  | editBoard {machine : Machine} {taken : Nat} (earlier : History machine taken) {board : Board}
      (reachable : board.TimerReachable) : History { machine with board } taken
  | editRegisters {machine : Machine} {taken : Nat} (earlier : History machine taken)
      (registers : Registers) :
      History { machine with cpu := { machine.cpu with registers } } taken
  | editTable {machine : Machine} {taken : Nat} (earlier : History machine taken)
      {table : OpcodeTable Board} (keeps : table.KeepsTimers) :
      History { machine with cpu := { machine.cpu with table } } taken

/-- The invariant of all histories: the account, and what a step needs to keep it. -/
structure Balanced (machine : Machine) (taken : Nat) : Prop where
  account : 70224 * (taken + machine.clock.frames.toNat) + machine.clock.ticks.toNat =
    machine.cpu.ticks.toNat
  within : machine.clock.ticks.toNat < 70224
  timer : machine.board.TimerReachable
  handlers : machine.cpu.table.KeepsTimers

theorem made_balanced (config : Config) : (ofConfig config).Balanced 0 := by
  constructor
  · rfl
  · exact Nat.zero_lt_succ 70223
  · intro timer attached
    rw [← Option.some.inj attached]
    exact .stopped
  · exact OpcodeTable.keeps_timers_of_only_control OpcodeTable.control_only_control

section Operations

variable {machine : Machine} {taken : Nat}

theorem reset_balanced (balanced : machine.Balanced taken) : machine.reset.Balanced 0 := by
  constructor
  · rfl
  · exact Nat.zero_lt_succ 70223
  · intro timer attached
    obtain ⟨_, _, rfl⟩ := Option.map_eq_some_iff.mp attached
    exact .stopped
  · rw [reset_table]
    exact balanced.handlers

theorem board_balanced (balanced : machine.Balanced taken) {board : Board}
    (reachable : board.TimerReachable) : Balanced { machine with board } taken where
  account := balanced.account
  within := balanced.within
  timer := reachable
  handlers := balanced.handlers

theorem take_frames_balanced (balanced : machine.Balanced taken) :
    machine.takeFrames.2.Balanced (taken + machine.takeFrames.1.toNat) where
  account := balanced.account
  within := balanced.within
  timer := balanced.timer
  handlers := balanced.handlers

/-- A step keeps the account, whether it comes to its end or stops at an unassigned opcode. -/
theorem step_balanced (balanced : machine.Balanced taken) (room : machine.HasRoom) :
    machine.step.machine.Balanced taken := by
  obtain ⟨cpu, board, clock⟩ := machine
  cases answered : (cpu.execute board).2.answer with
  | error fault =>
      obtain ⟨sameCpu, sameBus, stopped⟩ := cpu.step_of_fault board answered
      have reached : (step ⟨cpu, board, clock⟩).machine =
          ⟨{ cpu with registers := cpu.registers.advancePc }, board, clock⟩ := by
        simp only [step, stopped, sameCpu, sameBus]
      rw [reached]
      exact {
        account := balanced.account
        within := balanced.within
        timer := balanced.timer
        handlers := balanced.handlers }
  | ok _ =>
      obtain ⟨ticksRoom, framesRoom⟩ := room answered
      obtain ⟨cost, completed, law⟩ :=
        Cpu.step_of_reachable balanced.handlers balanced.timer answered ticksRoom
      have short : cost.toNat < 70224 := by
        have cycles := cpu.step_cycles_lt board
        rw [law.cost_eq, Cpu.stepTicks]
        exact Nat.lt_of_lt_of_le ((Nat.mul_lt_mul_left (by decide)).mpr cycles) (by decide)
      rw [← law.cost_eq] at framesRoom
      obtain ⟨_, within, counted⟩ := FrameClock.advance_of_room balanced.within short framesRoom
      have reached : (step ⟨cpu, board, clock⟩).machine =
          ⟨(cpu.step board).cpu, (cpu.step board).bus, (clock.advance cost).state⟩ := by
        simp only [step, completed]
      rw [reached]
      constructor
      · have account := balanced.account
        have ticks := law.ticks_eq
        dsimp only at account ticks counted ⊢
        omega
      · exact within
      · exact law.timer_reachable balanced.handlers balanced.timer
      · rw [law.table_eq]
        exact balanced.handlers

/-- What the steps that a run takes keep, the run keeps. -/
theorem run_until_keeps (kept : Machine → Prop) {stop : Machine → Progress → Bool} {room : Nat}
    {progress : Progress} {notices : Array Notice}
    (keeps : ∀ visited, StepsFrom stop room machine progress visited → kept visited →
      kept visited.step.machine)
    (start : kept machine) : kept (runUntil stop room machine progress notices).machine := by
  fun_induction runUntil stop room machine progress notices with
  | case1 => exact start
  | case2 room machine progress notices running next reported told fault stepped =>
      have after := keeps machine (.now (eq_false_of_ne_true running)) start
      rw [stepped] at after
      exact after
  | case3 machine progress notices running next reported told ticks stepped =>
      have after := keeps machine (.now (eq_false_of_ne_true running)) start
      rw [stepped] at after
      exact after
  | case4 machine progress notices running next reported told ticks room total stepped induction =>
      have under := eq_false_of_ne_true running
      have after := keeps machine (.now under) start
      have completed : machine.step.ticks = .ok ticks := by rw [stepped]
      rw [stepped] at after
      apply induction _ after
      intro visited rest
      apply keeps visited (.later under completed _)
      rw [stepped]
      exact rest

theorem run_until_balanced {stop : Machine → Progress → Bool} {room : Nat} {progress : Progress}
    {notices : Array Notice} (balanced : machine.Balanced taken)
    (spacious : ∀ visited, StepsFrom stop room machine progress visited → visited.HasRoom) :
    (runUntil stop room machine progress notices).machine.Balanced taken := by
  -- Each step of the run finds room, and the account that the step before it left.
  apply run_until_keeps (fun machine => machine.Balanced taken) _ balanced
  intro visited reached kept
  exact step_balanced kept (spacious visited reached)

theorem insert_balanced (balanced : machine.Balanced taken) (image : Cartridge.Image) :
    (∀ notices, (machine.insert image).answer = .ok notices →
        (machine.insert image).state.Balanced 0) ∧
      ∀ rejection, (machine.insert image).answer = .error rejection →
        (machine.insert image).state.Balanced taken := by
  have mapped : (machine.mapped image).Balanced taken := board_balanced balanced balanced.timer
  rcases machine.insert_cases image with accepted | ⟨rejection, refused⟩
  · rw [accepted]
    exact ⟨fun _ _ => reset_balanced mapped, fun _ impossible => by contradiction⟩
  · rw [refused]
    exact ⟨fun _ impossible => by contradiction, fun _ _ => balanced⟩

theorem loaded_balanced {image : Cartridge.Image} {tracing : Bool} {notices : List Notice}
    (accepted : ofImage image tracing = .ok (machine, notices)) : machine.Balanced 0 := by
  have fresh := made_balanced (configFor image tracing)
  have inserted := (insert_balanced fresh image).1
  rw [insert_of_made accepted] at inserted
  exact inserted notices rfl

theorem history_balanced (history : History machine taken) : machine.Balanced taken := by
  induction history with
  | made config => exact made_balanced config
  | loaded accepted => exact loaded_balanced accepted
  | step earlier room balanced => exact step_balanced balanced room
  | run earlier boundary room balanced => exact run_until_balanced balanced room
  | takeFrames earlier balanced => exact take_frames_balanced balanced
  | keyDown earlier button balanced => exact board_balanced balanced balanced.timer
  | keyUp earlier button balanced => exact board_balanced balanced balanced.timer
  | reset earlier balanced => exact reset_balanced balanced
  | inserted earlier accepted balanced => exact (insert_balanced balanced _).1 _ accepted
  | refused earlier rejected balanced => exact (insert_balanced balanced _).2 _ rejected
  | editBoard earlier reachable balanced => exact board_balanced balanced reachable
  | editRegisters earlier registers balanced =>
      exact ⟨balanced.account, balanced.within, balanced.timer, balanced.handlers⟩
  | editTable earlier keeps balanced =>
      exact ⟨balanced.account, balanced.within, balanced.timer, keeps⟩

/-- The frames of a history and the ticks of the frame under way are the ticks of the processor. -/
theorem frames_account_for_ticks (history : History machine taken) :
    70224 * (taken + machine.clock.frames.toNat) + machine.clock.ticks.toNat =
        machine.cpu.ticks.toNat ∧
      machine.clock.ticks.toNat < 70224 := by
  have balanced := history_balanced history
  exact ⟨balanced.account, balanced.within⟩

/-- There is room for long: the tick counter is wide, and a step ends at most one frame. -/
theorem has_room_early (ticks : machine.cpu.ticks.toNat < 2 ^ 63)
    (frames : machine.clock.frames.toNat < 2 ^ 31) (within : machine.clock.ticks.toNat < 70224) :
    machine.HasRoom := by
  have cycles := machine.cpu.step_cycles_lt machine.board
  intro _
  simp only [Cpu.stepTicks, UInt64.size, UInt32.size]
  omega

end Operations

def afterTwoSteps : Machine := ((ofConfig .standard).run (.steps 2)).machine

def atUnassigned : Machine :=
  { afterTwoSteps with board := afterTwoSteps.board.load afterTwoSteps.cpu.registers.pc [0xD3] }

theorem two_steps_have_room : (ofConfig .standard).RunHasRoom (.steps 2) := by
  intro visited visits
  cases visits with
  | now under => exact has_room_early (by decide) (by decide) (by decide)
  | later under completed rest =>
      cases rest with
      | now under =>
          have ticks : (ofConfig .standard).step.machine.cpu.ticks = 4 := rfl
          have clock : (ofConfig .standard).step.machine.clock = ⟨0, 4⟩ := rfl
          apply has_room_early
          · rw [ticks]
            decide
          · rw [clock]
            decide
          · rw [clock]
            decide
      | later under completed rest =>
          cases rest with
          | now under => exact Bool.noConfusion (show true = false from under)
          | later under completed rest => exact Bool.noConfusion (show true = false from under)

theorem unassigned_accounted :
    atUnassigned.step.ticks = .error (.unassignedOpcode 0xD3 afterTwoSteps.cpu.registers.pc) ∧
      History atUnassigned.step.machine 0 ∧
      70224 * (0 + atUnassigned.step.machine.clock.frames.toNat) +
          atUnassigned.step.machine.clock.ticks.toNat =
        atUnassigned.step.machine.cpu.ticks.toNat := by
  have two : History afterTwoSteps 0 := (History.made .standard).run (.steps 2) two_steps_have_room
  have timer : atUnassigned.board.TimerReachable :=
    Board.load_timer_reachable (history_balanced two).timer _ _
  have refused : (atUnassigned.cpu.execute atUnassigned.board).2.answer =
      .error (.unassignedOpcode 0xD3 afterTwoSteps.cpu.registers.pc) := rfl
  have room : atUnassigned.HasRoom := by
    intro answered
    rw [refused] at answered
    cases answered
  have stopped : History atUnassigned.step.machine 0 := (two.editBoard timer).step room
  exact ⟨rfl, stopped, (frames_account_for_ticks stopped).1⟩

end Machine

end Handheld
