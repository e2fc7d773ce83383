import Handheld.Proofs.CalmStep
import Handheld.Proofs.System

/-!
# Idling

A halted processor with nothing to deliver lets one machine cycle pass in a step, and does nothing
else: it fetches nothing, so the step goes the same way whatever the memory and the key pad hold,
and only the timer can change the board. With the master switch off there is never anything to
deliver. So the halt state lasts through all that a host can do to the board, and the tick counter
is all that can end it.
-/

namespace Handheld

set_option autoImplicit false

namespace Board

variable (board : Board)

theorem flag_of_elapse (cycles : Nat) :
    board.bank.flag &&& (board.elapse cycles).bank.flag = board.bank.flag := by
  rw [elapse]
  dsimp only
  split
  · exact board.bank.flag_of_request .timer
  · exact UInt8.and_self

theorem enable_of_elapse (cycles : Nat) :
    (board.elapse cycles).bank.enable = board.bank.enable := by
  rw [elapse]
  dsimp only
  split <;> rfl

theorem advance_timer_with (memory : Memory) (joypad : Joypad) (cycles : UInt32) :
    advanceTimer { board with memory, joypad } cycles =
      ⟨{ (board.advanceTimer cycles).state with memory, joypad },
        (board.advanceTimer cycles).answer⟩ := by
  obtain ⟨_, bank, timer, _⟩ := board
  cases timer with
  | none => rfl
  | some timer => rfl

end Board

namespace Cpu

variable {cpu : Cpu Board} {board : Board}

theorem executed_of_halted (halted : cpu.registers.halted = true) (board : Board) :
    cpu.executed board = ⟨cpu.registers.setCost 1, board⟩ := by
  rw [executed, execute_of_halted halted]

theorem idled_of_halted (halted : cpu.registers.halted = true) (board : Board) :
    (cpu.execute board).1 = .idled cpu.registers.pc := by
  simp only [execute, halted, if_true]

/-- The processor idles and there is nothing to deliver. -/
structure Idle (cpu : Cpu Board) (board : Board) : Prop where
  halted : cpu.registers.halted = true
  quiet : cpu.registers.ime = false ∨ board.bank.pending = 0
  reachable : board.TimerReachable

theorem serviced_of_idle (idle : cpu.Idle board) :
    cpu.serviced board = (none, ⟨cpu.registers.setCost 0, board⟩) := by
  have context := executed_of_halted idle.halted board
  have cleared := cpu.registers.setCost_setCost 1 0
  rcases cpu.serviced_cases board with ⟨source, ime, found, _⟩ | ⟨_, served⟩
  · rw [context] at ime found
    rcases idle.quiet with off | none
    · exact absurd (off.symm.trans ime) Bool.false_ne_true
    · rw [Board.bus_bank, none] at found
      contradiction
  · rw [served, context, cleared]

theorem step_cycles_of_idle (idle : cpu.Idle board) : cpu.stepCycles board = 1 := by
  rw [stepCycles, executed_of_halted idle.halted board, serviced_of_idle idle, Registers.cost_setCost,
    Registers.cost_setCost]
  rfl

theorem step_ticks_of_idle (idle : cpu.Idle board) : cpu.stepTicks board = 4 := by
  rw [stepTicks, step_cycles_of_idle idle]
  rfl

theorem step_of_idle (idle : cpu.Idle board) :
    cpu.step board =
      cpu.retire ⟨cpu.registers.setCost 0, board⟩ [] 1 := by
  have answered : (cpu.execute board).2.answer = .ok () := answered_of_handled (.inl idle.halted)
  rw [cpu.step_of_answered board answered, serviced_of_idle idle, step_cycles_of_idle idle,
    Registers.setCost_setCost]
  rfl

/-- All that an idle step did. -/
structure Idled (cpu : Cpu Board) (board : Board) : Prop where
  completed : (cpu.step board).ticks = .ok 4
  registers_eq : (cpu.step board).cpu.registers = cpu.registers.setCost 0
  ticks_eq : (cpu.step board).cpu.ticks.toNat = cpu.ticks.toNat + 4
  table_eq : (cpu.step board).cpu.table = cpu.table
  events_eq : cpu.events board =
    [.idled cpu.registers.pc, .retired 4 (cpu.step board).cpu.ticks]
  notices_eq : (cpu.step board).notices = []
  bus_eq : (cpu.step board).bus = board.elapse 1
  reachable : (cpu.step board).bus.TimerReachable

theorem idled_or_runs_over (idle : cpu.Idle board) : cpu.Idled board ∨ cpu.RunsOver board 4 := by
  have answered : (cpu.execute board).2.answer = .ok () := answered_of_handled (.inl idle.halted)
  have served := serviced_of_idle idle
  have cycles := step_cycles_of_idle idle
  have ticks : cpu.stepTicks board = (4 : UInt32).toNat := step_ticks_of_idle idle
  have advanced : (board.advanceTimer 1).answer = .ok () :=
    Board.advance_timer_of_reachable idle.reachable (by decide)
  have passed := Board.advance_timer_of_answered advanced
  have reachable := Board.timer_reachable_advance idle.reachable 1
  have told : (Bus.advanceTimer (cpu.serviced board).2.bus (cpu.stepCycles board)).answer =
      .ok () := by
    rw [served, cycles]
    exact advanced
  rcases completed_or_runs_over answered ticks told with ⟨completed, law⟩ | overrun
  · have bus := law.bus_eq
    rw [served, cycles, Board.bus_advanceTimer] at bus
    refine .inl ?_
    constructor
    · exact completed
    · rw [law.registers_eq, served, Registers.setCost_setCost]
    · exact law.ticks_eq
    · exact law.table_eq
    · rw [law.events_eq, idled_of_halted idle.halted, served]
      rfl
    · rw [law.notices_eq, served]
      rfl
    · rw [bus, passed]
      rfl
    · rw [bus]
      exact reachable
  · exact .inr overrun

theorem idle_step (idle : cpu.Idle board) (room : cpu.ticks.toNat + 4 < UInt64.size) :
    cpu.Idled board := by
  rcases idled_or_runs_over idle with idled | overrun
  · exact idled
  · exact absurd room (Nat.not_lt.mpr overrun.full)

/-- What the memory and the key pad hold makes no difference to an idle step. -/
theorem idle_step_with (idle : cpu.Idle board) (memory : Memory) (joypad : Joypad) :
    cpu.step { board with memory, joypad } =
      { cpu.step board with bus := { (cpu.step board).bus with memory, joypad } } := by
  have other : cpu.Idle { board with memory, joypad } := ⟨idle.halted, idle.quiet, idle.reachable⟩
  have passed := board.advance_timer_with memory joypad 1
  rw [step_of_idle other, step_of_idle idle]
  simp only [retire]
  cases tally cpu.ticks 1 with
  | error fault => rfl
  | ok counted =>
      simp only [Board.bus_advanceTimer, passed]

end Cpu

def HostAction.AttachesReachable : HostAction → Prop
  | attachTimer timer => timer.Reachable
  | keyDown _ | keyUp _ | request _ | write _ _ | load _ _ | detachTimer | reset => True

theorem HostAction.perform_timer_reachable {action : HostAction}
    (attaches : action.AttachesReachable) {board : Board} (reachable : board.TimerReachable) :
    (action.perform board).TimerReachable := by
  cases action with
  | keyDown | keyUp | request | load => exact reachable
  | write address value => exact Board.write_timer_reachable reachable address value
  | attachTimer timer =>
      intro attached same
      rw [← Option.some.inj same]
      exact attaches
  | detachTimer =>
      intro attached same
      contradiction
  | reset =>
      intro attached same
      obtain ⟨_, _, rfl⟩ := Option.map_eq_some_iff.mp same
      exact .stopped

/-- What comes next, a step of the processor or an action of the host. -/
inductive Turn where
  | step
  | host (action : HostAction)

namespace Turn

def isStep : Turn → Bool
  | step => true
  | host _ => false

def AttachesReachable : Turn → Prop
  | step => True
  | host action => action.AttachesReachable

end Turn

def stepCount (schedule : List Turn) : Nat :=
  schedule.countP Turn.isStep

theorem step_count_cons (turn : Turn) (rest : List Turn) :
    stepCount (turn :: rest) = stepCount rest + if turn.isStep then 1 else 0 :=
  List.countP_cons

namespace System

def take (system : System) : Turn → System
  | .step => system.next
  | .host action => system.perform action

def takeAll (system : System) (schedule : List Turn) : System :=
  schedule.foldl take system

/-- Halted, with the master switch off. -/
structure Asleep (system : System) : Prop where
  halted : system.cpu.registers.halted = true
  ime : system.cpu.registers.ime = false
  reachable : system.board.TimerReachable

/-- The step from here comes to its end and lets one machine cycle pass. Neither the memory nor the
key pad have a part in it. -/
structure SleepsOn (before : System) : Prop where
  completes : before.Completes 4
  registers_eq : before.next.cpu.registers = before.cpu.registers.setCost 0
  ticks_eq : before.next.cpu.ticks.toNat = before.cpu.ticks.toNat + 4
  events_eq : before.cpu.events before.board =
    [.idled before.cpu.registers.pc, .retired 4 before.next.cpu.ticks]
  memory_eq : before.next.board.memory = before.board.memory
  joypad_eq : before.next.board.joypad = before.board.joypad
  enable_eq : before.next.board.bank.enable = before.board.bank.enable
  flag_kept : before.board.bank.flag &&& before.next.board.bank.flag = before.board.bank.flag
  unread : ∀ memory joypad, before.cpu.step { before.board with memory, joypad } =
    { before.cpu.step before.board with bus := { before.next.board with memory, joypad } }

section Sleep

variable {system : System} {schedule : List Turn}

theorem Asleep.idle (asleep : system.Asleep) : system.cpu.Idle system.board :=
  ⟨asleep.halted, .inl asleep.ime, asleep.reachable⟩

theorem Asleep.sleepsOn (asleep : system.Asleep)
    (room : system.cpu.ticks.toNat + 4 < UInt64.size) : system.SleepsOn := by
  have step := Cpu.idle_step asleep.idle room
  have board : system.next.board = system.board.elapse 1 := step.bus_eq
  constructor
  · exact step.completed
  · exact step.registers_eq
  · exact step.ticks_eq
  · exact step.events_eq
  · rw [board, Board.elapse]
  · rw [board, Board.elapse]
  · rw [board, Board.enable_of_elapse]
  · rw [board, Board.flag_of_elapse]
  · intro memory joypad
    exact Cpu.idle_step_with asleep.idle memory joypad

theorem Asleep.next (asleep : system.Asleep) (room : system.cpu.ticks.toNat + 4 < UInt64.size) :
    system.next.Asleep := by
  have step := Cpu.idle_step asleep.idle room
  have registers : system.next.cpu.registers = system.cpu.registers.setCost 0 := step.registers_eq
  constructor
  · rw [registers, Registers.halted_setCost, asleep.halted]
  · rw [registers, Registers.ime_setCost, asleep.ime]
  · exact step.reachable

theorem Asleep.perform (asleep : system.Asleep) {action : HostAction}
    (attaches : action.AttachesReachable) : (system.perform action).Asleep :=
  ⟨asleep.halted, asleep.ime, HostAction.perform_timer_reachable attaches asleep.reachable⟩

structure StillAsleep (start final : System) (steps : Nat) : Prop where
  asleep : final.Asleep
  registers_eq : final.cpu.registers.setCost 0 = start.cpu.registers.setCost 0
  ticks_eq : final.cpu.ticks.toNat = start.cpu.ticks.toNat + 4 * steps

theorem still_asleep (asleep : system.Asleep)
    (attaches : ∀ turn ∈ schedule, turn.AttachesReachable)
    (room : system.cpu.ticks.toNat + 4 * stepCount schedule < UInt64.size) :
    StillAsleep system (system.takeAll schedule) (stepCount schedule) := by
  induction schedule generalizing system with
  | nil => exact ⟨asleep, rfl, rfl⟩
  | cons turn rest induction =>
      rw [List.forall_mem_cons] at attaches
      rw [step_count_cons] at room ⊢
      cases turn with
      | step =>
          simp only [Turn.isStep, if_true] at room ⊢
          have sleeps := asleep.sleepsOn (by omega)
          have ticks := sleeps.ticks_eq
          have later := induction (asleep.next (by omega)) attaches.2 (by omega)
          constructor
          · exact later.asleep
          · rw [takeAll, List.foldl_cons, ← takeAll, take, later.registers_eq, sleeps.registers_eq,
              Registers.setCost_setCost]
          · have sum := later.ticks_eq
            rw [takeAll, List.foldl_cons, ← takeAll, take]
            omega
      | host action =>
          simp only [Turn.isStep, Bool.false_eq_true, if_false, Nat.add_zero] at room ⊢
          have later := induction (asleep.perform attaches.1) attaches.2 room
          exact ⟨later.asleep, later.registers_eq, later.ticks_eq⟩

/-- What a schedule comes to, and each step in it. -/
structure SleepsThrough (start : System) (schedule : List Turn) : Prop where
  registers_eq : (start.takeAll schedule).cpu.registers.setCost 0 = start.cpu.registers.setCost 0
  ticks_eq : (start.takeAll schedule).cpu.ticks.toNat =
    start.cpu.ticks.toNat + 4 * stepCount schedule
  steps : ∀ earlier later, schedule = earlier ++ .step :: later →
    (start.takeAll earlier).SleepsOn

/-- Whatever the host does in between, no step ends the halt state, and all of them come to their
end while the tick counter has room. The opcode table has no part in it. -/
theorem halt_absorbs {start : System} (asleep : start.Asleep) {schedule : List Turn}
    (attaches : ∀ turn ∈ schedule, turn.AttachesReachable)
    (room : start.cpu.ticks.toNat + 4 * stepCount schedule < UInt64.size) :
    start.SleepsThrough schedule := by
  have still := still_asleep asleep attaches room
  refine ⟨still.registers_eq, still.ticks_eq, ?_⟩
  rintro earlier later rfl
  rw [List.forall_mem_append] at attaches
  have steps : stepCount (earlier ++ .step :: later) =
      stepCount earlier + (stepCount later + 1) := by
    rw [stepCount, List.countP_append, ← stepCount, ← stepCount, step_count_cons]
    rfl
  have upTo := still_asleep asleep attaches.1 (by omega)
  have ticks := upTo.ticks_eq
  exact upTo.asleep.sleepsOn (by omega)

end Sleep

def slumbering : System where
  cpu :=
    { registers := (Registers.zero.setPc 0xC000).setHalted true
      ticks := 96
      table := .empty
      config := .standard }
  board := Board.bare.attachTimer ((Timer.stopped.write .counter 0xFF).write .control 0x05)

/-- The timer asks for service in the fourth step, and a request waits from the first turn on. -/
def slumberingSchedule : List Turn :=
  [.host (.request .vblank), .step, .host (.write 0xFFFF 0x1F), .step, .step, .step,
   .host (.keyDown .a), .host .reset, .step]

theorem slumbering_sleeps_through :
    slumbering.Asleep ∧ (∀ turn ∈ slumberingSchedule, turn.AttachesReachable) ∧
      (slumbering.takeAll slumberingSchedule).cpu.ticks.toNat = 116 ∧
      (slumbering.takeAll (slumberingSchedule.take 8)).SleepsOn := by
  have asleep : slumbering.Asleep := by
    refine ⟨rfl, rfl, ?_⟩
    intro timer attached
    rw [← Option.some.inj attached]
    exact (Timer.Reachable.stopped.write .counter 0xFF).write .control 0x05
  have attaches : ∀ turn ∈ slumberingSchedule, turn.AttachesReachable := by
    intro turn member
    simp only [slumberingSchedule, List.mem_cons, List.not_mem_nil, or_false] at member
    rcases member with rfl | rfl | rfl | rfl | rfl | rfl | rfl | rfl | rfl <;> trivial
  have law := halt_absorbs asleep attaches (by decide)
  exact ⟨asleep, attaches, law.ticks_eq, law.steps (slumberingSchedule.take 8) [] rfl⟩

end System

end Handheld
