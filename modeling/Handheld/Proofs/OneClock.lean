import Handheld.Proofs.System

/-!
# One clock

The tick counter, the costs of the steps and the timer go on together. Each step tells the timer its
machine cycles in one batch, the cost of the instruction and of the delivery together, and batches
add up, so after any run the timer is where one advance by the cycles of all steps would have taken
it. The table may hold any handlers, and what a handler does to its board is a list of calls. None
of them may write to the timer, and none may advance it: a handler that lets cycles of its own pass
sets the timer ahead of the clock.
-/

namespace Handheld

set_option autoImplicit false

def Occurrence.ticks : Occurrence → Nat
  | step _ cost => cost.toNat
  | host _ => 0

def totalTicks (log : List Occurrence) : Nat :=
  (log.map Occurrence.ticks).sum

theorem total_ticks_append (earlier : List Occurrence) (last : Occurrence) :
    totalTicks (earlier ++ [last]) = totalTicks earlier + last.ticks := by
  simp [totalTicks]

def IsTimerAddress (address : UInt16) : Prop :=
  0xFF04 ≤ address ∧ address ≤ 0xFF07

def HostAction.SparesTimer : HostAction → Prop
  | write address _ => ¬IsTimerAddress address
  | attachTimer _ | detachTimer | reset => False
  | keyDown _ | keyUp _ | request _ | load _ _ => True

/-- A call by which an instruction changes its board. -/
inductive BoardCall where
  | act (action : HostAction)
  | setBank (bank : InterruptBank)
  | insert (image : Cartridge.Image)
  | advanceTimer (cycles : UInt32)

namespace BoardCall

def perform (board : Board) : BoardCall → Board
  | act action => action.perform board
  | setBank bank => { board with bank }
  | insert image => (board.insert image).state
  | advanceTimer cycles => (board.advanceTimer cycles).state

def performAll (board : Board) (calls : List BoardCall) : Board :=
  calls.foldl perform board

/-- The call writes to no address of the timer, and leaves the timer attached as it is. -/
def WritesElsewhere : BoardCall → Prop
  | act action => action.SparesTimer
  | setBank _ | insert _ | advanceTimer _ => True

/-- Nor does the call let time pass for the timer. -/
def SparesTimer (call : BoardCall) : Prop :=
  call.WritesElsewhere ∧ ∀ cycles, call ≠ advanceTimer cycles

/-- Allowed calls lead from the one board to the other. -/
def Reaches (Allowed : BoardCall → Prop) (start reached : Board) : Prop :=
  ∃ calls : List BoardCall, (∀ call ∈ calls, Allowed call) ∧ reached = performAll start calls

theorem Reaches.refl {Allowed : BoardCall → Prop} (start : Board) : Reaches Allowed start start :=
  ⟨[], fun _ => nofun, rfl⟩

theorem Reaches.call {Allowed : BoardCall → Prop} {start reached : Board} {call : BoardCall}
    (before : Reaches Allowed start reached) (allowed : Allowed call) :
    Reaches Allowed start (call.perform reached) := by
  obtain ⟨calls, all, rfl⟩ := before
  refine ⟨calls ++ [call], ?_, ?_⟩
  · rw [List.forall_mem_append, List.forall_mem_singleton]
    exact ⟨all, allowed⟩
  · rw [performAll, performAll, List.foldl_append, List.foldl_cons, List.foldl_nil]

end BoardCall

/-- The instruction of a step changes the board by such calls only, and no push of its delivery
writes to the timer. -/
structure System.Calls (before : System) (Allowed : BoardCall → Prop) : Prop where
  instruction : BoardCall.Reaches Allowed before.board (before.cpu.executed before.board).bus
  delivery : (before.cpu.serviced before.board).1 ≠ none →
    ∀ address ∈ (before.cpu.executed before.board).registers.pushSlots, ¬IsTimerAddress address

def Occurrence.Calls (Allowed : BoardCall → Prop) : Occurrence → Prop
  | step before _ => before.Calls Allowed
  | host action => action.SparesTimer

theorem host_timer {action : HostAction} (spares : action.SparesTimer) (board : Board) :
    (action.perform board).timer = board.timer := by
  cases action with
  | write address value => exact Board.write_timer spares value
  | attachTimer timer => exact absurd spares id
  | detachTimer => exact absurd spares id
  | reset => exact absurd spares id
  | _ => rfl

theorem Board.insert_timer (board : Board) (image : Cartridge.Image) :
    (board.insert image).state.timer = board.timer := by
  unfold insert
  cases Cartridge.rejection? image <;> rfl

namespace BoardCall

theorem perform_timer {call : BoardCall} (spares : call.SparesTimer) (board : Board) :
    (call.perform board).timer = board.timer := by
  cases call with
  | act action => exact host_timer spares.1 board
  | setBank bank => rfl
  | insert image => exact board.insert_timer image
  | advanceTimer cycles => exact absurd rfl (spares.2 cycles)

theorem perform_all_timer {calls : List BoardCall} (spare : ∀ call ∈ calls, call.SparesTimer)
    (board : Board) : (performAll board calls).timer = board.timer := by
  induction calls generalizing board with
  | nil => rfl
  | cons call rest induction =>
      rw [List.forall_mem_cons] at spare
      exact (induction spare.2 _).trans (perform_timer spare.1 board)

end BoardCall

namespace System

theorem spares_timer_of_pushes {before : System} (only : before.cpu.table.OnlyControl)
    (apart : ∀ address, before.cpu.PushesTo before.board address → ¬IsTimerAddress address) :
    before.Calls BoardCall.SparesTimer := by
  constructor
  · apply before.cpu.executed_keeps before.board (BoardCall.Reaches _ before.board) only ?_
      (.refl _)
    intro address pushed board value reached
    have spares : BoardCall.SparesTimer (.act (.write address value)) :=
      ⟨apart address pushed, fun _ => nofun⟩
    exact reached.call spares
  · intro delivers address slot
    exact apart address (.inr ⟨delivers, slot⟩)

theorem Calls.instruction_timer {before : System} (spares : before.Calls BoardCall.SparesTimer) :
    (before.cpu.executed before.board).bus.timer = before.board.timer := by
  obtain ⟨calls, spare, reached⟩ := spares.instruction
  rw [reached]
  exact BoardCall.perform_all_timer spare before.board

theorem serviced_timer {before : System} (spares : before.Calls BoardCall.SparesTimer) :
    (before.cpu.serviced before.board).2.bus.timer = before.board.timer := by
  apply before.cpu.serviced_keeps before.board (fun board => board.timer = _) _
    (fun _ => spares.instruction_timer) spares.instruction_timer
  intro delivers address slot board value same
  exact (Board.write_timer (spares.delivery delivers address slot) value).trans same

theorem next_timer {before : System} {cost : UInt32} (completed : before.Completes cost)
    (spares : before.Calls BoardCall.SparesTimer) :
    before.next.board.timer = before.board.timer.map (·.elapse (cost.toNat / 4)) := by
  have law := Cpu.step_completed _ _ completed
  have cycles : cost.toNat / 4 = (before.cpu.stepCycles before.board).toNat := by
    rw [law.cost_eq, Cpu.stepTicks, Nat.mul_div_cancel_left _ (by decide)]
  rw [next_board completed, cycles, ← serviced_timer spares]
  rfl

section Runs

variable {start final : System} {log : List Occurrence}

theorem run_ticks (run : Run start log final) :
    final.cpu.ticks.toNat = start.cpu.ticks.toNat + totalTicks log := by
  induction run with
  | start => rfl
  | step earlier completed induction =>
      have law := Cpu.step_completed _ _ completed
      rw [total_ticks_append, ← Nat.add_assoc, ← induction]
      exact law.ticks_eq
  | host earlier action induction =>
      rw [total_ticks_append]
      exact induction

theorem run_costs (run : Run start log final) {before : System} {cost : UInt32}
    (member : .step before cost ∈ log) : before.Completes cost := by
  obtain ⟨earlier, later, split⟩ := List.append_of_mem member
  exact (run_up_to run split).2

theorem cost_multiple {before : System} {cost : UInt32} (completed : before.Completes cost) :
    4 ∣ cost.toNat := by
  have law := Cpu.step_completed _ _ completed
  rw [law.cost_eq]
  exact Nat.dvd_mul_right 4 _

theorem total_ticks_multiple (run : Run start log final) : 4 ∣ totalTicks log := by
  induction run with
  | start => exact Nat.dvd_zero 4
  | step earlier completed induction =>
      rw [total_ticks_append]
      exact Nat.dvd_add induction (cost_multiple completed)
  | host earlier action induction =>
      rw [total_ticks_append]
      exact induction

theorem run_timer {timer : Timer} (run : Run start log final)
    (attached : start.board.timer = some timer)
    (spared : ∀ occurrence ∈ log, occurrence.Calls BoardCall.SparesTimer) :
    ((∀ before cost, .step before cost ∉ log) ∧ totalTicks log = 0 ∧
        final.board.timer = some timer) ∨
      final.board.timer = some (timer.elapse (totalTicks log / 4)) := by
  induction run with
  | start => exact .inl ⟨fun _ _ => List.not_mem_nil, rfl, attached⟩
  | step earlier completed induction =>
      rw [List.forall_mem_append, List.forall_mem_singleton] at spared
      obtain ⟨multiple, total⟩ := total_ticks_multiple earlier
      obtain ⟨batch, cost⟩ := cost_multiple completed
      -- The first step brings the prescalers below their periods; the batches of all others add up.
      right
      rw [next_timer completed spared.2, total_ticks_append, Occurrence.ticks]
      rcases induction spared.1 with ⟨_, none, same⟩ | waited
      · rw [same, none, Nat.zero_add]
        rfl
      · rw [waited, total, cost, ← Nat.mul_add]
        simp only [Option.map_some, Timer.elapse_add,
          Nat.mul_div_cancel_left _ (show 0 < 4 by decide)]
  | host earlier action induction =>
      rw [List.forall_mem_append, List.forall_mem_singleton] at spared
      have same := host_timer spared.2
      rw [total_ticks_append, Occurrence.ticks, Nat.add_zero]
      rcases induction spared.1 with ⟨unstepped, none, kept⟩ | waited
      · refine .inl ⟨?_, none, (same _).trans kept⟩
        intro before cost member
        rw [List.mem_append, List.mem_singleton] at member
        rcases member with early | last
        · exact unstepped before cost early
        · contradiction
      · exact .inr ((same _).trans waited)

/-- One advance by so many machine cycles does not fault and leads from the first timer to the one
on the board. -/
def ReachedByAdvance (timer : Timer) (cycles : Nat) (board : Board) : Prop :=
  ∀ bank, (timer.advance bank (.ofNat cycles)).answer = .ok () ∧
    board.timer = some (timer.advance bank (.ofNat cycles)).state.1

theorem reached_by_advance {timer : Timer} {cycles : Nat} {board : Board}
    (dividerRoom : timer.dividerCycles.toNat + cycles < UInt32.size)
    (counterRoom : timer.counterCycles.toNat + cycles < UInt32.size)
    (waited : board.timer = some (timer.elapse cycles)) : ReachedByAdvance timer cycles board := by
  intro bank
  have value : (UInt32.ofNat cycles).toNat = cycles := by
    rw [UInt32.toNat_ofNat']
    exact Nat.mod_eq_of_lt (Nat.lt_of_le_of_lt (Nat.le_add_left _ _) dividerRoom)
  have divides : timer.DividerHasRoom (UInt32.ofNat cycles).toNat := by
    rwa [Timer.DividerHasRoom, value]
  have counts : timer.CounterHasRoom (UInt32.ofNat cycles).toNat := by
    rw [Timer.CounterHasRoom, value]
    exact fun _ => counterRoom
  rw [Timer.advance_of_room timer bank divides counts, value]
  exact ⟨rfl, waited⟩

/-- Ticks, costs and timer go on together, the timer in a run that makes only such calls. -/
structure OneClock (Allowed : BoardCall → Prop) (start : System) (log : List Occurrence)
    (final : System) : Prop where
  ticks_eq : final.cpu.ticks.toNat = start.cpu.ticks.toNat + totalTicks log
  cost_multiple : ∀ before cost, .step before cost ∈ log → 4 ∣ cost.toNat
  timer_eq : ∀ timer, start.board.timer = some timer →
    (∃ before cost, .step before cost ∈ log) →
    (∀ occurrence ∈ log, occurrence.Calls Allowed) →
    timer.dividerCycles.toNat + totalTicks log / 4 < UInt32.size →
    timer.counterCycles.toNat + totalTicks log / 4 < UInt32.size →
    ReachedByAdvance timer (totalTicks log / 4) final.board

theorem run_one_clock (run : Run start log final) :
    OneClock BoardCall.SparesTimer start log final := by
  constructor
  · exact run_ticks run
  · intro before cost member
    exact cost_multiple (run_costs run member)
  · intro timer attached stepped spared dividerRoom counterRoom
    apply reached_by_advance dividerRoom counterRoom
    rcases run_timer run attached spared with ⟨unstepped, _, _⟩ | waited
    · obtain ⟨before, cost, member⟩ := stepped
      exact absurd member (unstepped before cost)
    · exact waited

end Runs

/-- A no-operation each step, and a timer whose prescalers hold more than their periods. -/
def unsettled : System where
  cpu :=
    { registers := Registers.zero.setSp 0xFFFE
      ticks := 100
      table := .control
      config := .standard }
  board := Board.bare.attachTimer ⟨1000, 50, 7, 254, 9, 0x05⟩

theorem spares_timer_at_stack_top {before : System} (only : before.cpu.table.OnlyControl)
    (top : before.cpu.registers.sp = 0xFFFE)
    (kept : (before.cpu.executed before.board).registers.sp = 0xFFFE) :
    before.Calls BoardCall.SparesTimer := by
  apply spares_timer_of_pushes only
  have slots : ∀ address ∈ [(0xFFFE : UInt16) - 1, 0xFFFE - 2], ¬IsTimerAddress address := by
    intro address slot
    rw [List.mem_cons, List.mem_singleton] at slot
    unfold IsTimerAddress
    rcases slot with rfl | rfl
    · decide
    · decide
  rintro address (⟨_, _, slot⟩ | ⟨_, slot⟩)
  · rw [Registers.pushSlots, top] at slot
    exact slots address slot
  · rw [Registers.pushSlots, kept] at slot
    exact slots address slot

def unsettledPressed : System := unsettled.next.perform (.keyDown .a)

def unsettledLog : List Occurrence :=
  [.step unsettled 4, .host (.keyDown .a), .step unsettledPressed 4]

theorem unsettled_one_clock :
    unsettled.Run unsettledLog unsettledPressed.next ∧
      (∀ occurrence ∈ unsettledLog, occurrence.Calls BoardCall.SparesTimer) ∧
      ReachedByAdvance ⟨1000, 50, 7, 254, 9, 0x05⟩ 2 unsettledPressed.next.board := by
  have only : unsettled.cpu.table.OnlyControl := OpcodeTable.control_only_control
  have first : unsettled.Run [.step unsettled 4] unsettled.next :=
    Run.step .start (show unsettled.Completes 4 from rfl)
  have run : unsettled.Run unsettledLog unsettledPressed.next :=
    (first.host (.keyDown .a)).step (show unsettledPressed.Completes 4 from rfl)
  have spared : ∀ occurrence ∈ unsettledLog, occurrence.Calls BoardCall.SparesTimer := by
    intro occurrence member
    rw [unsettledLog, List.mem_cons, List.mem_cons, List.mem_singleton] at member
    rcases member with rfl | rfl | rfl
    · exact spares_timer_at_stack_top only rfl rfl
    · trivial
    · exact spares_timer_at_stack_top only rfl rfl
  have room : ∀ cycles : UInt32, cycles.toNat < 10000 → cycles.toNat + 2 < UInt32.size := by
    intro cycles short
    simp only [UInt32.size]
    omega
  refine ⟨run, spared, ?_⟩
  exact (run_one_clock run).timer_eq _ rfl ⟨unsettled, 4, List.mem_cons_self⟩ spared
    (room 1000 (by decide)) (room 50 (by decide))

/-- Lets 64 machine cycles of its own pass before it leaves the cost of a no-operation. -/
def haste : Handler Board := fun context =>
  Instruction.charge .nop { context with bus := (Bus.advanceTimer context.bus 64).state }

def hasty : System where
  cpu :=
    { registers := Registers.zero
      ticks := 0
      table := OpcodeTable.control.set Opcode.nop haste
      config := .standard }
  board := Board.bare.withTimer

/-- A timer that an instruction advances runs ahead, though nothing was written to it. -/
theorem hasty_runs_ahead :
    hasty.Run [.step hasty 4] hasty.next ∧
      (∀ occurrence ∈ [Occurrence.step hasty 4], occurrence.Calls BoardCall.WritesElsewhere) ∧
      hasty.board.timer = some .stopped ∧
      hasty.next.board.timer = some { Timer.stopped with divider := 1, dividerCycles := 1 } ∧
      (∀ bank, (Timer.stopped.advance bank 1).state.1 = { Timer.stopped with dividerCycles := 1 }) ∧
      ¬OneClock BoardCall.WritesElsewhere hasty [.step hasty 4] hasty.next := by
  have ahead : hasty.next.board.timer =
      some { Timer.stopped with divider := 1, dividerCycles := 1 } := by decide +kernel
  have calls : ∀ occurrence ∈ [Occurrence.step hasty 4],
      occurrence.Calls BoardCall.WritesElsewhere := by
    intro occurrence member
    rw [List.mem_singleton.mp member]
    constructor
    · have elsewhere : BoardCall.WritesElsewhere (.advanceTimer 64) := trivial
      exact (BoardCall.Reaches.refl hasty.board).call elsewhere
    · intro delivers
      exact absurd rfl delivers
  refine ⟨Run.step .start (show hasty.Completes 4 from rfl), calls, rfl, ahead, fun _ => rfl, ?_⟩
  intro clock
  have reached := clock.timer_eq .stopped rfl ⟨hasty, 4, List.mem_cons_self⟩ calls
    (by decide) (by decide)
  have same := (reached .clear).2
  rw [ahead] at same
  exact absurd (congrArg Timer.divider (Option.some.inj same)) (by decide)

end System

end Handheld
