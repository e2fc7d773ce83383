import Handheld.Proofs.Timer.Reachable

/-!
# The rate of the counter

A running counter goes up once in a period. An advance takes it up no oftener than the periods that
the advance begins, as long as the prescaler holds less than one period. A write to the control
register leaves the prescaler alone, though, so it can select a period that the cycles held make up
several times. These increments are overdue: the next advance makes up for them as well, even if it
is one by no cycles at all.
-/

namespace Handheld.Timer

set_option autoImplicit false

/-- The periods that so many machine cycles begin: the quotient, rounded up. -/
def periodsBegun (timer : Timer) (cycles : Nat) : Nat :=
  (cycles + (timer.periodCycles - 1)) / timer.periodCycles

/-- The whole periods among the cycles that the prescaler holds. -/
def overdue (timer : Timer) : Nat :=
  timer.counterCycles.toNat / timer.periodCycles

theorem selected_period_masked (control : UInt8) :
    selectedPeriod (control &&& controlMask) = selectedPeriod control := by
  have bits : control &&& controlMask &&& 0x03 = control &&& 0x03 := by
    rw [UInt8.and_assoc]
    rfl
  rw [← period_eq, ← period_eq, period, bits]
  rfl

section Increments

variable {timer : Timer}

theorem increments_zero (running : timer.running = true) : timer.increments 0 = timer.overdue := by
  rw [increments, if_pos running]
  rfl

theorem periods_begun_zero : timer.periodsBegun 0 = 0 := by
  have bounds := timer.period_cycles_bounds
  rw [periodsBegun, Nat.div_eq_of_lt (by omega)]

theorem increments_le (running : timer.running = true) (cycles : Nat) :
    timer.increments cycles ≤ timer.overdue + timer.periodsBegun cycles := by
  have positive := timer.period_cycles_bounds.1
  have whole := quotient_of_batches 0 timer.counterCycles.toNat cycles positive
  have rest := Nat.mod_lt timer.counterCycles.toNat positive
  -- Less than one period is held beside the overdue ones.
  have begun : (timer.counterCycles.toNat % timer.periodCycles + cycles) / timer.periodCycles ≤
      timer.periodsBegun cycles := by
    apply Nat.div_le_div_right
    omega
  simp only [Nat.zero_add] at whole
  rw [increments, if_pos running, whole, overdue]
  omega

theorem on_time_iff (running : timer.running = true) :
    timer.overdue = 0 ↔ ∀ cycles, timer.increments cycles ≤ timer.periodsBegun cycles := by
  constructor
  · intro none cycles
    have most := increments_le running cycles
    rwa [none, Nat.zero_add] at most
  · intro bounded
    have most := bounded 0
    rw [increments_zero running, periods_begun_zero] at most
    exact Nat.le_zero.mp most

end Increments

theorem overdue_elapse (timer : Timer) (cycles : Nat) :
    (timer.elapse cycles).overdue = if timer.running then 0 else timer.overdue := by
  have period : (timer.elapse cycles).periodCycles = timer.periodCycles := rfl
  have positive := timer.period_cycles_bounds.1
  rw [overdue, period, counter_cycles_elapse]
  split
  · exact Nat.div_eq_of_lt (Nat.mod_lt _ positive)
  · rfl

theorem overdue_write (timer : Timer) (register : TimerRegister) (value : UInt8) :
    (timer.write register value).overdue =
      if register = .control then timer.counterCycles.toNat / selectedPeriod value
      else timer.overdue := by
  cases register with
  | divider | counter | modulo => rfl
  | control =>
      rw [if_pos rfl, ← selected_period_masked]
      rfl

theorem overdue_of_settled {timer : Timer} (settled : timer.Settled) : timer.overdue ≤ 63 := by
  have held := settled.2
  have least := (selected_period_bounds timer.control).1
  apply Nat.lt_succ_iff.mp
  rw [overdue, Nat.div_lt_iff_lt_mul timer.period_cycles_bounds.1]
  unfold periodCycles
  omega

theorem overdue_after_advance {timer : Timer} {bank : InterruptBank} {cycles : UInt32}
    (running : timer.running = true) (answered : (timer.advance bank cycles).answer = .ok ()) :
    (timer.advance bank cycles).state.1.overdue = 0 := by
  rw [advance_of_answered timer answered, overdue_elapse, if_pos running]

theorem counter_of_fault (timer : Timer) {bank : InterruptBank} {cycles : UInt32} {fault : Fault}
    (stopped : (timer.advance bank cycles).answer = .error fault) :
    (timer.advance bank cycles).state.1.counter = timer.counter ∧
      (timer.advance bank cycles).state.2 = bank := by
  rcases Nat.lt_or_ge (timer.dividerCycles.toNat + cycles.toNat) UInt32.size with room | full
  · cases counted : (timer.divided cycles.toNat).advanceCounter bank cycles with
    | error _ =>
        simp only [advance, advance_divider_of_room timer room, counted]
        exact ⟨rfl, trivial⟩
    | ok reached =>
        simp only [advance, advance_divider_of_room timer room, counted] at stopped
        contradiction
  · simp only [advance, advance_divider_without_room timer full]
    exact ⟨trivial, trivial⟩

/-- The timers of histories in which a write to the control register selects a longer period than
the cycles held at that time. After any other write an advance of the running counter sets it
right. -/
inductive Timely : Timer → Prop where
  | stopped : Timely .stopped
  | advance {timer : Timer} (prior : Timely timer) (bank : InterruptBank) (cycles : UInt32) :
      Timely (timer.advance bank cycles).state.1
  | write {timer : Timer} (prior : Timely timer) {register : TimerRegister} {value : UInt8}
      (longer : register = .control → timer.counterCycles.toNat < selectedPeriod value) :
      Timely (timer.write register value)
  | recovered {timer : Timer} (prior : Reachable timer) (running : timer.running = true)
      {bank : InterruptBank} {cycles : UInt32}
      (answered : (timer.advance bank cycles).answer = .ok ()) :
      Timely (timer.advance bank cycles).state.1

theorem timely_on_time {timer : Timer} (timely : timer.Timely) : timer.overdue = 0 := by
  induction timely with
  | stopped => rfl
  | @advance timer prior bank cycles none =>
      rcases advance_ends timer bank cycles with same | half | whole
      · rw [same]
        exact none
      · rw [half]
        exact none
      · rw [whole, overdue_elapse, none, ite_self]
  | @write timer prior register value longer none =>
      rw [overdue_write]
      split
      next control =>
        exact Nat.div_eq_of_lt (longer control)
      next => exact none
  | recovered prior running answered => exact overdue_after_advance running answered

/-- How a timer counts. -/
structure CountsAtRate (timer : Timer) : Prop where
  /-- An advance takes the counter up `increments` times, and asks for the interrupt if it passes
  255 in doing so. -/
  counted : ∀ bank cycles, (timer.advance bank cycles).answer = .ok () →
    (timer.advance bank cycles).state.1.counter =
        (countUp timer.modulo (timer.increments cycles.toNat) timer.counter false).1 ∧
      (timer.advance bank cycles).state.2 =
        if 0 < timer.overflows cycles.toNat then bank.request .timer else bank
  faulted : ∀ bank cycles fault, (timer.advance bank cycles).answer = .error fault →
    (timer.advance bank cycles).state.1.counter = timer.counter ∧
      (timer.advance bank cycles).state.2 = bank
  rate : timer.running = true →
    ∀ cycles, timer.increments cycles ≤ timer.overdue + timer.periodsBegun cycles
  at_once : timer.running = true → timer.increments 0 = timer.overdue
  few : timer.overdue ≤ 63
  on_time : timer.running = true →
    (timer.overdue = 0 ↔ ∀ cycles, timer.increments cycles ≤ timer.periodsBegun cycles)
  timely : timer.Timely → timer.overdue = 0
  made_up : timer.running = true → ∀ bank cycles, (timer.advance bank cycles).answer = .ok () →
    (timer.advance bank cycles).state.1.overdue = 0
  selected : ∀ value, (timer.write .control value).overdue =
    timer.counterCycles.toNat / selectedPeriod value

/-- Beyond the increments that a change of the period left overdue, a reachable timer counts once
for a period that an advance begins. -/
theorem counter_keeps_rate {timer : Timer} (reachable : timer.Reachable) : timer.CountsAtRate where
  counted := by
    intro bank cycles answered
    rw [advance_of_answered timer answered]
    exact ⟨rfl, rfl⟩
  faulted := fun _ _ _ => counter_of_fault timer
  rate := increments_le
  at_once := increments_zero
  few := overdue_of_settled (reachable_settled reachable)
  on_time := on_time_iff
  timely := timely_on_time
  made_up := fun running _ _ => overdue_after_advance running
  selected := timer.overdue_write .control

def hastened : Timer :=
  (((stopped.write .counter 0xFF).write .control 0x04).advance .clear 4).state.1.write .control 0x05

theorem hastened_keeps_rate :
    hastened.Reachable ∧ hastened.running = true ∧ hastened.overdue = 1 ∧
      hastened.increments 8 ≤ 1 + hastened.periodsBegun 8 := by
  have reachable : hastened.Reachable :=
    (((Reachable.stopped.write _ _).write _ _).advance _ _).write _ _
  have overdue : hastened.overdue = 1 := rfl
  have rate := (counter_keeps_rate reachable).rate rfl 8
  rw [overdue] at rate
  exact ⟨reachable, rfl, overdue, rate⟩

/-- So an advance by no cycles can take the counter up and ask for the interrupt. -/
theorem hastened_counts_at_once :
    hastened.Reachable ∧ hastened.running = true ∧ hastened.periodsBegun 0 = 0 ∧
      hastened.counter = 0xFF ∧ (hastened.advance .clear 0).answer = .ok () ∧
      (hastened.advance .clear 0).state.1.counter = 0x00 ∧
      (hastened.advance .clear 0).state.2.isRequested .timer = true :=
  ⟨(((Reachable.stopped.write _ _).write _ _).advance _ _).write _ _, rfl, rfl, rfl, rfl, rfl, rfl⟩

end Handheld.Timer
