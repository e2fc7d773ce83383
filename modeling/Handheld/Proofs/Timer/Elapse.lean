import Handheld.Proofs.Checked
import Handheld.Timer

/-!
# Time on the timer

`elapse` is the timer after a number of machine cycles, in unbounded arithmetic. Waiting twice is
the same as waiting once for the sum, whatever the prescalers hold at the start, so it does not
matter into which batches the cycles are cut. An advance that does not fault is `elapse`, and it
asks for the timer interrupt exactly when the counter passed 255 on the way.
-/

namespace Handheld.Timer

set_option autoImplicit false

/-- How often counting `times` up from `value` passes 255. -/
def passes (modulo : UInt8) : Nat → UInt8 → Nat
  | 0, _ => 0
  | times + 1, value =>
      if value = 255 then passes modulo times modulo + 1 else passes modulo times (value + 1)

theorem count_up_passed (modulo : UInt8) (times : Nat) (value : UInt8) (passed : Bool) :
    (countUp modulo times value passed).2 = (passed || decide (0 < passes modulo times value)) := by
  induction times generalizing value passed with
  | zero => simp [countUp, passes]
  | succ times induction =>
      unfold countUp passes
      split <;> simp [induction]

theorem count_up_value (modulo : UInt8) (times : Nat) (value : UInt8) (passed : Bool) :
    (countUp modulo times value passed).1 = (countUp modulo times value false).1 := by
  induction times generalizing value passed with
  | zero => rfl
  | succ times induction =>
      unfold countUp
      split
      · exact (induction modulo true).trans (induction modulo true).symm
      · exact induction (value + 1) passed

/-- The machine cycles from one increment of the counter to the next, as the two low bits of the
control register select them. -/
def selectedPeriod (control : UInt8) : Nat :=
  match control.toNat % 4 with
  | 0 => 256
  | 1 => 4
  | 2 => 16
  | _ => 64

theorem selected_period_bounds (control : UInt8) :
    4 ≤ selectedPeriod control ∧ selectedPeriod control ≤ 256 := by
  unfold selectedPeriod
  split <;> decide

theorem period_eq (control : UInt8) : (period control).toNat = selectedPeriod control := by
  have bits : control &&& 0x03 = UInt8.ofNat (control.toNat % 4) := by
    apply UInt8.toNat.inj
    rw [UInt8.toNat_and, UInt8.toNat_ofNat', Nat.mod_eq_of_lt (by omega)]
    exact Nat.and_two_pow_sub_one_eq_mod _ 2
  have inside := Nat.mod_lt control.toNat (show 0 < 4 by decide)
  unfold period selectedPeriod
  rw [bits]
  generalize control.toNat % 4 = low at inside ⊢
  match low, inside with
  | 0, _ | 1, _ | 2, _ | 3, _ => rfl

variable (timer : Timer)

def periodCycles : Nat := selectedPeriod timer.control

theorem period_cycles_bounds : 0 < timer.periodCycles ∧ timer.periodCycles ≤ 256 :=
  have bounds := selected_period_bounds timer.control
  ⟨Nat.lt_of_lt_of_le (by decide) bounds.1, bounds.2⟩

def increments (cycles : Nat) : Nat :=
  if timer.running then (timer.counterCycles.toNat + cycles) / timer.periodCycles else 0

def overflows (cycles : Nat) : Nat :=
  passes timer.modulo (timer.increments cycles) timer.counter

/-- The timer after a number of machine cycles. -/
def elapse (cycles : Nat) : Timer :=
  { timer with
    dividerCycles := UInt32.ofNat ((timer.dividerCycles.toNat + cycles) % 64)
    divider := timer.divider + UInt8.ofNat ((timer.dividerCycles.toNat + cycles) / 64)
    counterCycles :=
      if timer.running then
        UInt32.ofNat ((timer.counterCycles.toNat + cycles) % timer.periodCycles)
      else timer.counterCycles
    counter := (countUp timer.modulo (timer.increments cycles) timer.counter false).1 }

theorem divider_cycles_elapse (cycles : Nat) :
    (timer.elapse cycles).dividerCycles.toNat = (timer.dividerCycles.toNat + cycles) % 64 := by
  simp only [elapse, UInt32.toNat_ofNat']
  omega

theorem counter_cycles_elapse (cycles : Nat) :
    (timer.elapse cycles).counterCycles.toNat =
      if timer.running then (timer.counterCycles.toNat + cycles) % timer.periodCycles
      else timer.counterCycles.toNat := by
  have bounds := timer.period_cycles_bounds
  have small := Nat.mod_lt (timer.counterCycles.toNat + cycles) bounds.1
  simp only [elapse]
  split
  · rw [UInt32.toNat_ofNat', Nat.mod_eq_of_lt (by omega)]
  · rfl

theorem quotient_of_batches (start first second : Nat) {period : Nat} (positive : 0 < period) :
    (start + (first + second)) / period =
      (start + first) / period + ((start + first) % period + second) / period := by
  have split := Nat.mod_add_div (start + first) period
  have whole : start + (first + second) =
      (start + first) % period + second + period * ((start + first) / period) := by omega
  rw [whole, Nat.add_mul_div_left _ _ positive, Nat.add_comm]

theorem increments_add (first second : Nat) :
    timer.increments (first + second) =
      timer.increments first + (timer.elapse first).increments second := by
  have running : (timer.elapse first).running = timer.running := rfl
  have period : (timer.elapse first).periodCycles = timer.periodCycles := rfl
  -- The remainder that the first wait leaves is where the second one goes on.
  simp only [increments, running, period, counter_cycles_elapse]
  split
  · exact quotient_of_batches _ _ _ timer.period_cycles_bounds.1
  · rfl

theorem elapse_add (first second : Nat) :
    (timer.elapse first).elapse second = timer.elapse (first + second) := by
  apply Timer.ext
  · apply UInt32.toNat.inj
    simp only [divider_cycles_elapse]
    omega
  · apply UInt32.toNat.inj
    have running : (timer.elapse first).running = timer.running := rfl
    have period : (timer.elapse first).periodCycles = timer.periodCycles := rfl
    simp only [counter_cycles_elapse, running, period]
    split
    · rw [Nat.mod_add_mod, Nat.add_assoc]
    · rfl
  · have quotient := quotient_of_batches timer.dividerCycles.toNat first second
      (show 0 < 64 by decide)
    change timer.divider + _ + _ = timer.divider + _
    rw [divider_cycles_elapse, UInt8.add_assoc, ← UInt8.ofNat_add, quotient]
  · change (countUp timer.modulo ((timer.elapse first).increments second)
        (countUp timer.modulo (timer.increments first) timer.counter false).1 false).1 =
      (countUp timer.modulo (timer.increments (first + second)) timer.counter false).1
    rw [increments_add, countUp_add, count_up_value _ _ _ (countUp _ _ _ _).2]
  · rfl
  · rfl

def bankAfter (bank : InterruptBank) (cycles : Nat) : InterruptBank :=
  if 0 < timer.overflows cycles then bank.request .timer else bank

def divided (cycles : Nat) : Timer :=
  { timer with
    dividerCycles := (timer.elapse cycles).dividerCycles
    divider := (timer.elapse cycles).divider }

def DividerHasRoom (cycles : Nat) : Prop :=
  timer.dividerCycles.toNat + cycles < UInt32.size

def CounterHasRoom (cycles : Nat) : Prop :=
  timer.running = true → timer.counterCycles.toNat + cycles < UInt32.size

theorem advance_divider_of_room {cycles : UInt32} (room : timer.DividerHasRoom cycles.toNat) :
    timer.advanceDivider cycles = .ok (timer.divided cycles.toNat) := by
  have total := Checked.sum32_of_room room
  have kept : (timer.dividerCycles + cycles) % dividerPeriod =
      (timer.elapse cycles.toNat).dividerCycles := by
    apply UInt32.toNat.inj
    rw [divider_cycles_elapse, UInt32.toNat_mod, total]
    rfl
  have gained : ((timer.dividerCycles + cycles) / dividerPeriod).toUInt8 =
      UInt8.ofNat ((timer.dividerCycles.toNat + cycles.toNat) / 64) := by
    apply UInt8.toNat.inj
    rw [UInt32.toNat_toUInt8, UInt32.toNat_div, total, UInt8.toNat_ofNat']
    rfl
  simp only [advanceDivider, Checked.add32_of_room room, kept, gained]
  rfl

theorem advance_counter_of_room (bank : InterruptBank) {cycles : UInt32}
    (room : timer.CounterHasRoom cycles.toNat) :
    timer.advanceCounter bank cycles =
      .ok ({ timer with
          counterCycles := (timer.elapse cycles.toNat).counterCycles
          counter := (timer.elapse cycles.toNat).counter },
        timer.bankAfter bank cycles.toNat) := by
  by_cases running : timer.running = true
  · have total := Checked.sum32_of_room (room running)
    have kept : (timer.counterCycles + cycles) % period timer.control =
        (timer.elapse cycles.toNat).counterCycles := by
      apply UInt32.toNat.inj
      rw [counter_cycles_elapse, if_pos running, UInt32.toNat_mod, total, period_eq, periodCycles]
    have gained : ((timer.counterCycles + cycles) / period timer.control).toNat =
        timer.increments cycles.toNat := by
      rw [increments, if_pos running, UInt32.toNat_div, total, period_eq, periodCycles]
    simp only [advanceCounter, running, if_true, Checked.add32_of_room (room running), kept,
      gained, count_up_passed, Bool.false_or, decide_eq_true_eq]
    rfl
  · have still : timer.increments cycles.toNat = 0 := by rw [increments, if_neg running]
    have kept : (timer.elapse cycles.toNat).counterCycles = timer.counterCycles := by
      rw [elapse, if_neg running]
    have held : (timer.elapse cycles.toNat).counter = timer.counter := by
      simp only [elapse, still, countUp]
    have silent : timer.bankAfter bank cycles.toNat = bank := by
      simp only [bankAfter, overflows, still, passes, Nat.lt_irrefl, if_false]
    rw [advanceCounter, if_neg running, kept, held, silent]

theorem advance_of_room (bank : InterruptBank) {cycles : UInt32}
    (dividerRoom : timer.DividerHasRoom cycles.toNat)
    (counterRoom : timer.CounterHasRoom cycles.toNat) :
    timer.advance bank cycles =
      ⟨(timer.elapse cycles.toNat, timer.bankAfter bank cycles.toNat), .ok ()⟩ := by
  have counted := advance_counter_of_room (timer.divided cycles.toNat) bank counterRoom
  simp only [advance, advance_divider_of_room timer dividerRoom, counted]
  rfl

theorem advance_divider_without_room {cycles : UInt32}
    (full : UInt32.size ≤ timer.dividerCycles.toNat + cycles.toNat) :
    timer.advanceDivider cycles = .error .additionOverflow := by
  simp only [advanceDivider, Checked.add32_without_room full]

theorem advance_counter_without_room (bank : InterruptBank) {cycles : UInt32}
    (running : timer.running = true)
    (full : UInt32.size ≤ timer.counterCycles.toNat + cycles.toNat) :
    timer.advanceCounter bank cycles = .error .additionOverflow := by
  simp only [advanceCounter, running, if_true, Checked.add32_without_room full]

theorem advance_of_answered {bank : InterruptBank} {cycles : UInt32}
    (answered : (timer.advance bank cycles).answer = .ok ()) :
    (timer.advance bank cycles).state =
      (timer.elapse cycles.toNat, timer.bankAfter bank cycles.toNat) := by
  have dividerRoom : timer.DividerHasRoom cycles.toNat := by
    rcases Nat.lt_or_ge (timer.dividerCycles.toNat + cycles.toNat) UInt32.size with room | full
    · exact room
    · simp [advance, advance_divider_without_room timer full] at answered
  have counterRoom : timer.CounterHasRoom cycles.toNat := by
    intro running
    rcases Nat.lt_or_ge (timer.counterCycles.toNat + cycles.toNat) UInt32.size with room | full
    · exact room
    · have stuck := advance_counter_without_room (timer.divided cycles.toNat) bank running full
      simp [advance, advance_divider_of_room timer dividerRoom, stuck] at answered
  rw [advance_of_room timer bank dividerRoom counterRoom]

end Handheld.Timer
