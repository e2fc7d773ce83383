import Handheld.Proofs.Interrupt
import Handheld.Proofs.Timer.Elapse
import Mathlib.Logic.Function.Iterate

/-!
# The advance in closed form

Told period by period, an advance takes whole periods off a prescaler for as long as there is one,
and each of them moves a register on. That comes to a quotient and a remainder. A counter that has
passed 255 goes round the values from the modulo register up to 255, and this round can be as short
as the single value 255. So the whole advance is told by sums, quotients and remainders of unbounded
numbers, whatever the timer holds, and also where a prescaler has no room and the advance faults.
-/

namespace Handheld

set_option autoImplicit false

/-- Takes whole periods off what is held, with one tick for each of them. -/
def takePeriods {σ : Type} (period : UInt32) (tick : σ → σ) (held : UInt32) (state : σ) :
    UInt32 × σ :=
  if _whole : 0 < period ∧ period ≤ held then
    takePeriods period tick (held - period) (tick state)
  else (held, state)
termination_by held.toNat
decreasing_by
  obtain ⟨positive, enough⟩ := _whole
  rw [UInt32.toNat_sub_of_le _ _ enough]
  rw [UInt32.lt_iff_toNat_lt, UInt32.toNat_zero] at positive
  rw [UInt32.le_iff_toNat_le] at enough
  omega

theorem take_periods_eq {σ : Type} {period : UInt32} (positive : 0 < period.toNat) (tick : σ → σ)
    (held : UInt32) (state : σ) :
    takePeriods period tick held state =
      (held % period, tick^[held.toNat / period.toNat] state) := by
  fun_induction takePeriods period tick held state with
  | case1 held state whole induction =>
      have enough : period.toNat ≤ held.toNat := UInt32.le_iff_toNat_le.mp whole.2
      have left := UInt32.toNat_sub_of_le _ _ whole.2
      have rest : (held - period) % period = held % period := by
        apply UInt32.toNat.inj
        rw [UInt32.toNat_mod, UInt32.toNat_mod, left, Nat.mod_eq_sub_mod enough]
      have times : held.toNat / period.toNat = (held - period).toNat / period.toNat + 1 := by
        rw [left, Nat.div_eq_sub_div positive enough]
      rw [induction, rest, times, Function.iterate_succ_apply]
  | case2 held state short =>
      have less : held < period := by
        apply UInt32.not_le.mp
        intro enough
        exact short ⟨UInt32.lt_iff_toNat_lt.mpr positive, enough⟩
      have none : held.toNat / period.toNat = 0 :=
        Nat.div_eq_of_lt (UInt32.lt_iff_toNat_lt.mp less)
      rw [none, Function.iterate_zero, id, UInt32.mod_eq_of_lt less]

namespace Timer

theorem iterate_increment (times : Nat) (value : UInt8) :
    (· + 1)^[times] value = value + UInt8.ofNat times := by
  induction times generalizing value with
  | zero => simp
  | succ times induction =>
      rw [Function.iterate_succ_apply, induction, UInt8.ofNat_add, UInt8.add_assoc,
        UInt8.add_comm 1]
      rfl

/-- One increment of the counter. After 255 it starts again from the modulo and asks for the
interrupt. -/
def countOnce (modulo : UInt8) (state : UInt8 × InterruptBank) : UInt8 × InterruptBank :=
  if state.1 = 255 then (modulo, state.2.request .timer) else (state.1 + 1, state.2)

theorem iterate_count_once (modulo : UInt8) (times : Nat) (value : UInt8) (bank : InterruptBank) :
    (countOnce modulo)^[times] (value, bank) =
      ((countUp modulo times value false).1,
        if 0 < passes modulo times value then bank.request .timer else bank) := by
  induction times generalizing value bank with
  | zero => simp [countUp, passes]
  | succ times induction =>
      rw [Function.iterate_succ_apply, countOnce, countUp, passes]
      by_cases full : value = 255
      · simp only [full, if_true, induction, count_up_value modulo times modulo true,
          Nat.zero_lt_succ]
        -- A request that a later pass repeats was there already.
        rw [bank.request_twice, ite_self]
      · simp only [full, if_false, induction]

variable (timer : Timer)

def advanceByPeriods (bank : InterruptBank) (cycles : UInt32) :
    Attempt (Timer × InterruptBank) Fault Unit :=
  match Checked.add32 timer.dividerCycles cycles with
  | .error fault => ⟨(timer, bank), .error fault⟩
  | .ok held =>
    let (dividerCycles, divider) := takePeriods dividerPeriod (· + 1) held timer.divider
    let divided := { timer with dividerCycles, divider }
    if divided.running then
      match Checked.add32 timer.counterCycles cycles with
      | .error fault => ⟨(divided, bank), .error fault⟩
      | .ok held =>
        let (counterCycles, counter, bank) :=
          takePeriods (period timer.control) (countOnce timer.modulo) held (timer.counter, bank)
        ⟨({ divided with counterCycles, counter }, bank), .ok ()⟩
    else ⟨(divided, bank), .ok ()⟩

theorem advance_divider_by_periods (held : UInt32) :
    takePeriods dividerPeriod (· + 1) held timer.divider =
      (held % dividerPeriod, timer.divider + (held / dividerPeriod).toUInt8) := by
  rw [take_periods_eq (by decide), iterate_increment, ← UInt32.toNat_div]
  rfl

theorem advance_by_periods_eq (bank : InterruptBank) (cycles : UInt32) :
    timer.advanceByPeriods bank cycles = timer.advance bank cycles := by
  have positive := timer.period_cycles_bounds.1
  rw [periodCycles, ← period_eq] at positive
  unfold advanceByPeriods advance advanceDivider advanceCounter
  cases Checked.add32 timer.dividerCycles cycles with
  | error fault => rfl
  | ok held =>
      simp only [advance_divider_by_periods]
      by_cases running : timer.control &&& enableBit != 0
      · simp only [Timer.running, running, if_true]
        cases Checked.add32 timer.counterCycles cycles with
        | error fault => rfl
        | ok held =>
            simp only [take_periods_eq positive, iterate_count_once, ← UInt32.toNat_div,
              count_up_passed, Bool.false_or, decide_eq_true_eq]
      · simp only [Timer.running, running, if_false, Bool.false_eq_true]

theorem next_value {value : UInt8} (notFull : value ≠ 255) :
    (value + 1).toNat = value.toNat + 1 := by
  have bound := value.toNat_lt
  have apart : value.toNat ≠ 255 := fun full => notFull (UInt8.toNat.inj full)
  rw [UInt8.toNat_add, show (1 : UInt8).toNat = 1 from rfl]
  omega

theorem passes_pos_iff (modulo : UInt8) (times : Nat) (value : UInt8) :
    0 < passes modulo times value ↔ 256 ≤ value.toNat + times := by
  induction times generalizing value with
  | zero =>
      have bound := value.toNat_lt
      rw [passes]
      omega
  | succ times induction =>
      rw [passes]
      by_cases full : value = 255
      · subst full
        have last : (255 : UInt8).toNat = 255 := rfl
        rw [if_pos rfl, last]
        omega
      · rw [if_neg full, induction, next_value full]
        omega

/-- Where the counter stands after so many increments. -/
def roundedUp (modulo value : UInt8) (times : Nat) : Nat :=
  if value.toNat + times < 256 then value.toNat + times
  else modulo.toNat + (value.toNat + times - 256) % (256 - modulo.toNat)

/-- From the modulo the counter comes back to the modulo in one round. -/
theorem rounded_up_modulo (modulo : UInt8) (times : Nat) :
    roundedUp modulo modulo times = modulo.toNat + times % (256 - modulo.toNat) := by
  have bound := modulo.toNat_lt
  unfold roundedUp
  by_cases within : modulo.toNat + times < 256
  · rw [if_pos within, Nat.mod_eq_of_lt (by omega)]
  · have round : 256 - modulo.toNat ≤ times := by omega
    have left : modulo.toNat + times - 256 = times - (256 - modulo.toNat) := by omega
    rw [if_neg within, left, ← Nat.mod_eq_sub_mod round]

theorem count_up_rounded (modulo : UInt8) (times : Nat) (value : UInt8) :
    (countUp modulo times value false).1.toNat = roundedUp modulo value times := by
  induction times generalizing value with
  | zero => exact (if_pos value.toNat_lt).symm
  | succ times induction =>
      rw [countUp]
      by_cases full : value = 255
      · subst full
        have past : ¬(255 : UInt8).toNat + (times + 1) < 256 := by
          rw [show (255 : UInt8).toNat = 255 from rfl]
          omega
        have rest : (255 : UInt8).toNat + (times + 1) - 256 = times := by
          rw [show (255 : UInt8).toNat = 255 from rfl]
          omega
        rw [if_pos rfl, count_up_value, induction, rounded_up_modulo, roundedUp, if_neg past, rest]
      · have sum : value.toNat + 1 + times = value.toNat + (times + 1) := by omega
        rw [if_neg full, induction, roundedUp, roundedUp, next_value full, sum]

/-- What an advance comes to. -/
def closedForm (bank : InterruptBank) (cycles : UInt32) :
    Attempt (Timer × InterruptBank) Fault Unit :=
  let dividerHeld := timer.dividerCycles.toNat + cycles.toNat
  let counterHeld := timer.counterCycles.toNat + cycles.toNat
  let divided := { timer with
    dividerCycles := .ofNat (dividerHeld % 64)
    divider := .ofNat ((timer.divider.toNat + dividerHeld / 64) % 256) }
  let period := selectedPeriod timer.control
  let reached := timer.counter.toNat + counterHeld / period
  if 2 ^ 32 ≤ dividerHeld then ⟨(timer, bank), .error .additionOverflow⟩
  else if timer.control &&& 0x04 = 0 then ⟨(divided, bank), .ok ()⟩
  else if 2 ^ 32 ≤ counterHeld then ⟨(divided, bank), .error .additionOverflow⟩
  else
    let counted := { divided with counterCycles := .ofNat (counterHeld % period) }
    if reached < 256 then ⟨({ counted with counter := .ofNat reached }, bank), .ok ()⟩
    else
      let modulo := timer.modulo.toNat
      ⟨({ counted with counter := .ofNat (modulo + (reached - 256) % (256 - modulo)) },
        { bank with flag := bank.flag ||| 0x04 }), .ok ()⟩

theorem closed_form_keeps (bank : InterruptBank) (cycles : UInt32) :
    (timer.closedForm bank cycles).state.1.modulo = timer.modulo ∧
      (timer.closedForm bank cycles).state.1.control = timer.control ∧
      (timer.closedForm bank cycles).state.2.enable = bank.enable := by
  unfold closedForm
  dsimp only
  repeat' split
  all_goals exact ⟨rfl, rfl, rfl⟩

section ClosedForm

variable {timer}

theorem divided_eq (cycles : Nat) :
    timer.divided cycles = { timer with
      dividerCycles := .ofNat ((timer.dividerCycles.toNat + cycles) % 64)
      divider :=
        .ofNat ((timer.divider.toNat + (timer.dividerCycles.toNat + cycles) / 64) % 256) } := by
  have divider : timer.divider + UInt8.ofNat ((timer.dividerCycles.toNat + cycles) / 64) =
      .ofNat ((timer.divider.toNat + (timer.dividerCycles.toNat + cycles) / 64) % 256) := by
    apply UInt8.toNat.inj
    simp
  simp only [divided, elapse, divider]

theorem advance_of_counter_full {bank : InterruptBank} {cycles : UInt32}
    (room : timer.DividerHasRoom cycles.toNat) (running : timer.running = true)
    (full : UInt32.size ≤ timer.counterCycles.toNat + cycles.toNat) :
    timer.advance bank cycles = ⟨(timer.divided cycles.toNat, bank), .error .additionOverflow⟩ := by
  have stuck := advance_counter_without_room (timer.divided cycles.toNat) bank running full
  simp only [advance, advance_divider_of_room timer room, stuck]

theorem elapse_still (still : ¬timer.running = true) (cycles : Nat) :
    timer.elapse cycles = timer.divided cycles := by
  simp only [divided, elapse, increments, if_neg still, countUp]

theorem elapse_running (running : timer.running = true) (cycles : Nat) :
    timer.elapse cycles = { timer.divided cycles with
      counterCycles := .ofNat ((timer.counterCycles.toNat + cycles) % timer.periodCycles)
      counter := .ofNat (roundedUp timer.modulo timer.counter
        ((timer.counterCycles.toNat + cycles) / timer.periodCycles)) } := by
  rw [← count_up_rounded, UInt8.ofNat_toNat]
  simp only [divided, elapse, increments, if_pos running]

theorem overflows_pos_iff (running : timer.running = true) (cycles : Nat) :
    0 < timer.overflows cycles ↔
      256 ≤ timer.counter.toNat + (timer.counterCycles.toNat + cycles) / timer.periodCycles := by
  rw [overflows, passes_pos_iff, increments, if_pos running]

theorem advance_eq_closed_form (bank : InterruptBank) (cycles : UInt32) :
    timer.advance bank cycles = timer.closedForm bank cycles := by
  unfold closedForm
  dsimp only
  by_cases dividerFull : 2 ^ 32 ≤ timer.dividerCycles.toNat + cycles.toNat
  · rw [if_pos dividerFull]
    simp only [advance, advance_divider_without_room timer dividerFull]
  · have dividerRoom : timer.DividerHasRoom cycles.toNat := Nat.lt_of_not_le dividerFull
    rw [if_neg dividerFull]
    by_cases still : timer.control &&& 0x04 = 0
    · have stopped : ¬timer.running = true := by
        rw [running, bne_iff_ne]
        exact not_not_intro still
      have silent : timer.bankAfter bank cycles.toNat = bank := by
        simp only [bankAfter, overflows, increments, if_neg stopped, passes, Nat.lt_irrefl,
          if_false]
      rw [if_pos still, advance_of_room timer bank dividerRoom (absurd · stopped), silent,
        elapse_still stopped, divided_eq]
    · have running : timer.running = true := bne_iff_ne.mpr still
      rw [if_neg still]
      by_cases counterFull : 2 ^ 32 ≤ timer.counterCycles.toNat + cycles.toNat
      · rw [if_pos counterFull, advance_of_counter_full dividerRoom running counterFull,
          divided_eq]
      · have counterRoom : timer.CounterHasRoom cycles.toNat :=
          fun _ => Nat.lt_of_not_le counterFull
        have passed := overflows_pos_iff running cycles.toNat
        rw [if_neg counterFull, advance_of_room timer bank dividerRoom counterRoom,
          elapse_running running, divided_eq, bankAfter, roundedUp]
        unfold periodCycles at passed ⊢
        by_cases within : timer.counter.toNat +
            (timer.counterCycles.toNat + cycles.toNat) / selectedPeriod timer.control < 256
        · rw [if_pos within, if_pos within, if_neg (by omega)]
        · rw [if_neg within, if_neg within, if_pos (by omega)]
          rfl

end ClosedForm

/-- The advance and its telling period by period have the same closed form, and no advance changes
the modulo register, the control register or the interrupt enable register. -/
theorem advance_has_closed_form (timer : Timer) (bank : InterruptBank) (cycles : UInt32) :
    timer.advance bank cycles = timer.closedForm bank cycles ∧
      timer.advanceByPeriods bank cycles = timer.closedForm bank cycles ∧
      (timer.advance bank cycles).state.1.modulo = timer.modulo ∧
      (timer.advance bank cycles).state.1.control = timer.control ∧
      (timer.advance bank cycles).state.2.enable = bank.enable := by
  have closed := timer.advance_eq_closed_form bank cycles
  refine ⟨closed, (timer.advance_by_periods_eq bank cycles).trans closed, ?_⟩
  rw [closed]
  exact timer.closed_form_keeps bank cycles

example : (advance ⟨0, 0, 0, 250, 253, 0x05⟩ .clear 80).state.1.counter = 0xFF := by decide

end Timer

end Handheld
