import Handheld.Proofs.Timer.Elapse

/-!
# Timers that a program can meet

A reachable timer comes from a stopped one by advances and register writes, in any order. A write to
the control register can leave the counter with more cycles than its new period has, but never with
more than the longest period has. So a reachable timer has room for every step.
-/

namespace Handheld.Timer

set_option autoImplicit false

/-- The timers that a stopped one becomes by advances, also faulting ones, and register writes. -/
inductive Reachable : Timer → Prop where
  | stopped : Reachable .stopped
  | advance {timer : Timer} (prior : Reachable timer) (bank : InterruptBank) (cycles : UInt32) :
      Reachable (timer.advance bank cycles).state.1
  | write {timer : Timer} (prior : Reachable timer) (register : TimerRegister) (value : UInt8) :
      Reachable (timer.write register value)

def Settled (timer : Timer) : Prop :=
  timer.dividerCycles.toNat < 64 ∧ timer.counterCycles.toNat < 256

theorem stopped_settled : stopped.Settled :=
  ⟨by decide, by decide⟩

theorem elapse_settled {timer : Timer} (settled : timer.Settled) (cycles : Nat) :
    (timer.elapse cycles).Settled := by
  have bounds := timer.period_cycles_bounds
  have small := Nat.mod_lt (timer.counterCycles.toNat + cycles) bounds.1
  have counterBound := settled.2
  refine ⟨?_, ?_⟩
  · rw [divider_cycles_elapse]
    exact Nat.mod_lt _ (by decide)
  · rw [counter_cycles_elapse]
    split <;> omega

theorem divided_settled {timer : Timer} (settled : timer.Settled) (cycles : Nat) :
    (timer.divided cycles).Settled :=
  ⟨(elapse_settled settled cycles).1, settled.2⟩

theorem advance_ends (timer : Timer) (bank : InterruptBank) (cycles : UInt32) :
    (timer.advance bank cycles).state.1 = timer ∨
      (timer.advance bank cycles).state.1 = timer.divided cycles.toNat ∨
      (timer.advance bank cycles).state.1 = timer.elapse cycles.toNat := by
  rcases Nat.lt_or_ge (timer.dividerCycles.toNat + cycles.toNat) UInt32.size with room | full
  · cases counted : (timer.divided cycles.toNat).advanceCounter bank cycles with
    | error fault =>
        right; left
        simp only [advance, advance_divider_of_room timer room, counted]
    | ok reached =>
        right; right
        rw [advance_of_answered]
        simp only [advance, advance_divider_of_room timer room, counted]
  · left
    simp only [advance, advance_divider_without_room timer full]

theorem advance_settled {timer : Timer} (settled : timer.Settled) (bank : InterruptBank)
    (cycles : UInt32) : (timer.advance bank cycles).state.1.Settled := by
  rcases advance_ends timer bank cycles with same | half | whole
  · rw [same]
    exact settled
  · rw [half]
    exact divided_settled settled _
  · rw [whole]
    exact elapse_settled settled _

theorem write_settled {timer : Timer} (settled : timer.Settled) (register : TimerRegister)
    (value : UInt8) : (timer.write register value).Settled := by
  cases register with
  | divider => exact ⟨Nat.zero_lt_succ 63, settled.2⟩
  | counter => exact settled
  | modulo => exact settled
  | control => exact settled

theorem reachable_settled {timer : Timer} (reachable : timer.Reachable) : timer.Settled := by
  induction reachable with
  | stopped => exact stopped_settled
  | advance prior bank cycles induction => exact advance_settled induction bank cycles
  | write prior register value induction => exact write_settled induction register value

theorem advance_of_settled {timer : Timer} (settled : timer.Settled) (bank : InterruptBank)
    {cycles : UInt32} (short : cycles.toNat < 65536) :
    timer.advance bank cycles =
      ⟨(timer.elapse cycles.toNat, timer.bankAfter bank cycles.toNat), .ok ()⟩ := by
  have dividerBound := settled.1
  have counterBound := settled.2
  apply advance_of_room
  · simp only [DividerHasRoom, UInt32.size]
    omega
  · intro _
    simp only [UInt32.size]
    omega

end Handheld.Timer
