import Handheld.Proofs.Interrupt
import Handheld.Proofs.Timer.Elapse

/-!
# Batches of machine cycles

The timer is told its machine cycles in batches. Whatever it holds at the start, and however a wait
is cut, the batches lead to the same timer and the same interrupt registers as one advance by all
the cycles, as long as the prescalers have room for these. So the timer counts as if it were told
every single cycle. The empty list of batches is left out: an advance by no cycles still takes off
the whole periods that a prescaler holds.
-/

namespace Handheld.Timer

set_option autoImplicit false

/-- Lets machine cycles pass batch by batch; a fault ends the wait. -/
def advanceBatches : Timer → InterruptBank → List UInt32 →
    Attempt (Timer × InterruptBank) Fault Unit
  | timer, bank, [] => ⟨(timer, bank), .ok ()⟩
  | timer, bank, cycles :: rest =>
    match timer.advance bank cycles with
    | ⟨reached, .error fault⟩ => ⟨reached, .error fault⟩
    | ⟨(timer, bank), .ok ()⟩ => advanceBatches timer bank rest

def totalCycles (batches : List UInt32) : Nat :=
  (batches.map UInt32.toNat).sum

theorem total_cycles_cons (cycles : UInt32) (rest : List UInt32) :
    totalCycles (cycles :: rest) = cycles.toNat + totalCycles rest := by
  simp [totalCycles]

theorem total_cycles_ones (count : Nat) : totalCycles (List.replicate count 1) = count := by
  simp [totalCycles]

theorem passes_add (modulo : UInt8) (first second : Nat) (value : UInt8) :
    passes modulo (first + second) value =
      passes modulo first value + passes modulo second (countUp modulo first value false).1 := by
  induction first generalizing value with
  | zero => simp [passes, countUp]
  | succ first induction =>
      rw [Nat.succ_add, passes, passes, countUp]
      split
      · rw [induction, count_up_value _ _ _ true]
        omega
      · exact induction (value + 1)

section Wait

variable (timer : Timer)

theorem overflows_add (first second : Nat) :
    timer.overflows (first + second) =
      timer.overflows first + (timer.elapse first).overflows second := by
  rw [overflows, increments_add, passes_add]
  rfl

theorem bank_after_add (bank : InterruptBank) (first second : Nat) :
    (timer.elapse first).bankAfter (timer.bankAfter bank first) second =
      timer.bankAfter bank (first + second) := by
  have total := timer.overflows_add first second
  simp only [bankAfter]
  by_cases early : 0 < timer.overflows first
  · rw [if_pos early, if_pos (show 0 < timer.overflows (first + second) by omega)]
    split
    · exact bank.request_twice .timer
    · rfl
  · have late : timer.overflows (first + second) = (timer.elapse first).overflows second := by
      omega
    rw [if_neg early, late]

end Wait

section Room

variable {timer : Timer} {first second : Nat}

theorem divider_room_first (room : timer.DividerHasRoom (first + second)) :
    timer.DividerHasRoom first := by
  unfold DividerHasRoom at room ⊢
  omega

theorem counter_room_first (room : timer.CounterHasRoom (first + second)) :
    timer.CounterHasRoom first := by
  intro running
  have bound := room running
  omega

/-- The prescalers hold no more after a wait than they held together with the cycles of it. -/
theorem divider_room_rest (room : timer.DividerHasRoom (first + second)) :
    (timer.elapse first).DividerHasRoom second := by
  have kept := Nat.mod_le (timer.dividerCycles.toNat + first) 64
  unfold DividerHasRoom at room ⊢
  rw [divider_cycles_elapse]
  omega

theorem counter_room_rest (room : timer.CounterHasRoom (first + second)) :
    (timer.elapse first).CounterHasRoom second := by
  intro still
  have running : timer.running = true := still
  have bound := room running
  have kept := Nat.mod_le (timer.counterCycles.toNat + first) timer.periodCycles
  rw [counter_cycles_elapse, if_pos running]
  omega

end Room

theorem advance_batches_of_room (timer : Timer) (bank : InterruptBank) (cycles : UInt32)
    (rest : List UInt32) (dividerRoom : timer.DividerHasRoom (totalCycles (cycles :: rest)))
    (counterRoom : timer.CounterHasRoom (totalCycles (cycles :: rest))) :
    timer.advanceBatches bank (cycles :: rest) =
      ⟨(timer.elapse (totalCycles (cycles :: rest)),
        timer.bankAfter bank (totalCycles (cycles :: rest))), .ok ()⟩ := by
  induction rest generalizing timer bank cycles with
  | nil =>
      rw [total_cycles_cons] at dividerRoom counterRoom ⊢
      simp only [advanceBatches, advance_of_room timer bank dividerRoom counterRoom]
      rfl
  | cons next rest induction =>
      rw [total_cycles_cons] at dividerRoom counterRoom
      have advanced := advance_of_room timer bank (divider_room_first dividerRoom)
        (counter_room_first counterRoom)
      have later := induction (timer.elapse cycles.toNat) (timer.bankAfter bank cycles.toNat) next
        (divider_room_rest dividerRoom) (counter_room_rest counterRoom)
      rw [elapse_add, bank_after_add, ← total_cycles_cons] at later
      rw [advanceBatches, advanced]
      exact later

theorem advance_batches_eq_advance (timer : Timer) (bank : InterruptBank) {batches : List UInt32}
    {cycles : UInt32} (told : batches ≠ []) (whole : totalCycles batches = cycles.toNat)
    (dividerRoom : timer.DividerHasRoom cycles.toNat)
    (counterRoom : timer.CounterHasRoom cycles.toNat) :
    timer.advanceBatches bank batches = timer.advance bank cycles ∧
      (timer.advance bank cycles).answer = .ok () := by
  obtain ⟨first, rest, rfl⟩ := List.exists_cons_of_ne_nil told
  have advanced := advance_of_room timer bank dividerRoom counterRoom
  rw [← whole] at dividerRoom counterRoom
  rw [advance_batches_of_room timer bank first rest dividerRoom counterRoom, whole, advanced]
  exact ⟨rfl, rfl⟩

/-- Two advances do what one by their sum does, and one advance does what as many by a single cycle
do; none of them faults. -/
theorem batching_makes_no_difference (timer : Timer) (bank : InterruptBank) :
    (∀ first second : UInt32, timer.DividerHasRoom (first.toNat + second.toNat) →
        timer.CounterHasRoom (first.toNat + second.toNat) →
        timer.advanceBatches bank [first, second] = timer.advance bank (first + second) ∧
          (timer.advance bank (first + second)).answer = .ok ()) ∧
      ∀ cycles : UInt32, 0 < cycles.toNat → timer.DividerHasRoom cycles.toNat →
        timer.CounterHasRoom cycles.toNat →
        timer.advanceBatches bank (List.replicate cycles.toNat 1) = timer.advance bank cycles ∧
          (timer.advance bank cycles).answer = .ok () := by
  constructor
  · intro first second dividerRoom counterRoom
    have fits : first.toNat + second.toNat < UInt32.size :=
      Nat.lt_of_le_of_lt (Nat.le_add_left _ _) dividerRoom
    have sum := Checked.sum32_of_room fits
    rw [← sum] at dividerRoom counterRoom
    apply advance_batches_eq_advance timer bank (List.cons_ne_nil _ _) _ dividerRoom counterRoom
    rw [total_cycles_cons, total_cycles_cons, sum]
    rfl
  · intro cycles positive dividerRoom counterRoom
    apply advance_batches_eq_advance timer bank _ (total_cycles_ones _) dividerRoom counterRoom
    intro none
    rw [List.replicate_eq_nil_iff] at none
    omega

/-- Both prescalers hold more than a period, and the counter is about to start again. -/
def uneven : Timer := ⟨1000, 50, 7, 254, 9, 0x05⟩

theorem uneven_batches_make_no_difference :
    uneven.DividerHasRoom 103 ∧ uneven.CounterHasRoom 103 ∧
      uneven.advanceBatches .clear [3, 100] = uneven.advance .clear 103 ∧
      uneven.advanceBatches .clear (List.replicate 103 1) = uneven.advance .clear 103 := by
  have dividerRoom : uneven.DividerHasRoom 103 := by
    unfold DividerHasRoom
    decide
  have counterRoom : uneven.CounterHasRoom 103 := by
    unfold CounterHasRoom
    decide
  obtain ⟨pairs, singles⟩ := batching_makes_no_difference uneven .clear
  exact ⟨dividerRoom, counterRoom, (pairs 3 100 dividerRoom counterRoom).1,
    (singles 103 (by decide) dividerRoom counterRoom).1⟩

end Handheld.Timer
