import Handheld.Interrupt.Priority
import Handheld.Proofs.Bits

/-!
# Requests and priority

Each source owns one bit of the flag register: to request or to acknowledge a source changes the
answer about that source and about no other. The priority table answers the pending source with the
lowest bit, and answers none exactly when no line is pending.
-/

namespace Handheld

set_option autoImplicit false

namespace Interrupt

theorem vector_eq (source : Interrupt) : source.vector = 0x40 + 8 * source.bit.toUInt16 := by
  cases source <;> decide

theorem mask_ne_zero (source : Interrupt) : source.mask ≠ 0 := by
  cases source <;> decide

theorem mask_and_other_mask {source other : Interrupt} (apart : source ≠ other) :
    source.mask &&& other.mask = 0 := by
  revert apart
  cases source <;> cases other <;> decide

theorem complement_and_other_mask {source other : Interrupt} (apart : source ≠ other) :
    ~~~source.mask &&& other.mask = other.mask := by
  revert apart
  cases source <;> cases other <;> decide

theorem mask_power (source : Interrupt) : source.mask.toNat = 2 ^ source.bit.toNat := by
  cases source <;> decide

theorem and_mask_of_ne_zero {byte : UInt8} {source : Interrupt}
    (isSet : byte &&& source.mask ≠ 0) : byte &&& source.mask = source.mask := by
  rw [and_power source.mask_power] at isSet ⊢
  split at isSet
  · next bit => rw [if_pos bit]
  · contradiction

theorem lines_and_mask (source : Interrupt) : linesMask &&& source.mask = source.mask := by
  cases source <;> decide

theorem mem_all (source : Interrupt) : source ∈ all := by
  cases source <;> decide

theorem all_ascends : all.Pairwise fun source other => source.bit < other.bit := by
  decide

theorem no_line_iff_no_source (pending : UInt8) :
    pending &&& linesMask = 0 ↔ ∀ source : Interrupt, pending &&& source.mask = 0 := by
  constructor
  · intro noLine source
    rw [← lines_and_mask source, ← UInt8.and_assoc, noLine, UInt8.zero_and]
  · intro noSource
    have lines : linesMask =
        vblank.mask ||| lcdStat.mask ||| timer.mask ||| serial.mask ||| joypad.mask := by decide
    rw [lines]
    simp only [and_or_distributes, noSource, UInt8.or_self]

theorem highest_priority_lines (pending : UInt8) :
    highestPriority (pending &&& linesMask) = highestPriority pending := by
  simp only [highestPriority, UInt8.and_assoc, lines_and_mask]

/-- The table answers by the order of the sources, whatever bits stand above the lines. -/
theorem table_entry_eq_highest_priority (pending : UInt8) :
    priorityTable.entry pending = highestPriority pending := by
  simp only [PriorityTable.entry, priorityTable, tabulatePriority, Vector.getElem_ofFn,
    UInt8.ofNat_toNat]
  exact highest_priority_lines pending

theorem highest_priority_eq_none_iff (pending : UInt8) :
    highestPriority pending = none ↔ pending &&& linesMask = 0 := by
  rw [no_line_iff_no_source]
  simp only [highestPriority, List.find?_eq_none, bne_iff_ne, ne_eq, Decidable.not_not]
  exact ⟨fun clear source => clear source (mem_all source), fun clear source _ => clear source⟩

def IsLowestSetBit (vector : UInt8) (source : Interrupt) : Prop :=
  vector &&& source.mask ≠ 0 ∧
    ∀ other : Interrupt, other.bit < source.bit → vector &&& other.mask = 0

theorem highest_priority_is_lowest_set_bit {pending : UInt8} {source : Interrupt}
    (found : highestPriority pending = some source) : IsLowestSetBit pending source := by
  obtain ⟨isSet, earlier, later, order, clear⟩ := List.find?_eq_some_iff_append.mp found
  refine ⟨by simpa using isSet, ?_⟩
  intro other lower
  have ascends := all_ascends
  rw [order, List.pairwise_append, List.pairwise_cons] at ascends
  have member := mem_all other
  rw [order, List.mem_append, List.mem_cons] at member
  rcases member with early | same | late
  · simpa using clear other early
  · subst same
    exact absurd lower (by simp)
  · exact absurd lower (UInt8.not_lt.mpr (UInt8.le_of_lt (ascends.2.1.1 other late)))

end Interrupt

namespace InterruptBank

variable (bank : InterruptBank)

theorem is_requested_request (source other : Interrupt) :
    (bank.request source).isRequested other = (bank.isRequested other || source == other) := by
  by_cases same : source = other
  · subst same
    simp [isRequested, request, UInt8.and_comm _ source.mask, and_or_distributes,
      Interrupt.mask_ne_zero]
  · simp [isRequested, request, UInt8.and_comm _ other.mask, and_or_distributes, same,
      Interrupt.mask_and_other_mask (Ne.symm same)]

theorem is_requested_acknowledge (source other : Interrupt) :
    (bank.acknowledge source).isRequested other = (bank.isRequested other && source != other) := by
  by_cases same : source = other
  · subst same
    simp [isRequested, acknowledge, UInt8.and_assoc]
  · simp [isRequested, acknowledge, UInt8.and_assoc, same,
      Interrupt.complement_and_other_mask same]

theorem request_twice (source : Interrupt) :
    (bank.request source).request source = bank.request source := by
  rw [request, request, UInt8.or_assoc, UInt8.or_self]

theorem flag_of_request (source : Interrupt) :
    bank.flag &&& (bank.request source).flag = bank.flag :=
  and_or_absorbs bank.flag source.mask

theorem flag_bit_request (source : Interrupt) (bit : Nat) :
    (bank.request source).flag.toNat.testBit bit =
      (decide (bit = source.bit.toNat) || bank.flag.toNat.testBit bit) := by
  rw [request, or_bit, power_bit source.mask_power, Bool.or_comm, decide_eq_decide.mpr eq_comm]

theorem pending_lines : bank.pending &&& Interrupt.linesMask = bank.pending := by
  rw [pending, UInt8.and_assoc, UInt8.and_self]

theorem pending_and_mask (source : Interrupt) :
    bank.pending &&& source.mask = bank.flag &&& source.mask &&& bank.enable := by
  rw [pending, UInt8.and_assoc, Interrupt.lines_and_mask, UInt8.and_assoc, UInt8.and_assoc,
    UInt8.and_comm bank.enable]

theorem is_requested_of_pending {source : Interrupt} (isSet : bank.pending &&& source.mask ≠ 0) :
    bank.isRequested source = true := by
  simp only [isRequested, bne_iff_ne]
  intro clear
  rw [pending_and_mask, clear, UInt8.zero_and] at isSet
  exact isSet rfl

theorem pending_request_other {source other : Interrupt} (apart : source ≠ other) :
    (bank.request source).pending &&& other.mask = bank.pending &&& other.mask := by
  rw [pending_and_mask, pending_and_mask]
  simp only [request, UInt8.and_comm _ other.mask, and_or_distributes,
    Interrupt.mask_and_other_mask apart.symm, UInt8.or_zero]

/-- The sources that are requested and let through, the first to be served in front. -/
def waiting : List Interrupt :=
  Interrupt.all.filter fun source => bank.pending &&& source.mask != 0

theorem highest_priority_eq_head : Interrupt.highestPriority bank.pending = bank.waiting.head? :=
  List.head?_filter.symm

theorem waiting_ascends : bank.waiting.Pairwise fun source other => source.bit < other.bit :=
  Interrupt.all_ascends.filter _

theorem mem_waiting (source : Interrupt) :
    source ∈ bank.waiting ↔ bank.pending &&& source.mask ≠ 0 := by
  rw [waiting, List.mem_filter, bne_iff_ne]
  exact and_iff_right (Interrupt.mem_all source)

theorem waiting_eq_nil_iff : bank.waiting = [] ↔ bank.pending = 0 := by
  rw [← bank.pending_lines, Interrupt.no_line_iff_no_source, List.eq_nil_iff_forall_not_mem]
  simp only [mem_waiting, ne_eq, Decidable.not_not]

theorem pending_acknowledge (source other : Interrupt) :
    (bank.acknowledge source).pending &&& other.mask =
      if other = source then 0 else bank.pending &&& other.mask := by
  rw [pending_and_mask, pending_and_mask]
  by_cases same : other = source
  · subst same
    simp [acknowledge, UInt8.and_assoc]
  · simp [acknowledge, UInt8.and_assoc, same, Interrupt.complement_and_other_mask (Ne.symm same)]

variable {bank}

theorem pending_of_request {source : Interrupt} (quiet : bank.pending = 0)
    (enabled : bank.enable &&& source.mask ≠ 0) :
    (bank.request source).pending = source.mask := by
  have lets := Interrupt.and_mask_of_ne_zero enabled
  have lines := Interrupt.lines_and_mask source
  have parts : (bank.request source).pending =
      bank.pending ||| (bank.enable &&& source.mask &&& Interrupt.linesMask) := by
    rw [pending, request, UInt8.and_assoc, UInt8.and_comm, and_or_distributes, pending]
    ac_rfl
  rw [parts, quiet, lets, UInt8.and_comm, lines, UInt8.zero_or]

theorem waiting_acknowledge {source : Interrupt} {rest : List Interrupt}
    (first : bank.waiting = source :: rest) : (bank.acknowledge source).waiting = rest := by
  have others : (bank.acknowledge source).waiting =
      bank.waiting.filter fun other => other != source := by
    rw [waiting, waiting, List.filter_filter]
    congr 1
    funext other
    rw [pending_acknowledge]
    by_cases same : other = source
    · simp [same]
    · simp [same]
  have ascends := bank.waiting_ascends
  rw [first, List.pairwise_cons] at ascends
  rw [others, first, List.filter_cons_of_neg (by simp), List.filter_eq_self]
  intro other member
  rw [bne_iff_ne]
  rintro rfl
  exact absurd (ascends.1 other member) (by simp)

/-- What is left of the flags after all that waits was served does not depend on how many sources
were acknowledged already. -/
theorem flag_left_acknowledge {source : Interrupt} (waits : source ∈ bank.waiting) :
    (bank.acknowledge source).flag &&& ~~~(bank.acknowledge source).pending =
      bank.flag &&& ~~~bank.pending := by
  have covered := Interrupt.and_mask_of_ne_zero ((bank.mem_waiting source).mp waits)
  have pending : (bank.acknowledge source).pending = bank.pending &&& ~~~source.mask := by
    simp only [InterruptBank.pending, acknowledge]
    ac_rfl
  rw [pending]
  exact clear_covered covered

end InterruptBank

end Handheld
