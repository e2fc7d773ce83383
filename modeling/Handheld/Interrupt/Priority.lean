import Handheld.Interrupt

/-!
# Which source is served first

Of several pending requests the first in the order of `Interrupt.all` is served. The answer for each
of the 32 sets of pending lines is tabulated once.
-/

namespace Handheld.Interrupt

set_option autoImplicit false

/-- The first source, in order of priority, whose bit is set. -/
def highestPriority (pending : UInt8) : Option Interrupt :=
  all.find? fun source => pending &&& source.mask != 0

abbrev PriorityTable := Vector (Option Interrupt) 32

def tabulatePriority : PriorityTable :=
  Vector.ofFn fun lines => highestPriority (UInt8.ofNat lines.val)

def priorityTable : PriorityTable := tabulatePriority

theorem lines_lt (pending : UInt8) : (pending &&& linesMask).toNat < 32 := by
  have bound : (pending &&& linesMask).toNat ≤ linesMask.toNat := by
    rw [UInt8.toNat_and]
    exact Nat.and_le_right
  exact Nat.lt_succ_of_le bound

def PriorityTable.entry (table : PriorityTable) (pending : UInt8) : Option Interrupt :=
  have _inside := lines_lt pending
  table[(pending &&& linesMask).toNat]

end Handheld.Interrupt
