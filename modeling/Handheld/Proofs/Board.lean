import Handheld.Proofs.AddressMap
import Handheld.Proofs.Interrupt
import Handheld.Proofs.Timer.Batches
import Handheld.Proofs.Timer.Reachable

/-!
# What a write to the board leaves alone

`Written` lists everything one write can do, by what stands behind its address. So the flag register
changes only by a write to its own address, and an attached timer only by one to 0xFF04 up to
0xFF07.
-/

namespace Handheld

set_option autoImplicit false

theorem Location.interrupt_flag_address {address : UInt16}
    (found : Location.ofAddress address = .interruptFlag) : address = Address.interruptFlag := by
  unfold Location.ofAddress at found
  split at found
  · contradiction
  · split at found
    · assumption
    · split at found
      · contradiction
      · split at found <;> contradiction

theorem Location.timer_address {address : UInt16} {register : TimerRegister}
    (found : Location.ofAddress address = .timer register) :
    0xFF04 ≤ address ∧ address ≤ 0xFF07 := by
  have decoded : TimerRegister.ofAddress? address = some register := by
    unfold Location.ofAddress at found
    split at found
    · contradiction
    · split at found
      · contradiction
      · split at found
        · rename_i decoded
          rw [decoded, Location.timer.inj found]
        · split at found <;> contradiction
  rw [TimerRegister.of_address_eq_some decoded]
  exact register.address_bounds

namespace Board

@[simp] theorem bus_read (board : Board) (address : UInt16) :
    Bus.read board address = board.read address := rfl

@[simp] theorem bus_write (board : Board) (address : UInt16) (value : UInt8) :
    Bus.write board address value = board.write address value := rfl

@[simp] theorem bus_bank (board : Board) : Bus.bank board = board.bank := rfl

@[simp] theorem bus_setBank (board : Board) (bank : InterruptBank) :
    Bus.setBank board bank = { board with bank } := rfl

@[simp] theorem bus_advanceTimer (board : Board) (cycles : UInt32) :
    Bus.advanceTimer board cycles = board.advanceTimer cycles := rfl

/-- The boards that a write can lead to, by what stands behind its address. -/
inductive Written (board : Board) (address : UInt16) (value : UInt8) : Board → Prop where
  | keys (found : Location.ofAddress address = .keys) :
      Written board address value { board with joypad := board.joypad.write value }
  | timer {register : TimerRegister} {timer : Timer}
      (found : Location.ofAddress address = .timer register) (attached : board.timer = some timer) :
      Written board address value { board with timer := some (timer.write register value) }
  | plain {register : TimerRegister} (found : Location.ofAddress address = .timer register)
      (unattached : board.timer = none) : Written board address value (board.poke address value)
  | flag (found : Location.ofAddress address = .interruptFlag) :
      Written board address value
        { board with bank := board.bank.setFlag (value &&& Interrupt.linesMask) }
  | enable (found : Location.ofAddress address = .interruptEnable) :
      Written board address value { board with bank := board.bank.setEnable value }
  | cartridge {cell : UInt16} (found : Location.ofAddress address = .cartridge cell) :
      Written board address value board
  | gap (found : Location.ofAddress address = .gap) : Written board address value board
  | ram {cell : UInt16} (found : Location.ofAddress address = .ram cell) :
      Written board address value (board.poke cell value)

theorem write_written (board : Board) (address : UInt16) (value : UInt8) :
    Written board address value (board.write address value) := by
  rw [write_eq]
  cases found : Location.ofAddress address with
  | keys => exact .keys found
  | timer register =>
      cases attached : board.timer with
      | none => exact .plain found attached
      | some timer => exact .timer found attached
  | interruptFlag => exact .flag found
  | interruptEnable => exact .enable found
  | cartridge cell => exact .cartridge found
  | gap => exact .gap found
  | ram cell => exact .ram found

def TimerReachable (board : Board) : Prop :=
  ∀ timer, board.timer = some timer → timer.Reachable

section Write

variable {board : Board} {address : UInt16}

theorem write_flag (apart : address ≠ Address.interruptFlag) (value : UInt8) :
    (board.write address value).bank.flag = board.bank.flag := by
  have written := board.write_written address value
  generalize board.write address value = next at written ⊢
  cases written with
  | flag found => exact absurd (Location.interrupt_flag_address found) apart
  | _ => rfl

theorem write_timer (apart : ¬(0xFF04 ≤ address ∧ address ≤ 0xFF07)) (value : UInt8) :
    (board.write address value).timer = board.timer := by
  have written := board.write_written address value
  generalize board.write address value = next at written ⊢
  cases written with
  | timer found attached => exact absurd (Location.timer_address found) apart
  | _ => rfl

theorem write_timer_reachable (reachable : board.TimerReachable) (address : UInt16)
    (value : UInt8) : (board.write address value).TimerReachable := by
  have written := board.write_written address value
  generalize board.write address value = next at written ⊢
  cases written with
  | timer found attached =>
      intro timer same
      rw [← Option.some.inj same]
      exact (reachable _ attached).write _ value
  | _ => exact reachable

end Write

def overflows (board : Board) (cycles : Nat) : Nat :=
  match board.timer with
  | none => 0
  | some timer => timer.overflows cycles

def elapse (board : Board) (cycles : Nat) : Board :=
  { board with
    timer := board.timer.map (·.elapse cycles)
    bank := if 0 < board.overflows cycles then board.bank.request .timer else board.bank }

theorem elapse_attached {board : Board} {timer : Timer} (attached : board.timer = some timer)
    (cycles : Nat) :
    board.elapse cycles =
      { board with
        timer := some (timer.elapse cycles)
        bank := timer.bankAfter board.bank cycles } := by
  simp only [elapse, overflows, attached, Option.map_some, Timer.bankAfter]

theorem elapse_add (board : Board) (first second : Nat) :
    (board.elapse first).elapse second = board.elapse (first + second) := by
  cases attached : board.timer with
  | none => simp only [elapse, overflows, attached, Option.map_none, Nat.lt_irrefl, if_false]
  | some timer =>
      rw [elapse_attached attached, elapse_attached attached, elapse_attached rfl]
      simp only [Timer.elapse_add, Timer.bank_after_add]

theorem advance_timer_of_answered {board : Board} {cycles : UInt32}
    (answered : (board.advanceTimer cycles).answer = .ok ()) :
    (board.advanceTimer cycles).state = board.elapse cycles.toNat := by
  cases attached : board.timer with
  | none =>
      simp only [advanceTimer, attached, elapse, overflows, Option.map_none, Nat.lt_irrefl,
        if_false]
      rw [← attached]
  | some timer =>
      simp only [advanceTimer, attached] at answered ⊢
      have whole := Timer.advance_of_answered timer answered
      generalize timer.advance board.bank cycles = advanced at whole ⊢
      obtain ⟨⟨reached, bank⟩, answer⟩ := advanced
      obtain ⟨rfl, rfl⟩ := Prod.mk.inj whole
      simp only [elapse, overflows, attached, Option.map_some, Timer.bankAfter]

theorem advance_timer_of_reachable {board : Board} (reachable : board.TimerReachable)
    {cycles : UInt32} (short : cycles.toNat < 65536) :
    (board.advanceTimer cycles).answer = .ok () := by
  cases attached : board.timer with
  | none => simp only [advanceTimer, attached]
  | some timer =>
      have settled := Timer.reachable_settled (reachable timer attached)
      simp only [advanceTimer, attached, Timer.advance_of_settled settled board.bank short]

theorem timer_reachable_advance {board : Board} (reachable : board.TimerReachable)
    (cycles : UInt32) : (board.advanceTimer cycles).state.TimerReachable := by
  cases attached : board.timer with
  | none =>
      simp only [advanceTimer, attached]
      exact reachable
  | some timer =>
      simp only [advanceTimer, attached]
      intro advanced same
      rw [← Option.some.inj same]
      exact (reachable timer attached).advance board.bank cycles

end Board

end Handheld
