import Handheld.Cpu
import Handheld.Proofs.Bits
import Handheld.Proofs.Board
import Mathlib.Data.List.Pairwise
import Mathlib.Logic.Function.Conjugate

/-!
# Interrupt producers

Between two steps of the processor its producers ask for interrupts, let time pass and move keys.
They share the flag register, and yet their order does not matter, as long as no two of them move
the same key: a request is a bit that is set, keys pull lines of their own, and waits add up. In
which wait the timer asks for its interrupt does depend on the order, but not that it asks.

Two moves of one key do not commute, and neither do waits that overflow a prescaler: a fault ends
the list where it arises.
-/

namespace Handheld

set_option autoImplicit false

namespace Button

theorem lines_disjoint {button other : Button} (apart : button ≠ other)
    (column : button.isDirection = other.isDirection) : button.line &&& other.line = 0 := by
  revert apart column
  cases button <;> cases other <;> decide

def pull (button : Button) (lines : UInt8) : UInt8 := lines &&& ~~~button.line

def letGo (button : Button) (lines : UInt8) : UInt8 := lines ||| button.line

theorem pull_commute (button other : Button) : Function.Commute button.pull other.pull := by
  intro lines
  simp only [pull, UInt8.and_assoc, UInt8.and_comm (~~~button.line)]

theorem letGo_commute (button other : Button) : Function.Commute button.letGo other.letGo := by
  intro lines
  simp only [letGo, UInt8.or_assoc, UInt8.or_comm button.line]

theorem letGo_pull_commute {button other : Button} (apart : button ≠ other)
    (column : button.isDirection = other.isDirection) :
    Function.Commute button.letGo other.pull :=
  set_clear_comm (lines_disjoint apart column)

end Button

namespace Joypad

/-- Changes the lines of the column that a key stands in. -/
def change (button : Button) (lines : UInt8 → UInt8) (joypad : Joypad) : Joypad :=
  joypad.setColumn button (lines (joypad.column button))

/-- Changes of two columns commute, and so do changes of one column that commute on its lines. -/
theorem change_commute {button other : Button} {lines otherLines : UInt8 → UInt8}
    (commute : button.isDirection = other.isDirection → Function.Commute lines otherLines) :
    Function.Commute (change button lines) (change other otherLines) := by
  intro joypad
  simp only [change, setColumn, column]
  cases first : button.isDirection <;> cases second : other.isDirection
  · have same := commute (first.trans second.symm) joypad.buttons
    simp only [Bool.false_eq_true, if_false, same]
  · rfl
  · rfl
  · have same := commute (first.trans second.symm) joypad.directions
    simp only [if_true, same]

end Joypad

inductive Producer where
  | request (source : Interrupt)
  | wait (cycles : UInt32)
  | keyDown (button : Button)
  | keyUp (button : Button)

namespace Producer

def button? : Producer → Option Button
  | request _ | wait _ => none
  | keyDown button | keyUp button => some button

def cycles : Producer → Nat
  | wait cycles => cycles.toNat
  | request _ | keyDown _ | keyUp _ => 0

def perform (producer : Producer) (board : Board) : Attempt Board Fault Unit :=
  match producer with
  | request source => ⟨{ board with bank := board.bank.request source }, .ok ()⟩
  | wait cycles => board.advanceTimer cycles
  | keyDown button => ⟨board.keyDown button, .ok ()⟩
  | keyUp button => ⟨board.keyUp button, .ok ()⟩

def keys : Producer → Joypad → Joypad
  | request _ | wait _ => id
  | keyDown button => Joypad.change button button.pull
  | keyUp button => Joypad.change button button.letGo

end Producer

/-- Runs the producers one after another; a fault ends the list. -/
def Board.produce : Board → List Producer → Attempt Board Fault Unit
  | board, [] => ⟨board, .ok ()⟩
  | board, producer :: rest =>
    match producer.perform board with
    | ⟨reached, .error fault⟩ => ⟨reached, .error fault⟩
    | ⟨reached, .ok ()⟩ => reached.produce rest

namespace Board

def ask (source : Interrupt) (board : Board) : Board :=
  { board with bank := board.bank.request source }

def touch (keys : Joypad → Joypad) (board : Board) : Board :=
  { board with joypad := keys board.joypad }

/-- The prescalers of the timer take that many cycles without running over. -/
def HasTimerRoom (board : Board) (cycles : Nat) : Prop :=
  ∀ timer, board.timer = some timer → timer.DividerHasRoom cycles ∧ timer.CounterHasRoom cycles

end Board

namespace Producer

/-- What the producer does to a board whose timer has room for it. -/
def effect : Producer → Board → Board
  | request source => Board.ask source
  | wait cycles => (·.elapse cycles.toNat)
  | keyDown button => Board.ask .joypad ∘ Board.touch (Joypad.change button button.pull)
  | keyUp button => Board.touch (Joypad.change button button.letGo)

theorem perform_of_room (producer : Producer) {board : Board}
    (room : board.HasTimerRoom producer.cycles) :
    producer.perform board = ⟨producer.effect board, .ok ()⟩ := by
  cases producer with
  | request source => rfl
  | keyDown button => rfl
  | keyUp button => rfl
  | wait cycles =>
      have answered : (board.advanceTimer cycles).answer = .ok () := by
        cases attached : board.timer with
        | none => simp only [Board.advanceTimer, attached]
        | some timer =>
            obtain ⟨divider, counter⟩ := room timer attached
            simp only [Board.advanceTimer, attached,
              timer.advance_of_room board.bank divider counter]
      have state := Board.advance_timer_of_answered answered
      change board.advanceTimer cycles = ⟨board.elapse cycles.toNat, .ok ()⟩
      rw [← state, ← answered]

theorem room_effect (producer : Producer) {board : Board} {rest : Nat}
    (room : board.HasTimerRoom (producer.cycles + rest)) :
    (producer.effect board).HasTimerRoom rest := by
  cases producer with
  | wait cycles =>
      intro timer elapsed
      obtain ⟨before, attached, rfl⟩ := Option.map_eq_some_iff.mp elapsed
      obtain ⟨divider, counter⟩ := room before attached
      exact ⟨Timer.divider_room_rest divider, Timer.counter_room_rest counter⟩
  | request source | keyDown button | keyUp button =>
      rw [cycles, Nat.zero_add] at room
      exact room

end Producer

namespace Board

theorem produce_of_room {board : Board} (producers : List Producer)
    (room : board.HasTimerRoom (producers.map Producer.cycles).sum) :
    board.produce producers =
      ⟨producers.foldl (fun board producer => producer.effect board) board, .ok ()⟩ := by
  induction producers generalizing board with
  | nil => rfl
  | cons producer rest induction =>
      rw [List.map_cons, List.sum_cons] at room
      have first : board.HasTimerRoom producer.cycles := by
        intro timer attached
        obtain ⟨divider, counter⟩ := room timer attached
        exact ⟨Timer.divider_room_first divider, Timer.counter_room_first counter⟩
      rw [produce, producer.perform_of_room first, List.foldl_cons]
      exact induction (producer.room_effect room)

theorem ask_commute (source other : Interrupt) : Function.Commute (ask source) (ask other) := by
  intro board
  simp only [ask, InterruptBank.request, UInt8.or_assoc, UInt8.or_comm source.mask]

theorem ask_elapse_commute (source : Interrupt) (cycles : Nat) :
    Function.Commute (ask source) (elapse · cycles) := by
  intro board
  have counted : (board.ask source).overflows cycles = board.overflows cycles := rfl
  simp only [elapse, counted]
  split
  · have same := ask_commute .timer source board
    simp only [ask] at same ⊢
    simp only [mk.injEq] at same
    rw [same.2.1]
  · rfl

theorem elapse_commute (first second : Nat) :
    Function.Commute (elapse · first) (elapse · second) := by
  intro board
  change (board.elapse second).elapse first = (board.elapse first).elapse second
  rw [elapse_add, elapse_add, Nat.add_comm]

end Board

namespace Producer

theorem ask_commute (source : Interrupt) (producer : Producer) :
    Function.Commute (Board.ask source) producer.effect := by
  cases producer with
  | request other => exact Board.ask_commute source other
  | wait cycles => exact Board.ask_elapse_commute source cycles.toNat
  | keyDown button => exact (Board.ask_commute source .joypad).comp_right fun _ => rfl
  | keyUp button => exact fun _ => rfl

theorem elapse_commute (cycles : Nat) (producer : Producer) :
    Function.Commute (Board.elapse · cycles) producer.effect := by
  cases producer with
  | request source => exact (Board.ask_elapse_commute source cycles).symm
  | wait others => exact Board.elapse_commute cycles others.toNat
  | keyDown button => exact (Board.ask_elapse_commute .joypad cycles).symm.comp_right fun _ => rfl
  | keyUp button => exact fun _ => rfl

theorem touch_commute {keys : Joypad → Joypad} {producer : Producer}
    (commute : Function.Commute keys producer.keys) :
    Function.Commute (Board.touch keys) producer.effect := by
  have touched : ∀ others, Function.Commute keys others →
      Function.Commute (Board.touch keys) (Board.touch others) := by
    intro others same board
    simp only [Board.touch, same board.joypad]
  cases producer with
  | request source => exact fun _ => rfl
  | wait cycles => exact fun _ => rfl
  | keyDown button =>
      have asked : Function.Commute (Board.touch keys) (Board.ask .joypad) := fun _ => rfl
      exact asked.comp_right (touched _ commute)
  | keyUp button => exact touched _ commute

/-- Not two moves of one key. -/
def Apart (first second : Producer) : Prop :=
  ∀ button, first.button? = some button → ∀ other, second.button? = some other → button ≠ other

theorem keys_commute {first second : Producer} (apart : first.Apart second) :
    Function.Commute first.keys second.keys := by
  cases first with
  | request _ | wait _ => exact fun _ => rfl
  | keyDown button =>
      cases second with
      | request _ | wait _ => exact fun _ => rfl
      | keyDown other => exact Joypad.change_commute fun _ => Button.pull_commute button other
      | keyUp other =>
          have differ := apart button rfl other rfl
          apply Joypad.change_commute
          intro column
          exact (Button.letGo_pull_commute differ.symm column.symm).symm
  | keyUp button =>
      cases second with
      | request _ | wait _ => exact fun _ => rfl
      | keyDown other =>
          have differ := apart button rfl other rfl
          apply Joypad.change_commute
          intro column
          exact Button.letGo_pull_commute differ column
      | keyUp other => exact Joypad.change_commute fun _ => Button.letGo_commute button other

theorem effects_commute {first second : Producer} (apart : first.Apart second) :
    Function.Commute first.effect second.effect := by
  have keys := keys_commute apart
  cases first with
  | request source => exact ask_commute source second
  | wait cycles => exact elapse_commute cycles.toNat second
  | keyDown button => exact (ask_commute .joypad second).comp_left (touch_commute keys)
  | keyUp button => exact touch_commute keys

end Producer

namespace Board

theorem effects_of_perm {first second : List Producer} (permuted : first.Perm second)
    (distinct : (first.filterMap Producer.button?).Nodup) (board : Board) :
    second.foldl (fun board producer => producer.effect board) board =
      first.foldl (fun board producer => producer.effect board) board := by
  have apart : first.Pairwise Producer.Apart := List.pairwise_filterMap.mp distinct
  have symmetric : Std.Symm fun producer other : Producer =>
      Function.Commute producer.effect other.effect := ⟨fun _ _ commute => commute.symm⟩
  have commute := (apart.imp Producer.effects_commute).forall_of_forall fun _ _ => fun _ => rfl
  apply Eq.symm
  apply permuted.foldl_eq'
  intro producer member other also board
  exact commute also member board

/-- Producers in any two orders: neither order faults, both lead to the same board, and so the next
step of a processor tells the same events and costs the same. -/
theorem producers_commute (board : Board) {first second : List Producer}
    (permuted : first.Perm second) (distinct : (first.filterMap Producer.button?).Nodup)
    (room : board.HasTimerRoom (first.map Producer.cycles).sum) :
    (board.produce first).answer = .ok () ∧ (board.produce second).answer = .ok () ∧
      (board.produce second).state = (board.produce first).state ∧
      ∀ cpu : Cpu Board,
        cpu.events (board.produce second).state = cpu.events (board.produce first).state ∧
          (cpu.step (board.produce second).state).ticks =
            (cpu.step (board.produce first).state).ticks := by
  have sums := (permuted.map Producer.cycles).sum_nat
  have ordered := produce_of_room first room
  have reordered := produce_of_room second (sums ▸ room)
  have same : (board.produce second).state = (board.produce first).state := by
    rw [ordered, reordered]
    exact effects_of_perm permuted distinct board
  refine ⟨by rw [ordered], by rw [reordered], same, ?_⟩
  intro cpu
  rw [same]
  exact ⟨rfl, rfl⟩

/-- The counter of the timer is about to start again, and its prescalers hold whole periods. -/
def laden : Board := { bare with bank := ⟨0x01, 0x1C⟩, timer := some ⟨1000, 50, 7, 254, 9, 0x05⟩ }

def bustle : List Producer :=
  [.keyUp .up, .wait 3, .request .serial, .keyDown .left, .wait 100, .keyDown .a, .request .timer]

theorem bustle_commutes :
    bustle.Perm bustle.reverse ∧ (bustle.filterMap Producer.button?).Nodup ∧
      laden.HasTimerRoom (bustle.map Producer.cycles).sum ∧
      (laden.produce bustle.reverse).answer = .ok () ∧
      (laden.produce bustle.reverse).state = (laden.produce bustle).state := by
  have permuted : bustle.Perm bustle.reverse := (List.reverse_perm bustle).symm
  have distinct : (bustle.filterMap Producer.button?).Nodup := by decide
  have room : laden.HasTimerRoom (bustle.map Producer.cycles).sum := by
    intro timer attached
    rw [← Option.some.inj attached]
    unfold Timer.DividerHasRoom Timer.CounterHasRoom
    decide
  obtain ⟨_, answered, same, _⟩ := producers_commute laden permuted distinct room
  exact ⟨permuted, distinct, room, answered, same⟩

end Board

end Handheld
