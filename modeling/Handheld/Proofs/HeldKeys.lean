import Handheld.Joypad
import Handheld.Proofs.Bits
import Handheld.Proofs.Interrupt
import Mathlib.Data.List.Induction

/-!
# The key pad holds the pressed keys

Two bytes of four lines stand for eight keys, and keys of the two columns share their lines. After
any calls a key is held exactly when the last call that moved it was a press, and reading shows the
selection written last together with four lines. Such a line is low exactly when a held key in a
selected column pulls it, so that two selected columns show through each other. Of all calls only a
press touches the interrupt registers, and it sets a single bit there.
-/

namespace Handheld

set_option autoImplicit false

namespace Button

def position : Button → Nat
  | a | right => 0
  | b | left => 1
  | select | up => 2
  | start | down => 3

/-- The select bit of the column that the key stands in. -/
def selectBit : Button → UInt8
  | a | b | select | start => 0x20
  | right | left | up | down => 0x10

theorem select_bit_eq (button : Button) :
    button.selectBit = if button.isDirection then 0x10 else 0x20 := by
  cases button <;> rfl

theorem line_power (button : Button) : button.line.toNat = 2 ^ button.position := by
  cases button <;> rfl

theorem position_lt (button : Button) : button.position < 4 := by
  cases button <;> decide

theorem eq_of_place {button other : Button} (column : button.isDirection = other.isDirection)
    (line : button.position = other.position) : button = other := by
  revert column line
  cases button <;> cases other <;> decide

theorem exists_at_place (direction : Bool) {position : Nat} (inside : position < 4) :
    ∃ button : Button, button.isDirection = direction ∧ button.position = position := by
  have everywhere : ∀ direction : Bool, ∀ position : Fin 4,
      ∃ button ∈ all, button.isDirection = direction ∧ button.position = position := by decide
  obtain ⟨button, _, place⟩ := everywhere direction ⟨position, inside⟩
  exact ⟨button, place⟩

end Button

namespace Joypad

variable (joypad : Joypad)

def linesOf (direction : Bool) : UInt8 :=
  if direction then joypad.directions else joypad.buttons

theorem column_eq (button : Button) :
    joypad.column button = joypad.linesOf button.isDirection := rfl

theorem linesOf_setColumn (moved : Button) (lines : UInt8) (direction : Bool) :
    (joypad.setColumn moved lines).linesOf direction =
      if moved.isDirection = direction then lines else joypad.linesOf direction := by
  unfold setColumn linesOf
  cases moved.isDirection <;> cases direction <;> rfl

theorem select_setColumn (moved : Button) (lines : UInt8) :
    (joypad.setColumn moved lines).select = joypad.select := by
  unfold setColumn
  cases moved.isDirection <;> rfl

theorem is_pressed_iff (button : Button) :
    joypad.isPressed button = true ↔
      (joypad.column button).toNat.testBit button.position = false := by
  rw [isPressed, beq_iff_eq, and_power_eq_zero_iff button.line_power]

/-- A change of one line moves the key at that line in its column, and no other key. -/
theorem is_pressed_setColumn {moved : Button} {lines : UInt8} {held : Prop} [Decidable held]
    (own : lines.toNat.testBit moved.position = false ↔ held)
    (others : ∀ position < 4, position ≠ moved.position →
      lines.toNat.testBit position = (joypad.column moved).toNat.testBit position)
    (button : Button) :
    (joypad.setColumn moved lines).isPressed button = true ↔
      if moved = button then held else joypad.isPressed button = true := by
  rw [is_pressed_iff, is_pressed_iff, column_eq, linesOf_setColumn]
  by_cases same : moved = button
  · subst same
    rw [if_pos rfl, if_pos rfl, own]
  · rw [if_neg same]
    -- Another key of the same column stands at another line.
    by_cases column : moved.isDirection = button.isDirection
    · have apart : button.position ≠ moved.position :=
        fun line => same (Button.eq_of_place column line.symm)
      rw [if_pos column, others button.position button.position_lt apart, column_eq, column_eq,
        column]
    · rw [if_neg column, column_eq]

theorem is_pressed_press (moved button : Button) :
    (joypad.press moved).isPressed button = true ↔
      moved = button ∨ joypad.isPressed button = true := by
  have bit : ∀ position < 4, (joypad.column moved &&& ~~~moved.line).toNat.testBit position =
      ((joypad.column moved).toNat.testBit position && !decide (moved.position = position)) := by
    intro position inside
    rw [and_bit, complement_bit _ (by omega), power_bit moved.line_power]
  have own : (joypad.column moved &&& ~~~moved.line).toNat.testBit moved.position = false := by
    rw [bit _ moved.position_lt]
    simp
  rw [press, joypad.is_pressed_setColumn (iff_true_intro own)]
  · by_cases same : moved = button <;> simp [same]
  · intro position inside apart
    rw [bit position inside]
    simp [apart.symm]

theorem is_pressed_release (moved button : Button) :
    (joypad.release moved).isPressed button = true ↔
      moved ≠ button ∧ joypad.isPressed button = true := by
  have bit : ∀ position, (joypad.column moved ||| moved.line).toNat.testBit position =
      ((joypad.column moved).toNat.testBit position || decide (moved.position = position)) := by
    intro position
    rw [or_bit, power_bit moved.line_power]
  have own : ¬(joypad.column moved ||| moved.line).toNat.testBit moved.position = false := by
    rw [bit]
    simp
  rw [release, joypad.is_pressed_setColumn (iff_false_intro own)]
  · by_cases same : moved = button <;> simp [same]
  · intro position _ apart
    rw [bit]
    simp [apart.symm]

def HasFourLines : Prop :=
  ∀ direction, (joypad.linesOf direction).toNat < 16

theorem HasFourLines.setColumn {joypad : Joypad} (four : joypad.HasFourLines) (moved : Button)
    {lines : UInt8} (few : lines.toNat < 16) : (joypad.setColumn moved lines).HasFourLines := by
  intro direction
  rw [linesOf_setColumn]
  split
  · exact few
  · exact four direction

theorem HasFourLines.press {joypad : Joypad} (four : joypad.HasFourLines) (moved : Button) :
    (joypad.press moved).HasFourLines := by
  apply four.setColumn
  rw [UInt8.toNat_and]
  exact Nat.lt_of_le_of_lt Nat.and_le_left (four moved.isDirection)

theorem HasFourLines.release {joypad : Joypad} (four : joypad.HasFourLines) (moved : Button) :
    (joypad.release moved).HasFourLines := by
  apply four.setColumn
  rw [UInt8.toNat_or]
  apply Nat.or_lt_two_pow (n := 4) (four moved.isDirection)
  cases moved <;> decide

/-- The held keys and the selection are all that there is in a key pad. -/
theorem eq_of_pressed {left right : Joypad} (leftFour : left.HasFourLines)
    (rightFour : right.HasFourLines)
    (pressed : ∀ button, left.isPressed button = true ↔ right.isPressed button = true)
    (select : left.select = right.select) : left = right := by
  have columns : ∀ direction, left.linesOf direction = right.linesOf direction := by
    intro direction
    apply eq_of_bits
    intro position _
    by_cases inside : position < 4
    · obtain ⟨button, rfl, rfl⟩ := Button.exists_at_place direction inside
      have same := pressed button
      rw [is_pressed_iff, is_pressed_iff, column_eq, column_eq] at same
      exact Bool.eq_iff_iff.mpr (by simpa using not_congr same)
    · have high : 2 ^ 4 ≤ 2 ^ position :=
        Nat.pow_le_pow_right Nat.two_pos (Nat.le_of_not_lt inside)
      rw [Nat.testBit_lt_two_pow (Nat.lt_of_lt_of_le (leftFour direction) high),
        Nat.testBit_lt_two_pow (Nat.lt_of_lt_of_le (rightFour direction) high)]
  exact Joypad.ext (columns false) (columns true) select

theorem column_low_iff (direction : Bool) {position : Nat} (inside : position < 4) :
    (joypad.linesOf direction).toNat.testBit position = false ↔
      ∃ button : Button, joypad.isPressed button = true ∧ button.position = position ∧
        button.isDirection = direction := by
  constructor
  · intro low
    obtain ⟨button, column, line⟩ := Button.exists_at_place direction inside
    refine ⟨button, ?_, line, column⟩
    rw [is_pressed_iff, column_eq, column, line]
    exact low
  · rintro ⟨button, pressed, line, column⟩
    rw [is_pressed_iff, column_eq, column, line] at pressed
    exact pressed

end Joypad

/-- Four lines as they show held keys: a line is low exactly when a held key pulls it whose column
has a low select bit. -/
structure ShowsKeys (held : Button → Prop) (selection lines : UInt8) : Prop where
  four : lines.toNat < 16
  low_iff : ∀ position < 4, lines.toNat.testBit position = false ↔
    ∃ button, held button ∧ button.position = position ∧ selection &&& button.selectBit = 0

namespace Joypad

variable (joypad : Joypad)

theorem released_bit {position : Nat} (inside : position < 4) :
    released.toNat.testBit position = true := by
  have four : released.toNat = 2 ^ 4 - 1 := rfl
  rw [four, Nat.testBit_two_pow_sub_one, decide_eq_true inside]

theorem shown_low_iff (selected : Prop) [Decidable selected] (lines : UInt8) {position : Nat}
    (inside : position < 4) :
    (if selected then lines else released).toNat.testBit position = false ↔
      selected ∧ lines.toNat.testBit position = false := by
  by_cases shown : selected
  · rw [if_pos shown, and_iff_right shown]
  · rw [if_neg shown, released_bit inside]
    simp [shown]

theorem read_shows : ∃ lines, joypad.read = 0xC0 ||| joypad.select ||| lines ∧
    ShowsKeys (joypad.isPressed · = true) joypad.select lines := by
  refine ⟨_, rfl, ?_, ?_⟩
  · rw [UInt8.and_assoc, UInt8.toNat_and]
    exact Nat.lt_succ_of_le Nat.and_le_left
  · intro position inside
    rw [and_bit, and_bit, released_bit inside, Bool.true_and, Bool.and_eq_false_iff,
      shown_low_iff _ _ inside, shown_low_iff _ _ inside]
    constructor
    · rintro (⟨selected, low⟩ | ⟨selected, low⟩)
      · obtain ⟨button, pressed, line, column⟩ := (joypad.column_low_iff false inside).mp low
        refine ⟨button, pressed, line, ?_⟩
        rw [Button.select_bit_eq, column]
        exact selected
      · obtain ⟨button, pressed, line, column⟩ := (joypad.column_low_iff true inside).mp low
        refine ⟨button, pressed, line, ?_⟩
        rw [Button.select_bit_eq, column]
        exact selected
    · rintro ⟨button, pressed, line, selected⟩
      have low := (joypad.column_low_iff _ inside).mpr ⟨button, pressed, line, rfl⟩
      rw [Button.select_bit_eq] at selected
      cases column : button.isDirection with
      | false =>
          rw [column] at low selected
          exact .inl ⟨selected, low⟩
      | true =>
          rw [column] at low selected
          exact .inr ⟨selected, low⟩

end Joypad

/-- What is done with a key pad and with the interrupt registers that it is lent. -/
inductive KeyPadCall where
  | keyDown (button : Button)
  | keyUp (button : Button)
  | write (value : UInt8)
  | read
  /-- Anything that is done with the interrupt registers alone. -/
  | bank (change : InterruptBank → InterruptBank)

namespace KeyPadCall

/-- The key that the call moves. -/
def button? : KeyPadCall → Option Button
  | keyDown button | keyUp button => some button
  | write _ | read | bank _ => none

def selection? : KeyPadCall → Option UInt8
  | write value => some (value &&& 0x30)
  | keyDown _ | keyUp _ | read | bank _ => none

def lastMove? (calls : List KeyPadCall) (button : Button) : Option KeyPadCall :=
  (calls.filter (·.button? = some button)).getLast?

/-- The last call that moved the key pressed it. -/
def LeaveHeld (calls : List KeyPadCall) (button : Button) : Prop :=
  lastMove? calls button = some (keyDown button)

/-- The selection written last, and before any that of no column. -/
def lastSelection (calls : List KeyPadCall) : UInt8 :=
  (calls.filterMap selection?).getLast?.getD 0x30

def perform : KeyPadCall → Joypad × InterruptBank → Joypad × InterruptBank
  | keyDown button, (joypad, interrupts) => joypad.keyDown interrupts button
  | keyUp button, (joypad, interrupts) => (joypad.release button, interrupts)
  | write value, (joypad, interrupts) => (joypad.write value, interrupts)
  | read, (joypad, interrupts) => (joypad, interrupts)
  | bank change, (joypad, interrupts) => (joypad, change interrupts)

def performAll (calls : List KeyPadCall) (start : Joypad × InterruptBank) :
    Joypad × InterruptBank :=
  calls.foldl (fun reached call => call.perform reached) start

def BankLaw (before after : InterruptBank) : KeyPadCall → Prop
  | keyDown _ => after.enable = before.enable ∧
      ∀ bit, after.flag.toNat.testBit bit = (decide (bit = 4) || before.flag.toNat.testBit bit)
  | keyUp _ | write _ | read => after = before
  | bank change => after = change before

variable (calls : List KeyPadCall) (call : KeyPadCall)

theorem performAll_append (start : Joypad × InterruptBank) :
    performAll (calls ++ [call]) start = call.perform (performAll calls start) :=
  List.foldl_append

theorem leave_held_append (button : Button) :
    LeaveHeld (calls ++ [call]) button ↔
      if call.button? = some button then call = keyDown button else LeaveHeld calls button := by
  unfold LeaveHeld lastMove?
  rw [List.filter_append]
  by_cases moves : call.button? = some button
  · simp [moves]
  · simp [moves]

theorem lastSelection_append :
    lastSelection (calls ++ [call]) = call.selection?.getD (lastSelection calls) := by
  unfold lastSelection
  rw [List.filterMap_append]
  cases written : call.selection? with
  | none => simp [written]
  | some selection => simp [written]

theorem is_pressed_perform (state : Joypad × InterruptBank) (button : Button) :
    (call.perform state).1.isPressed button = true ↔
      if call.button? = some button then call = keyDown button
      else state.1.isPressed button = true := by
  cases call with
  | keyDown moved =>
      refine (state.1.is_pressed_press moved button).trans ?_
      by_cases same : moved = button <;> simp [button?, same]
  | keyUp moved =>
      refine (state.1.is_pressed_release moved button).trans ?_
      by_cases same : moved = button <;> simp [button?, same]
  | write | read | bank => rfl

theorem select_perform (state : Joypad × InterruptBank) :
    (call.perform state).1.select = call.selection?.getD state.1.select := by
  cases call with
  | keyDown moved | keyUp moved => exact state.1.select_setColumn moved _
  | write | read | bank => rfl

theorem bank_perform (state : Joypad × InterruptBank) :
    call.BankLaw state.2 (call.perform state).2 := by
  cases call with
  | keyDown moved => exact ⟨rfl, state.2.flag_bit_request .joypad⟩
  | keyUp | write | read | bank => rfl

end KeyPadCall

namespace Joypad

structure Reflects (joypad : Joypad) (calls : List KeyPadCall) : Prop where
  four : joypad.HasFourLines
  pressed_iff : ∀ button, joypad.isPressed button = true ↔ KeyPadCall.LeaveHeld calls button
  select_eq : joypad.select = KeyPadCall.lastSelection calls

/-- What holds of a key pad and its interrupt registers after the calls. -/
structure HoldsKeys (calls : List KeyPadCall) (reached : Joypad × InterruptBank) : Prop where
  pressed_iff : ∀ button, reached.1.isPressed button = true ↔ KeyPadCall.LeaveHeld calls button
  read_eq : ∃ lines, reached.1.read = 0xC0 ||| KeyPadCall.lastSelection calls ||| lines ∧
    ShowsKeys (KeyPadCall.LeaveHeld calls) (KeyPadCall.lastSelection calls) lines
  determined : ∀ others interrupts,
    (∀ button, KeyPadCall.LeaveHeld others button ↔ KeyPadCall.LeaveHeld calls button) →
      KeyPadCall.lastSelection others = KeyPadCall.lastSelection calls →
        (KeyPadCall.performAll others (idle, interrupts)).1 = reached.1
  bank_law : ∀ call : KeyPadCall, call.BankLaw reached.2 (call.perform reached).2

theorem idle_reflects : idle.Reflects [] := by
  constructor
  · intro direction
    cases direction <;> decide
  · intro button
    have up : idle.isPressed button = false := by cases button <;> rfl
    simp [up, KeyPadCall.LeaveHeld, KeyPadCall.lastMove?]
  · rfl

theorem Reflects.perform {state : Joypad × InterruptBank} {calls : List KeyPadCall}
    (reflects : state.1.Reflects calls) (call : KeyPadCall) :
    (call.perform state).1.Reflects (calls ++ [call]) := by
  constructor
  · cases call with
    | keyDown moved => exact reflects.four.press moved
    | keyUp moved => exact reflects.four.release moved
    | write | read | bank => exact reflects.four
  · intro button
    rw [call.is_pressed_perform, KeyPadCall.leave_held_append, reflects.pressed_iff]
  · rw [call.select_perform, KeyPadCall.lastSelection_append, reflects.select_eq]

theorem reflects_performed (interrupts : InterruptBank) (calls : List KeyPadCall) :
    (KeyPadCall.performAll calls (idle, interrupts)).1.Reflects calls := by
  -- From the end, since the last call decides about the key that it moves.
  induction calls using List.reverseRecOn with
  | nil => exact idle_reflects
  | append_singleton calls call induction =>
      rw [KeyPadCall.performAll_append]
      exact induction.perform call

/-- After any calls the key pad holds the keys whose last move was a press, and shows them in the
columns selected last. A press requests its interrupt, and no other call for the key pad touches the
interrupt registers. -/
theorem holds_pressed_keys (interrupts : InterruptBank) (calls : List KeyPadCall) :
    HoldsKeys calls (KeyPadCall.performAll calls (idle, interrupts)) := by
  have reflects := reflects_performed interrupts calls
  generalize KeyPadCall.performAll calls (idle, interrupts) = reached at reflects ⊢
  have held : (reached.1.isPressed · = true) = KeyPadCall.LeaveHeld calls := by
    funext button
    exact propext (reflects.pressed_iff button)
  constructor
  · exact reflects.pressed_iff
  · obtain ⟨lines, read, shows⟩ := reached.1.read_shows
    rw [held, reflects.select_eq] at shows
    rw [reflects.select_eq] at read
    exact ⟨lines, read, shows⟩
  · intro others interrupts same selection
    have alike := reflects_performed interrupts others
    apply eq_of_pressed alike.four reflects.four
    · intro button
      rw [alike.pressed_iff, reflects.pressed_iff, same]
    · rw [alike.select_eq, reflects.select_eq, selection]
  · intro call
    exact call.bank_perform reached

example :
    [0xDF, 0xEF, 0x00].map (fun value : UInt8 => (KeyPadCall.performAll
        [.keyDown .a, .keyDown .down, .write value] (idle, .clear)).1.read) =
      [0xDE, 0xE7, 0xC6] := by
  decide

end Joypad

end Handheld
