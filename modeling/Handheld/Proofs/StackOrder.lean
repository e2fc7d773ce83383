import Handheld.Proofs.AddressSpace
import Handheld.Proofs.Stack

/-!
# The order of the stack

Words that go on the stack come off it in the reverse order, where the stack pointer has room for
them in RAM and no two of their bytes share a cell. Afterwards the registers are as before, and
nothing is changed but the bytes below the stack pointer and what else shows their cells.

Routines nest in the same way. However they are entered and left, and whatever is done between, a
return goes back to where the innermost routine that is still open was entered, as long as nothing
else moves the stack pointer or writes to the window below it. No order of entries and returns is
fixed here, so this covers every return of a run.
-/

namespace Handheld

set_option autoImplicit false

theorem Word.toNat_add_of_room {word offset : UInt16}
    (room : word.toNat + offset.toNat < 65536) :
    (word + offset).toNat = word.toNat + offset.toNat := by
  rw [UInt16.toNat_add]
  exact Nat.mod_eq_of_lt room

theorem Word.toNat_sub_of_room {word offset : UInt16} (room : offset.toNat ≤ word.toNat) :
    (word - offset).toNat + offset.toNat = word.toNat := by
  rw [UInt16.toNat_sub_of_le _ _ (UInt16.le_iff_toNat_le.mpr room)]
  exact Nat.sub_add_cancel room

/-- The addresses of `depth` words below a stack pointer. -/
def InWindow (top : UInt16) (depth : Nat) (address : UInt16) : Prop :=
  top.toNat ≤ address.toNat + 2 * depth ∧ address.toNat < top.toNat

/-- Below the stack pointer there is room for `depth` words. The cells of work RAM that stand behind
the echo lie outside of the echo, so no two bytes share a cell within one region, nor in a window
that is no longer than the distance to the echo. -/
structure StackWindow (top : UInt16) (depth : Nat) : Prop where
  room : 2 * depth ≤ top.toNat
  ram : ∀ address, InWindow top depth address → (Region.ofAddress address).IsRam
  unshared : (∃ region, ∀ address, InWindow top depth address → Region.ofAddress address = region) ∨
    2 * depth ≤ 0x2000

namespace StackWindow

variable {top sp : UInt16} {depth count : Nat} (window : StackWindow top depth)
include window

theorem apart {address other : UInt16} (inside : InWindow top depth address)
    (also : InWindow top depth other) (differ : address ≠ other) : home address ≠ home other := by
  intro cell
  apply differ
  rcases window.unshared with ⟨region, all⟩ | short
  · have shared : Region.ofAddress address = Region.ofAddress other := by
      rw [all address inside, all other also]
    exact eq_of_region_home shared cell
  · unfold InWindow at inside also
    exact eq_of_near_home cell (by omega) (by omega)

theorem below (place : sp.toNat + 2 * count = top.toNat) (free : count < depth) :
    (sp - 1).toNat + 1 = sp.toNat ∧ (sp - 2).toNat + 2 = sp.toNat := by
  have room := window.room
  constructor
  · exact Word.toNat_sub_of_room (show 1 ≤ sp.toNat by omega)
  · exact Word.toNat_sub_of_room (show 2 ≤ sp.toNat by omega)

theorem slots (place : sp.toNat + 2 * count = top.toNat) (free : count < depth) :
    InWindow top depth (sp - 1) ∧ InWindow top depth (sp - 2) := by
  obtain ⟨high, low⟩ := window.below place free
  unfold InWindow
  omega

theorem slots_ram (place : sp.toNat + 2 * count = top.toNat) (free : count < depth) :
    StackInRam sp := by
  obtain ⟨high, low⟩ := window.slots place free
  exact ⟨window.ram _ high, window.ram _ low⟩

end StackWindow

/-- The words that stand on the stack from an address upwards, the last pushed first. -/
def Board.Holds (board : Board) : UInt16 → List UInt16 → Prop
  | _, [] => True
  | sp, word :: rest =>
      board.read sp = Word.lowByte word ∧ board.read (sp + 1) = Word.highByte word ∧
        board.Holds (sp + 2) rest

/-- Between the stack pointer and `top` stand these words and nothing else. -/
structure Framed (top : UInt16) (words : List UInt16) (context : Context Board) : Prop where
  place : context.registers.sp.toNat + 2 * words.length = top.toNat
  holds : context.bus.Holds context.registers.sp words

theorem Board.Holds.kept {board next : Board} {words : List UInt16} {sp top : UInt16}
    (holds : board.Holds sp words) (place : sp.toNat + 2 * words.length = top.toNat)
    (same : ∀ address, InWindow top words.length address → next.read address = board.read address) :
    next.Holds sp words := by
  induction words generalizing sp with
  | nil => trivial
  | cons word rest induction =>
      have bound := top.toNat_lt
      rw [List.length_cons] at place same
      have second : (sp + 1).toNat = sp.toNat + 1 :=
        Word.toNat_add_of_room (show sp.toNat + 1 < 65536 by omega)
      have third : (sp + 2).toNat = sp.toNat + 2 :=
        Word.toNat_add_of_room (show sp.toNat + 2 < 65536 by omega)
      obtain ⟨low, high, later⟩ := holds
      refine ⟨?_, ?_, ?_⟩
      · rw [same sp (by unfold InWindow; omega), low]
      · rw [same (sp + 1) (by unfold InWindow; omega), high]
      · apply induction later (by omega)
        intro address inside
        apply same address
        unfold InWindow at inside ⊢
        omega

theorem Framed.kept {top : UInt16} {words : List UInt16} {context other : Context Board}
    (framed : Framed top words context) (sp : other.registers.sp = context.registers.sp)
    (same : ∀ address, InWindow top words.length address →
      other.bus.read address = context.bus.read address) : Framed top words other where
  place := by
    rw [sp]
    exact framed.place
  holds := by
    rw [sp]
    exact framed.holds.kept framed.place same

theorem InWindow.deeper {top address : UInt16} {count depth : Nat}
    (inside : InWindow top count address) (shallow : count ≤ depth) :
    InWindow top depth address := by
  unfold InWindow at inside ⊢
  omega

/-- What pushes into a window leave alone. -/
structure SparedOutside (top : UInt16) (depth : Nat) (board next : Board) : Prop where
  bank : next.bank = board.bank
  timer : next.timer = board.timer
  joypad : next.joypad = board.joypad
  /-- An address that is not in the window and shares no cell with it. -/
  read : ∀ shown, (∀ slot, InWindow top depth slot → home shown ≠ home slot) →
    next.read shown = board.read shown

theorem SparedOutside.trans {top : UInt16} {depth : Nat} {board middle next : Board}
    (first : SparedOutside top depth board middle) (second : SparedOutside top depth middle next) :
    SparedOutside top depth board next where
  bank := second.bank.trans first.bank
  timer := second.timer.trans first.timer
  joypad := second.joypad.trans first.joypad
  read shown outside := (second.read shown outside).trans (first.read shown outside)

theorem Board.read_stacked (board : Board) {sp shown : UInt16} (high : home shown ≠ home (sp - 1))
    (low : home shown ≠ home (sp - 2)) (word : UInt16) :
    (board.stacked sp word).read shown = board.read shown := by
  rw [stacked, read_write_apart _ low, read_write_apart _ high]

namespace Context

section Push

variable {top : UInt16} {depth : Nat} (window : StackWindow top depth) {words : List UInt16}
  {context : Context Board} (framed : Framed top words context) (free : words.length < depth)
include window framed free

theorem push_framed (word : UInt16) : Framed top (word :: words) (context.push word) := by
  obtain ⟨high, low⟩ := window.slots framed.place free
  obtain ⟨first, second⟩ := window.below framed.place free
  have ram := window.slots_ram framed.place free
  have above : context.registers.sp - 2 + 1 = context.registers.sp - 1 := by grind
  have back : context.registers.sp - 2 + 2 = context.registers.sp := by grind
  have place := framed.place
  constructor
  · rw [push_registers, Registers.sp_setSp, List.length_cons]
    omega
  · rw [push_registers, Registers.sp_setSp, push_bus]
    refine ⟨?_, ?_, ?_⟩
    · rw [Board.stacked_ram _ ram, Board.read_ram ram.low]
      exact Memory.read_stack_low _ _
    · rw [above, Board.stacked_ram _ ram, Board.read_ram ram.high]
      exact Memory.read_stack_high _ _ ram
    · rw [back]
      apply framed.holds.kept framed.place
      -- The older words stand above both slots.
      intro address older
      have inside := older.deeper (Nat.le_of_lt free)
      unfold InWindow at older
      apply Board.read_stacked
      · apply window.apart inside high
        rintro rfl
        omega
      · apply window.apart inside low
        rintro rfl
        omega

theorem push_spares (word : UInt16) :
    SparedOutside top depth context.bus (context.push word).bus := by
  obtain ⟨high, low⟩ := window.slots framed.place free
  have ram := window.slots_ram framed.place free
  have pushed : (context.push word).bus = context.bus.stacked context.registers.sp word :=
    push_bus word
  rw [pushed]
  constructor
  · rw [Board.stacked_ram _ ram]
  · rw [Board.stacked_ram _ ram]
  · rw [Board.stacked_ram _ ram]
  · intro shown outside
    exact Board.read_stacked _ (outside _ high) (outside _ low) word

end Push

theorem pop_of_framed {top word : UInt16} {rest : List UInt16} {context : Context Board}
    (framed : Framed top (word :: rest) context) :
    context.pop.1 = word ∧ Framed top rest context.pop.2 := by
  obtain ⟨place, low, high, later⟩ := framed
  have bound := top.toNat_lt
  rw [List.length_cons] at place
  have above : (context.registers.sp + 2).toNat = context.registers.sp.toNat + 2 :=
    Word.toNat_add_of_room (show context.registers.sp.toNat + 2 < 65536 by omega)
  constructor
  · change Word.ofBytes (context.bus.read (context.registers.sp + 1))
      (context.bus.read context.registers.sp) = word
    rw [low, high, Word.ofBytes_highByte_lowByte]
  · constructor
    · change (context.registers.setSp (context.registers.sp + 2)).sp.toNat + _ = _
      rw [Registers.sp_setSp, above]
      omega
    · change context.bus.Holds (context.registers.setSp (context.registers.sp + 2)).sp rest
      rw [Registers.sp_setSp]
      exact later

/-- Pushes the words one after another, the first of the list first. -/
def pushAll (context : Context Board) (words : List UInt16) : Context Board :=
  words.foldl push context

/-- Pops a number of words; the first of the list is the first that came off. -/
def popAll : Nat → Context Board → List UInt16 × Context Board
  | 0, context => ([], context)
  | count + 1, context =>
    let (word, context) := context.pop
    let (words, context) := popAll count context
    (word :: words, context)

theorem push_all_registers (context : Context Board) (words : List UInt16) :
    ∃ sp, (context.pushAll words).registers = context.registers.setSp sp := by
  induction words generalizing context with
  | nil => exact ⟨_, context.registers.setSp_sp.symm⟩
  | cons word rest induction =>
      obtain ⟨sp, same⟩ := induction (context.push word)
      rw [push_registers, Registers.setSp_setSp] at same
      exact ⟨sp, same⟩

theorem pop_all_registers (count : Nat) (context : Context Board) :
    ∃ sp, (popAll count context).2.registers = context.registers.setSp sp := by
  induction count generalizing context with
  | zero => exact ⟨_, context.registers.setSp_sp.symm⟩
  | succ count induction =>
      obtain ⟨sp, same⟩ := induction context.pop.2
      change _ = (context.registers.setSp (context.registers.sp + 2)).setSp sp at same
      rw [Registers.setSp_setSp] at same
      exact ⟨sp, same⟩

theorem pop_all_bus (count : Nat) (context : Context Board) :
    (popAll count context).2.bus = context.bus := by
  induction count generalizing context with
  | zero => rfl
  | succ count induction => exact induction context.pop.2

theorem push_all_framed {top : UInt16} {depth : Nat} (window : StackWindow top depth)
    (words : List UInt16) {older : List UInt16} {context : Context Board}
    (framed : Framed top older context) (free : older.length + words.length ≤ depth) :
    Framed top (words.reverse ++ older) (context.pushAll words) ∧
      SparedOutside top depth context.bus (context.pushAll words).bus := by
  induction words generalizing older context with
  | nil => exact ⟨framed, rfl, rfl, rfl, fun _ _ => rfl⟩
  | cons word rest induction =>
      rw [List.length_cons] at free
      have fits : older.length < depth := by omega
      have pushed := push_framed window framed fits word
      have spared := push_spares window framed fits word
      obtain ⟨all, others⟩ := induction pushed (by rw [List.length_cons]; omega)
      rw [List.reverse_cons, List.append_assoc]
      exact ⟨all, spared.trans others⟩

theorem pop_all_of_framed {top : UInt16} {words older : List UInt16} {context : Context Board}
    (framed : Framed top (words ++ older) context) :
    (popAll words.length context).1 = words ∧ Framed top older (popAll words.length context).2 := by
  induction words generalizing context with
  | nil => exact ⟨rfl, framed⟩
  | cons word rest induction =>
      obtain ⟨same, later⟩ := pop_of_framed framed
      obtain ⟨words, last⟩ := induction later
      exact ⟨List.cons_eq_cons.mpr ⟨same, words⟩, last⟩

structure ComesBack (context : Context Board) (words : List UInt16) : Prop where
  reversed : (popAll words.length (context.pushAll words)).1 = words.reverse
  registers : (popAll words.length (context.pushAll words)).2.registers = context.registers
  spared : SparedOutside context.registers.sp words.length context.bus
    (popAll words.length (context.pushAll words)).2.bus

theorem comes_back {context : Context Board} {words : List UInt16}
    (window : StackWindow context.registers.sp words.length) : ComesBack context words := by
  have empty : Framed context.registers.sp [] context := ⟨rfl, trivial⟩
  obtain ⟨full, spared⟩ := push_all_framed window words empty (by simp)
  obtain ⟨reversed, emptied⟩ := pop_all_of_framed full
  rw [List.length_reverse] at reversed emptied
  have place : (popAll words.length (context.pushAll words)).2.registers.sp =
      context.registers.sp := UInt16.toNat.inj emptied.place
  obtain ⟨down, pushed⟩ := context.push_all_registers words
  obtain ⟨up, popped⟩ := pop_all_registers words.length (context.pushAll words)
  constructor
  · exact reversed
  · rw [popped, Registers.sp_setSp] at place
    rw [popped, pushed, Registers.setSp_setSp, place, Registers.setSp_sp]
  · rw [pop_all_bus]
    exact spared

section Enter

variable {top : UInt16} {depth : Nat} (window : StackWindow top depth) {words : List UInt16}
  {context : Context Board} (framed : Framed top words context) (free : words.length < depth)
include window framed free

theorem restart_framed (vector : UInt16) :
    Framed top (context.registers.pc :: words) (Instruction.restart vector context) := by
  apply (push_framed window framed free context.registers.pc).kept
  · change (((_ : Registers).setPc vector).setCost _).sp = _
    rw [Registers.sp_setCost, Registers.sp_setPc]
  · intro address _
    rfl

theorem enter_framed (source : Interrupt) :
    Framed top (context.registers.pc :: words) (context.enter source) := by
  have entering : Framed top words
      ⟨(context.registers.setIme false).setHalted false,
        { context.bus with bank := context.bus.bank.acknowledge source }⟩ := by
    apply framed.kept
    · rfl
    · intro address older
      have ram := window.ram address (older.deeper (Nat.le_of_lt free))
      rw [Board.read_ram ram, Board.read_ram ram]
  exact restart_framed window entering free source.vector

end Enter

end Context

def Opcode.Returns (opcode : UInt8) : Prop :=
  opcode = Opcode.ret ∨ opcode = Opcode.retEnable

namespace OpcodeTable

theorem dispatch_return {opcode : UInt8} (returning : Opcode.Returns opcode)
    (context : Context Board) :
    ∃ left : Context Board, control.dispatch opcode context = ⟨left, .ok ()⟩ ∧
      left.registers.pc = context.pop.1 ∧ left.registers.sp = context.pop.2.registers.sp ∧
      left.bus = context.pop.2.bus := by
  rcases returning with rfl | rfl
  · have decoded : ControlInstruction.decode Opcode.ret = some .ret := rfl
    refine ⟨Instruction.ret context, dispatch_control decoded context, ?_⟩
    simp [Instruction.ret, Instruction.charge, Context.setCost, Context.mapRegisters]
  · have decoded : ControlInstruction.decode Opcode.retEnable = some .retEnable := rfl
    refine ⟨Instruction.retEnable context, dispatch_control decoded context, ?_⟩
    simp [Instruction.retEnable, Instruction.charge, Context.setCost, Context.mapRegisters]

theorem return_of_framed {top target : UInt16} {words : List UInt16} {context : Context Board}
    (framed : Framed top (target :: words) context) {opcode : UInt8}
    (returning : Opcode.Returns opcode) :
    (control.dispatch opcode context).answer = .ok () ∧
      (control.dispatch opcode context).state.registers.pc = target ∧
      Framed top words (control.dispatch opcode context).state := by
  obtain ⟨word, popped⟩ := Context.pop_of_framed framed
  obtain ⟨left, dispatched, pc, sp, bus⟩ := dispatch_return returning context
  rw [dispatched]
  refine ⟨rfl, pc.trans word, popped.kept sp ?_⟩
  intro address _
  rw [bus]

end OpcodeTable

namespace Context

/-- What was done from `start` on: routines were entered and left, with other work between that
leaves the stack pointer and the window alone. `returns` are the program counters that were pushed
by the entries still open, the innermost first. -/
inductive Nested (start : Context Board) (depth : Nat) : List UInt16 → Context Board → Prop where
  | start : Nested start depth [] start
  | restart {returns : List UInt16} {context : Context Board} {opcode : UInt8} {vector : UInt16}
      (earlier : Nested start depth returns context) (free : returns.length < depth)
      (listed : (opcode, vector) ∈ Opcode.restarts) :
      Nested start depth (context.registers.pc :: returns)
        (OpcodeTable.control.dispatch opcode context).state
  | delivery {returns : List UInt16} {context : Context Board}
      (earlier : Nested start depth returns context) (free : returns.length < depth)
      (source : Interrupt) :
      Nested start depth (context.registers.pc :: returns) (context.enter source)
  | leave {target : UInt16} {returns : List UInt16} {context : Context Board} {opcode : UInt8}
      (earlier : Nested start depth (target :: returns) context)
      (returning : Opcode.Returns opcode) :
      Nested start depth returns (OpcodeTable.control.dispatch opcode context).state
  | work {returns : List UInt16} {context other : Context Board}
      (earlier : Nested start depth returns context)
      (sp : other.registers.sp = context.registers.sp)
      (spared : ∀ address, InWindow start.registers.sp depth address →
        other.bus.read address = context.bus.read address) :
      Nested start depth returns other

theorem nested_framed {start context : Context Board} {depth : Nat} {returns : List UInt16}
    (window : StackWindow start.registers.sp depth) (nested : Nested start depth returns context) :
    Framed start.registers.sp returns context ∧ returns.length ≤ depth := by
  induction nested with
  | start => exact ⟨⟨rfl, trivial⟩, Nat.zero_le _⟩
  | restart earlier free listed induction =>
      rw [OpcodeTable.dispatch_control (ControlInstruction.decode_restart listed)]
      exact ⟨restart_framed window induction.1 free _, free⟩
  | delivery earlier free source induction =>
      exact ⟨enter_framed window induction.1 free source, free⟩
  | leave earlier returning induction =>
      have left := OpcodeTable.return_of_framed induction.1 returning
      exact ⟨left.2.2, Nat.le_of_succ_le induction.2⟩
  | work earlier sp spared induction =>
      refine ⟨induction.1.kept sp ?_, induction.2⟩
      intro address older
      exact spared address (older.deeper induction.2)

theorem stack_is_last_in_first_out (context : Context Board) (depth : Nat)
    (window : StackWindow context.registers.sp depth) :
    (∀ words : List UInt16, words.length = depth → ComesBack context words) ∧
      ∀ (target : UInt16) (returns : List UInt16) (reached : Context Board),
        Nested context depth (target :: returns) reached →
        ∀ opcode, Opcode.Returns opcode →
          (OpcodeTable.control.dispatch opcode reached).answer = .ok () ∧
            (OpcodeTable.control.dispatch opcode reached).state.registers.pc = target := by
  constructor
  · rintro words rfl
    exact comes_back window
  · intro target returns reached nested opcode returning
    obtain ⟨framed, _⟩ := nested_framed window nested
    obtain ⟨answered, pc, _⟩ := OpcodeTable.return_of_framed framed returning
    exact ⟨answered, pc⟩

def calling : Context Board := ⟨(Registers.zero.setSp 0xE104).setPc 0xC123, .bare⟩

def interruptedCall : Context Board :=
  (OpcodeTable.control.dispatch 0xEF calling).state.enter .timer

theorem echo_is_last_in_first_out :
    StackWindow calling.registers.sp 2 ∧
      (popAll 2 (calling.pushAll [0x1234, 0xABCD])).1 = [0xABCD, 0x1234] ∧
      Nested calling 2 [0x0028, 0xC123] interruptedCall ∧
      (OpcodeTable.control.dispatch Opcode.retEnable interruptedCall).state.registers.pc = 0x0028 := by
  have window : StackWindow calling.registers.sp 2 := by
    have echo : ∀ address, InWindow calling.registers.sp 2 address →
        Region.ofAddress address = .echo := by
      intro address inside
      obtain ⟨above, below⟩ : 0xE104 ≤ address.toNat + 4 ∧ address.toNat < 0xE104 := inside
      rw [Region.of_address_eq_iff, UInt16.le_iff_toNat_le, UInt16.le_iff_toNat_le]
      change 0xE000 ≤ address.toNat ∧ address.toNat ≤ 0xFDFF
      omega
    refine ⟨by decide, ?_, .inl ⟨.echo, echo⟩⟩
    intro address inside
    rw [echo address inside]
    trivial
  have listed : (0xEF, 0x0028) ∈ Opcode.restarts := by decide
  have called : Nested calling 2 [0xC123] (OpcodeTable.control.dispatch 0xEF calling).state :=
    .restart .start (by decide) listed
  have nested : Nested calling 2 [0x0028, 0xC123] interruptedCall :=
    .delivery called (by decide) .timer
  obtain ⟨words, returns⟩ := stack_is_last_in_first_out calling 2 window
  exact ⟨window, (words [0x1234, 0xABCD] rfl).reversed, nested,
    (returns 0x0028 [0xC123] interruptedCall nested Opcode.retEnable (.inr rfl)).2⟩

end Context

end Handheld
