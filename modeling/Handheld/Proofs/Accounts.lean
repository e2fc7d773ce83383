import Handheld.Proofs.RunTrace

/-!
# Accounts of the stack and of the clock

How often the trace of a run tells of each kind of instruction, of a delivery and of an idle cycle,
settles where the stack pointer ends and how far the tick counter has come. A restart and a delivery
push one word each, a return pops one; jumps, returns, restarts and deliveries take four machine
cycles each, everything else takes one. The other registers stay as they are.
-/

namespace Handheld

set_option autoImplicit false

namespace ControlInstruction

def isRestart : ControlInstruction → Bool
  | restart _ => true
  | nop | halt | disableInterrupts | enableInterrupts | jump | ret | retEnable => false

def isReturn : ControlInstruction → Bool
  | ret | retEnable => true
  | nop | halt | disableInterrupts | enableInterrupts | jump | restart _ => false

def isJump : ControlInstruction → Bool
  | jump => true
  | nop | halt | disableInterrupts | enableInterrupts | ret | retEnable | restart _ => false

/-- The instructions that go on behind their opcode. -/
def goesOn : ControlInstruction → Bool
  | nop | halt | disableInterrupts | enableInterrupts => true
  | jump | ret | retEnable | restart _ => false

theorem settled_sp (instruction : ControlInstruction) (registers : Registers) (target : UInt16) :
    (instruction.settled registers target).sp =
      registers.sp - 2 * UInt16.ofNat instruction.isRestart.toNat +
        2 * UInt16.ofNat instruction.isReturn.toNat := by
  cases instruction with
  | nop | halt | disableInterrupts | enableInterrupts | jump | ret | retEnable =>
      simp [settled, isRestart, isReturn, Registers.advancePc]
  | restart => simp [settled, isRestart, isReturn, Word.two_below]

theorem cycles_eq (instruction : ControlInstruction) :
    instruction.cycles.toNat =
      instruction.goesOn.toNat +
        4 * (instruction.isJump.toNat + instruction.isRestart.toNat +
          instruction.isReturn.toNat) := by
  cases instruction with
  | nop | halt | disableInterrupts | enableInterrupts | jump | ret | retEnable | restart => rfl

end ControlInstruction

def Event.isIdle : Event → Bool
  | idled _ => true
  | fetched _ _ | delivered _ _ | retired _ _ => false

def carriedOut (kind : ControlInstruction → Bool) (events : List Event) : Nat :=
  events.countP (·.carriesOut kind)

def restarts (events : List Event) : Nat := carriedOut ControlInstruction.isRestart events

def returns (events : List Event) : Nat := carriedOut ControlInstruction.isReturn events

def jumps (events : List Event) : Nat := carriedOut ControlInstruction.isJump events

def deliveries (events : List Event) : Nat := events.countP Event.isDelivery

/-- The idle cycles, and the instructions of one cycle. -/
def singles (events : List Event) : Nat :=
  events.countP Event.isIdle + carriedOut ControlInstruction.goesOn events

/-- The registers and the cycles between two points, as the events there account for them. -/
structure Booked (before after : Registers) (cycles : Nat) (events : List Event) : Prop where
  sp_eq : after.sp =
    before.sp - 2 * UInt16.ofNat (restarts events + deliveries events) +
      2 * UInt16.ofNat (returns events)
  cycles_eq : cycles =
    singles events + 4 * (jumps events + restarts events + returns events) + 4 * deliveries events
  kept : ∀ view, view ≠ .m → after.get8 view = before.get8 view

theorem booked_both {first middle last : Registers} {cycles more : Nat}
    {events later : List Event} (one : Booked first middle cycles events)
    (two : Booked middle last more later) :
    Booked first last (cycles + more) (events ++ later) := by
  have counted : ∀ kind,
      carriedOut kind (events ++ later) = carriedOut kind events + carriedOut kind later :=
    fun _ => List.countP_append
  constructor
  · rw [two.sp_eq, one.sp_eq]
    simp only [restarts, returns, deliveries, counted, List.countP_append, UInt16.ofNat_add]
    grind
  · rw [one.cycles_eq, two.cycles_eq]
    simp only [singles, jumps, restarts, returns, deliveries, counted, List.countP_append]
    omega
  · intro view notCost
    exact (two.kept view notCost).trans (one.kept view notCost)

theorem sp_unmoved (sp : UInt16) : sp = sp - 2 * UInt16.ofNat 0 + 2 * UInt16.ofNat 0 := by
  simp

theorem booked_instruction {registers : Registers} (board : Board) {opcode : UInt8}
    {instruction : ControlInstruction}
    (decoded : ControlInstruction.decode opcode = some instruction) :
    Booked registers (instruction.handler ⟨registers.advancePc, board⟩).registers
      (instruction.handler ⟨registers.advancePc, board⟩).registers.cost.toNat
      [.fetched registers.pc opcode] := by
  have counted : ∀ kind, carriedOut kind [.fetched registers.pc opcode] =
      (kind instruction).toNat := by
    intro kind
    rw [carriedOut, List.countP_singleton, Event.carries_out_fetched decoded]
    exact (Bool.cond_eq_ite _ _ _).symm
  have awake : [Event.fetched registers.pc opcode].countP Event.isIdle = 0 := rfl
  have undelivered : deliveries [.fetched registers.pc opcode] = 0 := rfl
  rw [instruction.handler_registers]
  constructor
  · rw [Registers.sp_setCost, instruction.settled_sp, restarts, returns, counted, counted,
      undelivered, Nat.add_zero, Registers.advancePc, Registers.sp_setPc]
  · rw [Registers.cost_setCost, instruction.cycles_eq, singles, jumps, restarts, returns]
    simp only [counted, awake, undelivered, Nat.zero_add, Nat.mul_zero, Nat.add_zero]
  · intro view notCost
    rw [Registers.get8_setCost _ notCost, instruction.settled_get8]
    exact Registers.get8_setPc _ view _

theorem adds_up_booked : AddsUp Booked where
  nothing registers := ⟨sp_unmoved _, rfl, fun _ _ => rfl⟩
  both := booked_both
  idle registers _ :=
    { sp_eq := (Registers.sp_setCost _ _).trans (sp_unmoved _)
      cycles_eq := rfl
      kept := fun _ notCost => Registers.get8_setCost _ notCost _ }
  instruction _ board _ _ _ decoded := booked_instruction board decoded
  delivery context source _ := by
    rw [Context.enter_registers]
    constructor
    · rw [Registers.sp_setCost, Registers.sp_setPc, Registers.sp_setSp, Word.two_below]
      exact (UInt16.add_zero _).symm
    · rfl
    · intro view notCost
      simp [Registers.get8_setCost _ notCost]
  cleared registers :=
    { sp_eq := (Registers.sp_setCost _ _).trans (sp_unmoved _)
      cycles_eq := rfl
      kept := fun _ notCost => Registers.get8_setCost _ notCost _ }
  retired _ _ _ := ⟨sp_unmoved _, rfl, fun _ _ => rfl⟩

namespace System

structure Balances (start final : System) (trace : List Event) : Prop where
  sp_eq : final.cpu.registers.sp =
    start.cpu.registers.sp - 2 * UInt16.ofNat (restarts trace + deliveries trace) +
      2 * UInt16.ofNat (returns trace)
  ticks_eq : final.cpu.ticks.toNat =
    start.cpu.ticks.toNat +
      4 * (singles trace + 4 * (jumps trace + restarts trace + returns trace) +
        4 * deliveries trace)
  kept : ∀ view, view ≠ .m → final.cpu.registers.get8 view = start.cpu.registers.get8 view

theorem run_balances {start final : System} {log : List Occurrence}
    (control : start.cpu.table = .control) (run : Run start log final) :
    start.Balances final (runTrace log) := by
  obtain ⟨cycles, booked, ticks⟩ := run_holds adds_up_booked control run
  rw [booked.cycles_eq] at ticks
  exact ⟨booked.sp_eq, ticks, booked.kept⟩

theorem napping_balances :
    napping.cpu.table = .control ∧ napping.Run nappingLog nappingPressed.next.next ∧
      (singles (runTrace nappingLog), returns (runTrace nappingLog),
        deliveries (runTrace nappingLog)) = (2, 1, 3) ∧
      napping.Balances nappingPressed.next.next (runTrace nappingLog) :=
  ⟨rfl, napping_run, rfl, run_balances rfl napping_run⟩

end System

end Handheld
