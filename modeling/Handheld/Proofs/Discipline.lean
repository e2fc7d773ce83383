import Handheld.Proofs.Latch
import Handheld.Proofs.RunTrace

/-!
# The discipline of interrupts and of the halt state

Two latches follow a run of control instructions. The master switch is set by the instructions that
enable interrupts, and cleared by the one that disables them and by every delivery. The halt state
is set by the halt instruction and cleared by deliveries only. A delivery needs the first of them
on, and a step idles just when the second is.
-/

namespace Handheld

set_option autoImplicit false

namespace ControlInstruction

def enables : ControlInstruction → Bool
  | enableInterrupts | retEnable => true
  | nop | halt | disableInterrupts | jump | ret | restart _ => false

def disables : ControlInstruction → Bool
  | disableInterrupts => true
  | nop | halt | enableInterrupts | jump | ret | retEnable | restart _ => false

def halts : ControlInstruction → Bool
  | halt => true
  | nop | disableInterrupts | enableInterrupts | jump | ret | retEnable | restart _ => false

variable {β : Type} [Bus β]

theorem handler_ime (instruction : ControlInstruction) (context : Context β) :
    (instruction.handler context).registers.ime =
      (instruction.enables || (context.registers.ime && !instruction.disables)) := by
  cases instruction with
  | enableInterrupts | retEnable => rfl
  | disableInterrupts => exact (Bool.and_false _).symm
  | nop | halt | jump | ret | restart => exact (Bool.and_true _).symm

theorem handler_halted (instruction : ControlInstruction) (context : Context β) :
    (instruction.handler context).registers.halted =
      (instruction.halts || context.registers.halted) := by
  cases instruction with
  | halt => rfl
  | nop | disableInterrupts | enableInterrupts | jump | ret | retEnable | restart => rfl

end ControlInstruction

def masterSwitch : Latch Event where
  sets event := event.carriesOut ControlInstruction.enables
  clears event := event.carriesOut ControlInstruction.disables || event.isDelivery

def haltState : Latch Event where
  sets event := event.carriesOut ControlInstruction.halts
  clears event := event.isDelivery

def DeliveredWith (on : Bool) (event : Event) : Prop :=
  event.isDelivery = true → on = true

theorem delivered_with_silent (on : Bool) {event : Event} (silent : event.isDelivery = false) :
    DeliveredWith on event := by
  intro delivers
  exact absurd (silent.symm.trans delivers) Bool.false_ne_true

def BegunIn (halted : Bool) : Event → Prop
  | .idled _ => halted = true
  | .fetched _ _ => halted = false
  | .delivered _ _ | .retired _ _ => True

/-- The events between two register files, as the latches allow and follow them. -/
structure Follows (before after : Registers) (_cycles : Nat) (events : List Event) : Prop where
  ime : after.ime = masterSwitch.after before.ime events
  halted : after.halted = haltState.after before.halted events
  delivered : masterSwitch.Guards DeliveredWith before.ime events
  begun : haltState.Guards BegunIn before.halted events

theorem follows_both {first middle last : Registers} {cycles more : Nat}
    {events later : List Event} (one : Follows first middle cycles events)
    (two : Follows middle last more later) :
    Follows first last (cycles + more) (events ++ later) := by
  constructor
  · rw [two.ime, one.ime, Latch.after_append]
  · rw [two.halted, one.halted, Latch.after_append]
  · rw [Latch.guards_append, ← one.ime]
    exact ⟨one.delivered, two.delivered⟩
  · rw [Latch.guards_append, ← one.halted]
    exact ⟨one.begun, two.begun⟩

theorem follows_instruction {registers : Registers} {opcode : UInt8}
    {instruction : ControlInstruction} (board : Board) (running : registers.halted = false)
    (decoded : ControlInstruction.decode opcode = some instruction) (cycles : Nat) :
    Follows registers (instruction.handler ⟨registers.advancePc, board⟩).registers cycles
      [.fetched registers.pc opcode] := by
  have kind := Event.carries_out_fetched decoded registers.pc
  constructor
  · have switched : masterSwitch.next registers.ime (.fetched registers.pc opcode) =
        (instruction.enables || (registers.ime && !instruction.disables)) := by
      simp only [Latch.next, masterSwitch, kind, Event.isDelivery, Event.delivered?,
        Option.isSome_none, Bool.or_false]
    exact (instruction.handler_ime _).trans switched.symm
  · have switched : haltState.next registers.halted (.fetched registers.pc opcode) =
        (instruction.halts || registers.halted) := by
      simp only [Latch.next, haltState, kind, Event.isDelivery, Event.delivered?,
        Option.isSome_none, Bool.not_false, Bool.and_true]
    exact (instruction.handler_halted _).trans switched.symm
  · exact ⟨delivered_with_silent _ rfl, trivial⟩
  · exact ⟨running, trivial⟩

theorem adds_up_follows : AddsUp Follows where
  nothing _ := ⟨rfl, rfl, trivial, trivial⟩
  both := follows_both
  idle _ halted :=
    { ime := (Bool.and_true _).symm
      halted := (Bool.and_true _).symm
      delivered := ⟨delivered_with_silent _ rfl, trivial⟩
      begun := ⟨halted, trivial⟩ }
  instruction _ board _ _ running decoded := follows_instruction board running decoded _
  delivery _ _ ime :=
    { ime := (Bool.and_false _).symm
      halted := (Bool.and_false _).symm
      delivered := ⟨fun _ => ime, trivial⟩
      begun := ⟨trivial, trivial⟩ }
  cleared _ := ⟨rfl, rfl, trivial, trivial⟩
  retired _ _ _ :=
    { ime := (Bool.and_true _).symm
      halted := (Bool.and_true _).symm
      delivered := ⟨delivered_with_silent _ rfl, trivial⟩
      begun := ⟨trivial, trivial⟩ }

namespace System

def Idles (before : System) : Prop :=
  ∃ pc, .idled pc ∈ before.cpu.events before.board

def Fetches (before : System) : Prop :=
  ∃ pc opcode, .fetched pc opcode ∈ before.cpu.events before.board

def Delivers (before : System) : Prop :=
  ∃ source, .delivery source ∈ before.cpu.events before.board

section Step

variable {before : System} {cost : UInt32}

theorem mem_step_events (completed : before.Completes cost) {event : Event} :
    event ∈ before.cpu.events before.board ↔
      event = before.cpu.opening before.board ∨
        (∃ source, event = .delivery source ∧
          before.cpu.delivery? before.board = some source) ∨
          event = .retired cost before.next.cpu.ticks := by
  have law := Cpu.step_completed _ _ completed
  rw [law.events_eq, Cpu.execute_opening, Cpu.serviced_delivery]
  simp [next, and_comm, eq_comm]

theorem idles_iff (completed : before.Completes cost) :
    before.Idles ↔ before.cpu.registers.halted = true := by
  cases halted : before.cpu.registers.halted <;>
    simp [Idles, mem_step_events completed, Cpu.opening, Event.delivery, halted]

theorem fetches_iff (completed : before.Completes cost) :
    before.Fetches ↔ ¬before.cpu.registers.halted = true := by
  cases halted : before.cpu.registers.halted <;>
    simp [Fetches, mem_step_events completed, Cpu.opening, Event.delivery, halted]

theorem delivers_of_woken (control : before.cpu.table = .control)
    (completed : before.Completes cost) (halted : before.cpu.registers.halted = true)
    (woken : before.next.cpu.registers.halted = false) : before.Delivers := by
  have follows := step_holds adds_up_follows control completed
  cases served : before.cpu.delivery? before.board with
  | some source =>
      exact ⟨source, (mem_step_events completed).mpr (.inr (.inl ⟨source, rfl, served⟩))⟩
  | none =>
      have kept : haltState.after before.cpu.registers.halted
          (before.cpu.events before.board) = true := by
        refine (haltState.after_iff _ _).mpr (.inl ⟨halted, fun event told => ?_⟩)
        rcases (mem_step_events completed).mp told with rfl | ⟨source, _, some⟩ | rfl
        · rw [Cpu.opening, if_pos halted]
          rfl
        · rw [served] at some
          contradiction
        · rfl
      rw [← follows.halted, woken] at kept
      contradiction

end Step

/-- What holds for the interrupts and the halt state in a run. -/
structure Disciplined (start : System) (log : List Occurrence) : Prop where
  /-- The instruction may be the one of the step that makes the second delivery. -/
  enabled_between : ∀ {earlier middle later : List Event} {first second : Interrupt}
    {vector other : UInt16},
    runTrace log =
        earlier ++ .delivered first vector :: (middle ++ .delivered second other :: later) →
      ∃ event ∈ middle, event.carriesOut ControlInstruction.enables = true
  enabled_before : ∀ {earlier later : List Event} {source : Interrupt} {vector : UInt16},
    runTrace log = earlier ++ .delivered source vector :: later →
      masterSwitch.LeftOn start.cpu.registers.ime earlier
  idles_iff : ∀ {earlier later : List Occurrence} {before : System} {cost : UInt32},
    log = earlier ++ .step before cost :: later →
      (before.Idles ↔ haltState.LeftOn start.cpu.registers.halted (runTrace earlier)) ∧
        (before.Fetches ↔ ¬haltState.LeftOn start.cpu.registers.halted (runTrace earlier))
  delivers_of_woken : ∀ {before : System} {cost : UInt32}, .step before cost ∈ log →
    before.cpu.registers.halted = true → before.next.cpu.registers.halted = false →
      before.Delivers

theorem run_disciplined {start final : System} {log : List Occurrence}
    (control : start.cpu.table = .control) (run : Run start log final) :
    start.Disciplined log := by
  obtain ⟨_, follows, _⟩ := run_holds adds_up_follows control run
  constructor
  · intro earlier middle later first second vector other split
    have guards := follows.delivered
    rw [split] at guards
    -- The first delivery leaves the switch off, so something set it for the second.
    exact Latch.set_between guards (Bool.and_false _) (fun _ needs => needs rfl)
  · intro earlier later source vector split
    have guards := follows.delivered
    rw [split] at guards
    exact (masterSwitch.after_iff _ _).mp (Latch.allowed_of_guards guards rfl)
  · intro earlier later before cost split
    obtain ⟨upTo, completed⟩ := run_up_to run split
    obtain ⟨_, reached, _⟩ := run_holds adds_up_follows control upTo
    rw [idles_iff completed, fetches_iff completed, reached.halted, haltState.after_iff]
    exact ⟨.rfl, .rfl⟩
  · intro before cost member halted woken
    obtain ⟨earlier, later, split⟩ := List.append_of_mem member
    obtain ⟨upTo, completed⟩ := run_up_to run split
    rw [← run_table upTo] at control
    exact System.delivers_of_woken control completed halted woken

theorem napping_disciplined :
    napping.cpu.table = .control ∧ napping.Run nappingLog nappingPressed.next.next ∧
      napping.Disciplined nappingLog :=
  ⟨rfl, napping_run, run_disciplined rfl napping_run⟩

end System

end Handheld
