import Handheld.Proofs.RequestLedger
import Handheld.Proofs.System

/-!
# No request is lost, invented or delivered twice

The history of a run is the ledger of its requests and deliveries. In one step the delivery comes
before the passes of the counter, so a request of the timer in the step of its own delivery is
entered after it and stays open.
-/

namespace Handheld

set_option autoImplicit false

def HostAction.marks : HostAction → List Mark
  | keyDown _ => [.requested .joypad]
  | request source => [.requested source]
  | keyUp _ | write _ _ | load _ _ | attachTimer _ | detachTimer | reset => []

/-- The delivery of a step, then one request for each time the counter passes 255. -/
def System.stepMarks (before : System) : List Mark :=
  ((before.cpu.events before.board).filterMap Event.delivered?).map .delivered ++
    List.replicate
      ((before.cpu.serviced before.board).2.bus.overflows
        (before.cpu.stepCycles before.board).toNat)
      (.requested .timer)

def Occurrence.marks : Occurrence → List Mark
  | step before _ => before.stepMarks
  | host action => action.marks

def Board.openRequests (board : Board) : List Mark :=
  (Interrupt.all.filter board.bank.isRequested).map .requested

def System.history (start : System) (log : List Occurrence) : List Mark :=
  start.board.openRequests ++ log.flatMap Occurrence.marks

/-- The marks tell what became of the request of a source on the way from one board to another. -/
structure Tracks (source : Interrupt) (before after : Board) (marks : List Mark) : Prop where
  served : Served source (before.bank.isRequested source) marks
  waits : after.bank.isRequested source =
    waitsAfter source (before.bank.isRequested source) marks

section Tracks

variable {source : Interrupt} {before middle after : Board}

theorem tracks_append {earlier later : List Mark} (first : Tracks source before middle earlier)
    (second : Tracks source middle after later) :
    Tracks source before after (earlier ++ later) := by
  constructor
  · rw [served_append, ← first.waits]
    exact ⟨first.served, second.served⟩
  · rw [waits_after_append, ← first.waits]
    exact second.waits

theorem tracks_same_flag (same : after.bank.flag = before.bank.flag) :
    Tracks source before after [] := by
  constructor
  · trivial
  · simp only [InterruptBank.isRequested, same]
    rfl

theorem tracks_request (requested : Interrupt)
    (flag : after.bank.flag = (before.bank.request requested).flag) :
    Tracks source before after [.requested requested] := by
  constructor
  · exact ⟨fun impossible => by contradiction, trivial⟩
  · have bit := before.bank.is_requested_request requested source
    simp only [InterruptBank.isRequested, ← flag] at bit ⊢
    exact bit

theorem tracks_delivery {delivered : Interrupt}
    (requested : before.bank.isRequested delivered = true)
    (flag : after.bank.flag = (before.bank.acknowledge delivered).flag) :
    Tracks source before after [.delivered delivered] := by
  constructor
  · refine ⟨?_, trivial⟩
    intro same
    rw [← Mark.delivered.inj same]
    exact requested
  · have bit := before.bank.is_requested_acknowledge delivered source
    simp only [InterruptBank.isRequested, ← flag] at bit ⊢
    exact bit

theorem tracks_elapse (board : Board) (cycles : Nat) :
    Tracks source board (board.elapse cycles)
      (List.replicate (board.overflows cycles) (.requested .timer)) := by
  unfold Board.elapse
  generalize board.timer.map (·.elapse cycles) = timer
  -- Every pass asks for the same bit, so the induction goes over requests that change nothing more.
  induction board.overflows cycles with
  | zero => exact tracks_same_flag rfl
  | succ passes induction =>
      rw [List.replicate_succ']
      apply tracks_append induction
      apply tracks_request
      rw [if_pos (Nat.succ_pos passes)]
      split
      · rw [InterruptBank.request_twice]
      · rfl

end Tracks

theorem host_tracks {action : HostAction} (signal : action.IsSignal) (source : Interrupt)
    (board : Board) : Tracks source board (action.perform board) action.marks := by
  cases action with
  | keyDown button => exact tracks_request .joypad rfl
  | keyUp button => exact tracks_same_flag rfl
  | request requested => exact tracks_request requested rfl
  | write address value => exact absurd signal id
  | load address bytes => exact absurd signal id
  | attachTimer timer => exact absurd signal id
  | detachTimer => exact absurd signal id
  | reset => exact absurd signal id

/-- No push of the step writes to the flag register. -/
def System.SparesFlag (before : System) : Prop :=
  ¬before.cpu.PushesTo before.board Address.interruptFlag

def Occurrence.IsFair : Occurrence → Prop
  | step before _ => before.SparesFlag
  | host action => action.IsSignal

namespace System

theorem write_keeps_flag {before : System} (spares : before.SparesFlag) (flag : UInt8)
    (address : UInt16) (pushed : before.cpu.PushesTo before.board address) (board : Board)
    (value : UInt8) (same : board.bank.flag = flag) :
    (Bus.write board address value).bank.flag = flag := by
  have apart : address ≠ Address.interruptFlag := by
    intro equal
    rw [equal] at pushed
    exact spares pushed
  exact (Board.write_flag apart value).trans same

theorem executed_tracks {before : System} (only : before.cpu.table.OnlyControl)
    (spares : before.SparesFlag) (source : Interrupt) :
    Tracks source before.board (before.cpu.executed before.board).bus [] := by
  apply tracks_same_flag
  exact before.cpu.executed_keeps before.board (fun board => board.bank.flag = _) only
    (write_keeps_flag spares _) rfl

theorem serviced_tracks {before : System} (spares : before.SparesFlag) (source : Interrupt) :
    Tracks source (before.cpu.executed before.board).bus (before.cpu.serviced before.board).2.bus
      ((before.cpu.serviced before.board).1.toList.map .delivered) := by
  rcases before.cpu.serviced_cases before.board with ⟨delivered, _, found, served⟩ | ⟨_, served⟩
  · have delivers : (before.cpu.serviced before.board).1 ≠ none := by
      rw [served]
      exact Option.some_ne_none delivered
    have flag := before.cpu.delivery_keeps before.board (fun board => board.bank.flag = _) served
      (fun address slot => write_keeps_flag spares _ address (.inr ⟨delivers, slot⟩)) rfl
    have lowest := Interrupt.highest_priority_is_lowest_set_bit found
    rw [served] at flag ⊢
    exact tracks_delivery (InterruptBank.is_requested_of_pending _ lowest.1) flag
  · rw [served]
    exact tracks_same_flag rfl

/-- A completed step is its instruction, its delivery and its time, one after the other. -/
theorem step_tracks {before : System} {cost : UInt32} (completed : before.Completes cost)
    (only : before.cpu.table.OnlyControl) (spares : before.SparesFlag) (source : Interrupt) :
    Tracks source before.board before.next.board before.stepMarks := by
  have law := Cpu.step_completed _ _ completed
  rw [stepMarks, law.deliveries_eq, next_board completed]
  apply tracks_append
  · exact tracks_append (executed_tracks only spares source) (serviced_tracks spares source)
  · exact tracks_elapse _ _

theorem run_tracks {start final : System} {log : List Occurrence} (run : Run start log final)
    (only : start.cpu.table.OnlyControl) (fair : ∀ occurrence ∈ log, occurrence.IsFair)
    (source : Interrupt) :
    Tracks source start.board final.board (log.flatMap Occurrence.marks) := by
  induction run with
  | start => exact tracks_same_flag rfl
  | step earlier completed induction =>
      rw [List.forall_mem_append, List.forall_mem_singleton] at fair
      rw [List.flatMap_append, List.flatMap_singleton]
      apply tracks_append (induction fair.1)
      rw [← run_table earlier] at only
      exact step_tracks completed only fair.2 source
  | host earlier action induction =>
      rw [List.forall_mem_append, List.forall_mem_singleton] at fair
      rw [List.flatMap_append, List.flatMap_singleton]
      exact tracks_append (induction fair.1) (host_tracks fair.2 source _)

theorem mem_open_requests (source : Interrupt) (board : Board) :
    .requested source ∈ board.openRequests ↔ board.bank.isRequested source = true := by
  simp [Board.openRequests, Interrupt.mem_all]

theorem no_delivery_open (source : Interrupt) (board : Board) :
    .delivered source ∉ board.openRequests := by
  simp [Board.openRequests]

theorem open_requests_waits (source : Interrupt) (board : Board) :
    waitsAfter source false board.openRequests = board.bank.isRequested source := by
  apply Bool.eq_iff_iff.mpr
  rw [← mem_open_requests]
  constructor
  · exact requested_of_waits
  · intro requested
    obtain ⟨earlier, later, same⟩ := List.append_of_mem requested
    rw [waits_after_iff]
    refine .inr ⟨earlier, later, same, ?_⟩
    intro delivered
    apply no_delivery_open source board
    rw [same]
    exact List.mem_append_right _ (List.mem_cons_of_mem _ delivered)

theorem open_requests_served (source : Interrupt) (board : Board) :
    Served source false board.openRequests := by
  unfold Board.openRequests
  generalize false = waiting
  induction Interrupt.all.filter board.bank.isRequested generalizing waiting with
  | nil => trivial
  | cons first rest induction => exact ⟨fun impossible => by contradiction, induction _⟩

/-- What a ledger says about a source whose request is or is not set at its end. -/
structure Accounted (source : Interrupt) (requested : Bool) (history : List Mark) : Prop where
  requested_iff : requested = true ↔
    ∃ earlier later, history = earlier ++ .requested source :: later ∧ .delivered source ∉ later
  between : ∀ earlier middle later,
    history = earlier ++ .delivered source :: (middle ++ .delivered source :: later) →
      .requested source ∈ middle
  first : ∀ earlier later, history = earlier ++ .delivered source :: later →
    .requested source ∈ earlier

theorem requests_accounted {start final : System} {log : List Occurrence}
    (only : start.cpu.table.OnlyControl) (run : Run start log final)
    (fair : ∀ occurrence ∈ log, occurrence.IsFair) (source : Interrupt) :
    Accounted source (final.board.bank.isRequested source) (start.history log) := by
  have tracks := run_tracks run only fair source
  have served : Served source false (start.history log) := by
    rw [history, served_append, open_requests_waits]
    exact ⟨open_requests_served source start.board, tracks.served⟩
  have waits : final.board.bank.isRequested source =
      waitsAfter source false (start.history log) := by
    rw [history, waits_after_append, open_requests_waits]
    exact tracks.waits
  constructor
  · rw [waits, waits_after_iff]
    simp only [Bool.false_eq_true, false_and, false_or]
    exact Iff.rfl
  · intro earlier middle later same
    rw [same] at served
    exact requested_between_deliveries served
  · intro earlier later same
    rw [same] at served
    exact requested_before_delivery served

/-- The timer is pending, and its counter passes 255 again in the step that delivers it. -/
def rearming : System where
  cpu :=
    { registers := (Registers.zero.setSp 0xFFFE).setIme true
      ticks := 0
      table := .control
      config := .standard }
  board := { Board.bare.attachTimer ⟨0, 0, 0, 255, 0, 0x05⟩ with bank := ⟨0x04, 0x04⟩ }

def rearmingPressed : System := rearming.perform (.keyDown .a)

theorem rearming_spares : rearmingPressed.SparesFlag := by
  have top : (rearmingPressed.cpu.executed rearmingPressed.board).registers.sp = 0xFFFE := rfl
  rintro (⟨_, _, slot⟩ | ⟨_, slot⟩)
  · exact absurd slot (by decide)
  · rw [Registers.pushSlots, top] at slot
    exact absurd slot (by decide)

def rearmingLog : List Occurrence :=
  [.host (.keyDown .a), .step rearmingPressed 20]

theorem rearming_accounted :
    rearming.Run rearmingLog rearmingPressed.next ∧
      (∀ occurrence ∈ rearmingLog, occurrence.IsFair) ∧
      rearming.history rearmingLog =
        [.requested .timer, .requested .joypad, .delivered .timer, .requested .timer] ∧
      Accounted .timer true (rearming.history rearmingLog) := by
  have only : rearming.cpu.table.OnlyControl := OpcodeTable.control_only_control
  have pressed : rearming.Run [.host (.keyDown .a)] rearmingPressed := .host .start _
  have completed : rearmingPressed.Completes 20 := rfl
  have run : rearming.Run rearmingLog rearmingPressed.next := pressed.step completed
  have fair : ∀ occurrence ∈ rearmingLog, occurrence.IsFair := by
    intro occurrence member
    rw [rearmingLog, List.mem_cons, List.mem_singleton] at member
    rcases member with rfl | rfl
    · trivial
    · exact rearming_spares
  exact ⟨run, fair, rfl, requests_accounted only run fair .timer⟩

end System

end Handheld
