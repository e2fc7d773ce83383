import Handheld.Proofs.AddressSpace
import Handheld.Proofs.FrameAccounting
import Handheld.Proofs.Iteration
import Handheld.Proofs.Operation

/-!
# The cartridge stays in its window

A program can push to every address and a host can write to every address, but no write reaches a
cell of the cartridge window, and none reaches the cells that lie behind the echo, the gap, the key
register and the interrupt registers. So the window shows the image from the moment it is put in
until another one is accepted, whatever is done with the machine.
-/

namespace Handheld

set_option autoImplicit false

/-- The cells above the window that no write reaches, with or without a timer. -/
def Sealed (cell : UInt16) : Prop :=
  (0xE000 ≤ cell ∧ cell ≤ 0xFDFF) ∨ (0xFEA0 ≤ cell ∧ cell ≤ 0xFEFF) ∨ cell = 0xFF00 ∨
    cell = 0xFF0F ∨ cell = 0xFFFF

instance (cell : UInt16) : Decidable (Sealed cell) :=
  inferInstanceAs (Decidable (_ ∨ _))

def Guarded (cell : UInt16) : Prop :=
  cell ≤ 0x7FFF ∨ Sealed cell

namespace Board

/-- The guarded cells hold what they hold in a given memory. -/
def Guards (board : Board) (memory : Memory) : Prop :=
  ∀ cell, Guarded cell → board.memory.read cell = memory.read cell

theorem read_window (board : Board) {address : UInt16} (below : address ≤ 0x7FFF) :
    board.read address = board.memory.read address := by
  have place := located address
  rw [read_eq]
  generalize Location.ofAddress address = location at place ⊢
  cases place with
  | cartridge => rfl
  | @timer register place => grind [register.address_bounds]
  | _ => grind

variable {board : Board} {memory : Memory}

theorem Guards.poke (guards : board.Guards memory) {cell : UInt16} (free : ¬Guarded cell)
    (value : UInt8) : (board.poke cell value).Guards memory := by
  intro shown guarded
  have apart : shown ≠ cell := by
    rintro rfl
    exact free guarded
  rw [Board.poke, Memory.read_write, if_neg apart]
  exact guards shown guarded

theorem Guards.write (guards : board.Guards memory) (address : UInt16) (value : UInt8) :
    (board.write address value).Guards memory := by
  have place := located address
  have written := board.write_written address value
  generalize board.write address value = next at written ⊢
  cases written with
  | plain found unattached =>
      have bounds := Location.timer_address found
      refine guards.poke ?_ value
      grind [Guarded, Sealed]
  | ram found =>
      rw [found] at place
      cases place with
      | ram same above outside plain =>
          -- The echo stands for cells of the work RAM, and every other address for its own cell.
          refine guards.poke ?_ value
          grind [Guarded, Sealed, home]
  | _ => exact guards

theorem Guards.reset (guards : board.Guards memory) : board.reset.Guards memory := guards

theorem Guards.advance (guards : board.Guards memory) (cycles : UInt32) :
    (board.advanceTimer cycles).state.Guards memory := by
  cases attached : board.timer with
  | none =>
      simp only [advanceTimer, attached]
      exact guards
  | some timer =>
      simp only [advanceTimer, attached]
      exact guards

end Board

namespace Machine

structure Guards (machine : Machine) (memory : Memory) : Prop where
  only : machine.cpu.table.OnlyControl
  board : machine.board.Guards memory

section Operations

variable {machine : Machine} {memory : Memory}

theorem Guards.with_board (guards : machine.Guards memory) {board : Board}
    (kept : board.Guards memory) : (machine.withBoard board).Guards memory :=
  ⟨guards.only, kept⟩

theorem Guards.reset (guards : machine.Guards memory) : machine.reset.Guards memory := by
  have only : machine.reset.cpu.table.OnlyControl := by
    rw [reset_table]
    exact guards.only
  exact ⟨only, guards.board.reset⟩

theorem Guards.step (guards : machine.Guards memory) : machine.step.machine.Guards memory := by
  have only : (machine.cpu.step machine.board).cpu.table.OnlyControl := by
    rw [Cpu.step_table]
    exact guards.only
  have kept : (machine.cpu.step machine.board).bus.Guards memory :=
    machine.cpu.step_keeps machine.board (fun board => board.Guards memory) guards.only
      (fun _ address value kept => kept.write address value) (fun _ _ kept => kept)
      (fun _ cycles kept => kept.advance cycles) guards.board
  cases stepped : (machine.cpu.step machine.board).ticks with
  | error fault =>
      rw [(step_of_fault stepped).1]
      exact ⟨only, kept⟩
  | ok cost =>
      rw [(step_of_completed stepped).1]
      exact ⟨only, kept⟩

theorem Guards.perform (guards : machine.Guards memory) {operation : Operation}
    (refused : ∀ image, operation = .insert image → ¬Cartridge.Fits image) :
    (operation.perform machine).2.Guards memory := by
  cases operation with
  | step => exact guards.step
  | run boundary =>
      exact run_until_keeps (fun machine => machine.Guards memory)
        (fun _ _ guards => guards.step) guards
  | keyDown button => exact guards.with_board guards.board
  | keyUp button => exact guards.with_board guards.board
  | request source => exact guards.with_board guards.board
  | read address => exact guards
  | write address value => exact guards.with_board (guards.board.write address value)
  | reset => exact guards.reset
  | insert image =>
      rcases Cartridge.fits_or_rejected image with fits | ⟨rejection, rejected⟩
      · exact absurd fits (refused image rfl)
      · simp only [Operation.perform, insert_of_rejection machine rejected]
        exact guards
  | takeFrames => exact ⟨guards.only, guards.board⟩

def KeepCartridge (operations : List Operation) : Prop :=
  ∀ image, .insert image ∈ operations → ¬Cartridge.Fits image

theorem Guards.perform_all (guards : machine.Guards memory) {operations : List Operation}
    (keep : KeepCartridge operations) : (machine.performAll operations).Guards memory := by
  induction operations generalizing machine with
  | nil => exact guards
  | cons operation rest induction =>
      have first := guards.perform fun image same => keep image (same ▸ List.mem_cons_self)
      exact induction first fun image later => keep image (List.mem_cons_of_mem _ later)

end Operations

/-- The machines right after an image was accepted, by a machine with the control table or by a new
one that is made for it. -/
inductive Loaded (image : Cartridge.Image) : Machine → Prop where
  | inserted {before start : Machine} {notices : List Notice}
      (control : before.cpu.table = .control)
      (accepted : before.insert image = ⟨start, .ok notices⟩) : Loaded image start
  | made {start : Machine} {tracing : Bool} {notices : List Notice}
      (accepted : ofImage image tracing = .ok (start, notices)) : Loaded image start

section Loaded

variable {image : Cartridge.Image} {start : Machine}

theorem loaded_of_accepted {before : Machine} {notices : List Notice}
    (control : before.cpu.table = .control)
    (accepted : before.insert image = ⟨start, .ok notices⟩) :
    start.cpu.table = .control ∧
      ∀ address : UInt16, address ≤ 0x7FFF →
        start.board.memory.read address = image.getD address.toNat 0 := by
  have answered : (before.insert image).answer = .ok notices := by rw [accepted]
  rw [insert_of_fits before (fits_of_accepted answered)] at accepted
  obtain ⟨rfl, _⟩ := Attempt.mk.inj accepted
  constructor
  · rw [reset_table]
    exact control
  · intro address below
    rw [UInt16.le_iff_toNat_le] at below
    have inside : address.toNat < Cartridge.windowSize := Nat.lt_succ_of_le below
    simp only [reset, Board.reset, mapped, Memory.read_mapCartridge, if_pos inside]

theorem loaded_start (loaded : Loaded image start) :
    start.cpu.table = .control ∧
      ∀ address : UInt16, address ≤ 0x7FFF →
        start.board.memory.read address = image.getD address.toNat 0 := by
  cases loaded with
  | inserted control accepted => exact loaded_of_accepted control accepted
  | made accepted => exact loaded_of_accepted rfl (insert_of_made accepted)

/-- Until a cartridge is accepted again, the window shows the image with zeros after its end, and
the sealed cells hold what they held when the image was put in. -/
theorem cartridge_stays (loaded : Loaded image start) {operations : List Operation}
    (keep : KeepCartridge operations) :
    (∀ address : UInt16, address ≤ 0x7FFF →
        (start.performAll operations).board.read address = image.getD address.toNat 0) ∧
      ∀ cell, Sealed cell → (start.performAll operations).board.memory.read cell =
        start.board.memory.read cell := by
  obtain ⟨control, window⟩ := loaded_start loaded
  have only : start.cpu.table.OnlyControl := by
    rw [control]
    exact OpcodeTable.control_only_control
  have guards : start.Guards start.board.memory := ⟨only, fun _ _ => rfl⟩
  have kept := (guards.perform_all keep).board
  constructor
  · intro address below
    rw [Board.read_window _ below, kept address (.inl below), window address below]
  · intro cell behind
    exact kept cell (.inr behind)

end Loaded

def halting : Machine := ((ofConfig .standard).insert #[Opcode.halt]).state

def scribbling : List Operation :=
  [.write 0x0000 0xFF, .write 0xE000 0x55, .write 0xFFFF 0x1F, .keyDown .start, .step,
   .insert .empty, .run .halted, .reset, .takeFrames]

theorem halting_stays :
    Loaded #[Opcode.halt] halting ∧ KeepCartridge scribbling ∧
      (halting.performAll scribbling).board.read 0x0000 = Opcode.halt ∧
      (halting.performAll scribbling).board.memory.read 0xE000 =
        halting.board.memory.read 0xE000 := by
  obtain ⟨notices, accepted⟩ : ∃ notices,
      (ofConfig .standard).insert #[Opcode.halt] = ⟨halting, .ok notices⟩ := by
    rw [halting, insert_of_fits _ (by decide)]
    exact ⟨_, rfl⟩
  have loaded : Loaded #[Opcode.halt] halting := .inserted rfl accepted
  have keep : KeepCartridge scribbling := by
    intro image member
    simp only [scribbling, List.mem_cons, reduceCtorEq, false_or, Operation.insert.injEq,
      List.not_mem_nil, or_false] at member
    rw [member]
    decide
  obtain ⟨window, behind⟩ := cartridge_stays loaded keep
  exact ⟨loaded, keep, window 0x0000 (by decide), behind 0xE000 (by decide)⟩

end Machine

end Handheld
