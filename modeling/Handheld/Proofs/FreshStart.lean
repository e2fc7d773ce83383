import Handheld.Proofs.Insertion
import Handheld.Proofs.Operation

/-!
# Starting afresh

What a machine went through is gone once a cartridge is put in: registers, ticks, interrupt
registers, timer, keys, frames and the cartridge before. Only what the machine is made of stays,
which is its configuration, its table, whether it has a timer, and the memory above the cartridge
window. Machines that agree on these are equal from then on. A reset does the same, but for the
window, and a refused image does nothing.
-/

namespace Handheld

set_option autoImplicit false

namespace Machine

/-- What neither a reset nor a new cartridge changes is the same. -/
structure BuiltAlike (left right : Machine) : Prop where
  config : left.cpu.config = right.cpu.config
  table : left.cpu.table = right.cpu.table
  timer : left.board.timer.isSome = right.board.timer.isSome
  upper : ∀ address : UInt16, 0x8000 ≤ address →
    left.board.memory.read address = right.board.memory.read address

def SameWindow (left right : Machine) : Prop :=
  ∀ address : UInt16, address < 0x8000 →
    left.board.memory.read address = right.board.memory.read address

section Alike

variable {left right : Machine}

theorem memory_eq (alike : left.BuiltAlike right) (window : left.SameWindow right) :
    left.board.memory = right.board.memory := by
  apply Memory.ext
  intro address
  rcases UInt16.lt_or_le address 0x8000 with below | above
  · exact window address below
  · exact alike.upper address above

theorem reset_timer_eq (timers : left.board.timer.isSome = right.board.timer.isSome) :
    left.reset.board.timer = right.reset.board.timer := by
  simp only [reset, Board.reset]
  cases first : left.board.timer <;> cases second : right.board.timer <;>
    simp [first, second] at timers ⊢

theorem reset_eq (alike : left.BuiltAlike right) (window : left.SameWindow right) :
    left.reset = right.reset := by
  have memory := memory_eq alike window
  have timer := reset_timer_eq alike.timer
  simp only [reset, Board.reset] at timer
  simp only [reset, Board.reset, Cpu.reset, alike.config, alike.table, memory, timer]

theorem BuiltAlike.mapped (alike : left.BuiltAlike right) (image : Cartridge.Image) :
    (left.mapped image).BuiltAlike (right.mapped image) := by
  refine { alike with upper := fun address above => ?_ }
  simp only [Machine.mapped, Memory.read_mapCartridge, alike.upper address above]

theorem mapped_window (left right : Machine) (image : Cartridge.Image) :
    (left.mapped image).SameWindow (right.mapped image) := by
  intro address below
  rw [UInt16.lt_iff_toNat_lt] at below
  have inside : address.toNat < Cartridge.windowSize := below
  simp only [mapped, Memory.read_mapCartridge, if_pos inside]

theorem insert_eq (alike : left.BuiltAlike right) {image : Cartridge.Image}
    (fits : Cartridge.Fits image) : left.insert image = right.insert image := by
  rw [insert_of_fits left fits, insert_of_fits right fits, alike.config,
    reset_eq (alike.mapped image) (mapped_window left right image)]

end Alike

theorem built_alike_of_inserted (machine : Machine) {image : Cartridge.Image}
    (fits : Cartridge.Fits image) : (machine.insert image).state.BuiltAlike machine := by
  rw [insert_of_fits machine fits]
  constructor
  · rfl
  · rfl
  · simp only [reset, Board.reset, mapped, Option.isSome_map]
  · intro address above
    rw [UInt16.le_iff_toNat_le] at above
    have outside : ¬address.toNat < Cartridge.windowSize := Nat.not_lt.mpr above
    simp only [reset, Board.reset, mapped, Memory.read_mapCartridge, if_neg outside]

/-- What a machine was before has no bearing on what it is afterwards. -/
structure ForgetsHistory (machine : Machine) : Prop where
  accepts : ∀ image, Cartridge.Fits image → ∃ notices, (machine.insert image).answer = .ok notices
  inserted : ∀ other image, machine.BuiltAlike other → Cartridge.Fits image →
    machine.insert image = other.insert image ∧
      ∀ later, (machine.insert image).state.transcript later =
        (other.insert image).state.transcript later
  replaced : ∀ first second, Cartridge.Fits first → Cartridge.Fits second →
    (machine.insert first).state.insert second = machine.insert second
  made : ∀ image tracing, Cartridge.Fits image → machine.cpu.config = configFor image tracing →
    machine.cpu.table = .control → machine.board.timer.isSome = true →
    (∀ address : UInt16, 0x8000 ≤ address → machine.board.memory.read address = 0) →
    ∃ start notices, machine.insert image = ⟨start, .ok notices⟩ ∧
      ofImage image tracing = .ok (start, notices)
  reset : ∀ other, machine.BuiltAlike other → machine.SameWindow other →
    machine.reset = other.reset
  refused_empty : ∀ image : Cartridge.Image, image.size = 0 →
    machine.insert image = ⟨machine, .error .empty⟩
  refused_large : ∀ image : Cartridge.Image, 32768 < image.size →
    machine.insert image = ⟨machine, .error (.tooLarge image.size)⟩

theorem history_is_forgotten (machine : Machine) : machine.ForgetsHistory where
  accepts image fits := by
    rw [insert_of_fits machine fits]
    exact ⟨_, rfl⟩
  inserted other image alike fits := by
    have same := insert_eq alike fits
    exact ⟨same, fun later => by rw [same]⟩
  replaced first second fits again := insert_eq (built_alike_of_inserted machine fits) again
  made image tracing fits config table timer upper := by
    have alike : machine.BuiltAlike (ofConfig (configFor image tracing)) := by
      refine ⟨config, table, timer, fun address above => ?_⟩
      rw [upper address above]
      exact (Memory.read_blank address).symm
    refine ⟨_, _, ?_, of_image_of_fits fits tracing⟩
    rw [insert_eq alike fits, insert_of_fits _ fits]
    rfl
  reset _ := reset_eq
  refused_empty _ empty := insert_of_rejection machine (Cartridge.rejection_of_empty empty)
  refused_large _ large := insert_of_rejection machine (Cartridge.rejection_of_large large)

/-- A machine after a while: nothing that a history can change is as it was at first. -/
def worn : Machine where
  cpu :=
    { registers := ((Registers.zero.setPc 0xC123).setHalted true).setIme true
      ticks := 70300
      table := .control
      config := .standard }
  board :=
    { memory := Memory.blank.write 0x0100 Opcode.halt
      bank := ⟨0x13, 0x1F⟩
      timer := some ⟨63, 3, 7, 254, 9, 0x05⟩
      joypad := Joypad.idle.press .start }
  clock := ⟨1, 76⟩

theorem worn_is_forgotten :
    worn.cpu.ticks ≠ (ofConfig .standard).cpu.ticks ∧
      worn.BuiltAlike (ofConfig .standard) ∧ Cartridge.Fits #[Opcode.nop] ∧
      worn.insert #[Opcode.nop] = (ofConfig .standard).insert #[Opcode.nop] := by
  have attached : worn.board.timer.isSome = true := rfl
  have alike : worn.BuiltAlike (ofConfig .standard) := by
    refine ⟨rfl, rfl, attached, fun address above => ?_⟩
    have elsewhere : address ≠ 0x0100 := by
      rintro rfl
      exact absurd above (by decide)
    rw [worn, Memory.read_write, if_neg elsewhere]
    rfl
  have fits : Cartridge.Fits #[Opcode.nop] := by decide
  exact ⟨by decide, alike, fits, ((history_is_forgotten worn).inserted _ _ alike fits).1⟩

end Machine

end Handheld
