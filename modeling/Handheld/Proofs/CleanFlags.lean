import Handheld.Board
import Handheld.Proofs.RegisterRecord
import Handheld.Proofs.Snapshot
import Handheld.Proofs.Step

/-!
# The low bits of `F`

A byte view, a pair view, a snapshot and a reset write to `F`, and each leaves its low four bits at
zero; a step does not write to it at all. So the bits are zero whatever was done with a processor
whose table holds control instructions only, and a snapshot of it gives back its registers exactly.
The buses that the steps work on need not be related.
-/

namespace Handheld

set_option autoImplicit false

theorem Word.low_bits_of_bytes (high low : UInt8) :
    (ofBytes high low &&& 0x000F).toNat = (low &&& 0x0F).toNat := by
  have word : (0x000F : UInt16).toNat = 2 ^ 4 - 1 := rfl
  have byte : (0x0F : UInt8).toNat = 2 ^ 4 - 1 := rfl
  rw [UInt16.toNat_and, UInt8.toNat_and, word, byte, Nat.and_two_pow_sub_one_eq_mod,
    Nat.and_two_pow_sub_one_eq_mod, toNat_ofBytes]
  omega

theorem Reg8.flags_taken (value : UInt8) : f.taken value &&& 0x0F = 0 := by
  have apart : (0xF0 : UInt8) &&& 0x0F = 0 := by decide
  rw [taken, if_pos rfl, UInt8.and_assoc, apart, UInt8.and_zero]

namespace Registers

variable {registers : Registers}

theorem FlagsClean.of_flags {other : Registers} (clean : registers.FlagsClean)
    (same : other.get8 .f = registers.get8 .f) : other.FlagsClean := by
  rw [FlagsClean, same]
  exact clean

theorem FlagsClean.set8 (clean : registers.FlagsClean) (view : Reg8) (value : UInt8) :
    (registers.set8 view value).FlagsClean := by
  rw [FlagsClean, get8_set8]
  split
  · exact Reg8.flags_taken value
  · exact clean

theorem FlagsClean.setPc (clean : registers.FlagsClean) (value : UInt16) :
    (registers.setPc value).FlagsClean :=
  clean.of_flags (registers.get8_setPc .f value)

theorem FlagsClean.setSp (clean : registers.FlagsClean) (value : UInt16) :
    (registers.setSp value).FlagsClean :=
  clean.of_flags (registers.get8_setSp .f value)

theorem FlagsClean.set16 (clean : registers.FlagsClean) (pair : Reg16) (value : UInt16) :
    (registers.set16 pair value).FlagsClean := by
  cases halves : pair.halves? with
  | some bytes =>
      rw [registers.set16_of_halves halves]
      exact (clean.set8 bytes.1 _).set8 bytes.2 _
  | none =>
      cases pair with
      | sp => exact clean.setSp value
      | pc => exact clean.setPc value
      | bc | de | hl | af => contradiction

theorem FlagsClean.perform (clean : registers.FlagsClean) (call : RegisterCall) :
    (registers.perform call).2.FlagsClean := by
  cases call with
  | set8 view value => exact clean.set8 view value
  | set16 pair value => exact clean.set16 pair value
  | setPc value => exact clean.setPc value
  | setSp value => exact clean.setSp value
  | setCost cycles => exact clean.set8 .m cycles
  | bump => exact clean.setPc _

theorem zero_clean : zero.FlagsClean := by
  rfl

theorem power_on_clean (model : Model) : (powerOn model).FlagsClean := by
  unfold powerOn
  exact zero_clean.set16 .af _ |>.set16 .bc _ |>.set16 .de _ |>.set16 .hl _ |>.set16 .sp _
    |>.set16 .pc _

theorem of_parts_clean (storage : Vector UInt8 13) (switches : UInt8) :
    (ofParts storage switches).FlagsClean := by
  have flags : (ofParts storage switches).get8 .f = Reg8.f.taken storage[Reg8.f.offset] := by
    simp only [get8, ofParts, Fin.getElem_fin, Vector.getElem_set_self]
    rfl
  rw [FlagsClean, flags]
  exact Reg8.flags_taken _

theorem decoded_clean {input rest : List UInt8} {decoded : Registers}
    (accepted : decode input = .ok (decoded, rest)) : decoded.FlagsClean := by
  rcases Nat.lt_or_ge input.length 15 with short | whole
  · rw [decode_short short] at accepted
    contradiction
  · obtain ⟨version, storage, flags, left, rfl⟩ := split_of_whole whole
    rw [decode_split] at accepted
    split at accepted
    · contradiction
    · split at accepted
      · contradiction
      · cases accepted
        exact of_parts_clean storage flags

theorem FlagsClean.restore (clean : registers.FlagsClean) (input : List UInt8) :
    (registers.restore input).state.FlagsClean := by
  unfold Registers.restore
  split
  · rename_i decoded rest accepted
    exact decoded_clean accepted
  · exact clean

end Registers

namespace Cpu

variable {β : Type} [Bus β] {cpu : Cpu β}

theorem executed_get8 (only : cpu.table.OnlyControl) (bus : β) {view : Reg8} (notCost : view ≠ .m) :
    (cpu.executed bus).registers.get8 view = cpu.registers.get8 view := by
  have first := cpu.execute_first_part bus
  unfold executed
  generalize (cpu.execute bus).2 = part at first ⊢
  cases first with
  | idled halted => exact cpu.registers.get8_setCost notCost _
  | unassigned running missing => exact cpu.registers.get8_setPc view _
  | dispatched running installed =>
      obtain ⟨instruction, rfl⟩ := only _ _ installed
      rw [instruction.handler_registers, Registers.get8_setCost _ notCost,
        instruction.settled_get8]
      exact cpu.registers.get8_setPc view _

theorem serviced_get8 (cpu : Cpu β) (bus : β) {view : Reg8} (notCost : view ≠ .m) :
    (cpu.serviced bus).2.registers.get8 view = (cpu.executed bus).registers.get8 view := by
  rcases cpu.serviced_cases bus with ⟨source, _, _, served⟩ | ⟨_, served⟩
  · rw [served, Context.enter_registers]
    simp only [Registers.get8_setCost _ notCost, Registers.get8_setPc, Registers.get8_setSp,
      Registers.get8_setHalted, Registers.get8_setIme]
  · rw [served]
    exact Registers.get8_setCost _ notCost _

/-- The byte views but for the cost slot are as before a step, also after one that faults. -/
theorem step_get8 (only : cpu.table.OnlyControl) (bus : β) {view : Reg8} (notCost : view ≠ .m) :
    (cpu.step bus).cpu.registers.get8 view = cpu.registers.get8 view := by
  cases answered : (cpu.execute bus).2.answer with
  | error fault =>
      rw [(cpu.step_of_fault bus answered).1]
      exact cpu.registers.get8_setPc view _
  | ok _ =>
      rw [cpu.step_of_answered bus answered, retire_registers, Registers.get8_setCost _ notCost,
        cpu.serviced_get8 bus notCost, executed_get8 only bus notCost]

end Cpu

namespace Cpu

/-- What can be done with a processor. Each step names the bus that it works on. -/
inductive Action (β : Type) where
  | call (call : RegisterCall)
  | setIme (enabled : Bool)
  | setHalted (halted : Bool)
  | reset
  | restore (input : List UInt8)
  | step (bus : β)

variable {β : Type} [Bus β]

def setRegisters (cpu : Cpu β) (registers : Registers) : Cpu β := { cpu with registers }

def perform (cpu : Cpu β) : Action β → Cpu β
  | .call call => cpu.setRegisters (cpu.registers.perform call).2
  | .setIme enabled => cpu.setRegisters (cpu.registers.setIme enabled)
  | .setHalted halted => cpu.setRegisters (cpu.registers.setHalted halted)
  | .reset => cpu.reset
  | .restore input => (cpu.restore input).state
  | .step bus => (cpu.step bus).cpu

def performAll (cpu : Cpu β) (actions : List (Action β)) : Cpu β := actions.foldl perform cpu

theorem perform_table (cpu : Cpu β) (action : Action β) : (cpu.perform action).table = cpu.table := by
  cases action with
  | call | setIme | setHalted | reset | restore => rfl
  | step bus => exact cpu.step_table bus

theorem perform_clean {cpu : Cpu β} (only : cpu.table.OnlyControl)
    (clean : cpu.registers.FlagsClean) (action : Action β) :
    (cpu.perform action).registers.FlagsClean := by
  cases action with
  | call call => exact clean.perform call
  | setIme enabled => exact clean
  | setHalted halted => exact clean
  | reset => exact Registers.power_on_clean cpu.config.model
  | restore input => exact clean.restore input
  | step bus => exact clean.of_flags (step_get8 only bus (by decide))

theorem perform_all_clean {cpu : Cpu β} (only : cpu.table.OnlyControl)
    (clean : cpu.registers.FlagsClean) (actions : List (Action β)) :
    (cpu.performAll actions).registers.FlagsClean := by
  induction actions generalizing cpu with
  | nil => exact clean
  | cons action rest induction =>
      have kept : (cpu.perform action).table.OnlyControl := by
        rw [perform_table]
        exact only
      exact induction kept (perform_clean only clean action)

/-- No low bits of `F` in either of its views, and a snapshot that takes the registers to any
processor. -/
structure FlagsSettled (registers : Registers) : Prop where
  byte : registers.get8 .f &&& 0x0F = 0
  pair : registers.get16 .af &&& 0x000F = 0
  reproduced : ∀ {γ : Type} (other : Cpu γ) (rest : List UInt8),
    other.restore (registers.encode ++ rest) = ⟨{ other with registers }, .ok rest⟩

theorem flags_settled_of_clean {registers : Registers} (clean : registers.FlagsClean) :
    FlagsSettled registers := by
  refine ⟨clean, ?_, ?_⟩
  · have low := Word.low_bits_of_bytes (registers.get8 .a) (registers.get8 .f)
    rw [show registers.get8 .f &&& 0x0F = 0 from clean] at low
    exact UInt16.toNat.inj low
  · intro γ other rest
    simp only [restore, Registers.restore_encode clean]

/-- Holds of the control table, as it is and with a handler of `nop` in every empty slot: both
contain control instructions only. -/
theorem flags_settled {table : OpcodeTable β} (only : table.OnlyControl) (config : Config)
    (actions : List (Action β)) :
    FlagsSettled ((ofTable table config).performAll actions).registers := by
  have clean : (ofTable table config).registers.FlagsClean :=
    Registers.power_on_clean config.model
  apply flags_settled_of_clean
  exact perform_all_clean (show (ofTable table config).table.OnlyControl from only) clean actions

def nopFilled : OpcodeTable Board := OpcodeTable.control.fillUnassigned Instruction.nop

/-- Writes to `F` in every way there is, with one snapshot full of bits and one cut short. -/
def meddling : List (Action Board) :=
  [.call (.set16 .af 0x12FF), .step Board.bare, .call (.set8 .f 0x0F), .reset,
    .restore (0x01 :: List.replicate 13 0xFF ++ [0x03, 0xAA]), .restore [0x01, 0xFF],
    .step { Board.bare with bank := ⟨0x01, 0x01⟩ }]

theorem meddled_flags_settled :
    nopFilled.OnlyControl ∧
      FlagsSettled ((ofTable nopFilled .standard).performAll meddling).registers ∧
      ((ofTable nopFilled .standard).performAll meddling).registers.get16 .af = 0xFFF0 := by
  have only : nopFilled.OnlyControl :=
    OpcodeTable.fill_only_control OpcodeTable.control_only_control .nop
  exact ⟨only, flags_settled only .standard meddling, rfl⟩

end Cpu

end Handheld
