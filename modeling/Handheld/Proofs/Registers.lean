import Handheld.Registers

/-!
# Views of the register file

A read after a write sees the written value in the same view and the old one in every view with
other bytes. No two byte views share a byte, and neither do two pair views; a byte view and a pair
view do exactly where their offsets meet.
-/

namespace Handheld

set_option autoImplicit false

theorem Word.two_below (word : UInt16) : word - 1 - 1 = word - 2 := by
  grind

namespace Reg16

theorem low_offset_ne_high_offset (pair other : Reg16) : pair.lowOffset ≠ other.highOffset := by
  cases pair <;> cases other <;> decide

theorem low_offset_injective {pair other : Reg16} (same : pair.lowOffset = other.lowOffset) :
    pair = other := by
  revert same
  cases pair <;> cases other <;> decide

theorem high_offset_injective {pair other : Reg16} (same : pair.highOffset = other.highOffset) :
    pair = other := by
  revert same
  cases pair <;> cases other <;> decide

end Reg16

theorem Reg8.offset_injective {view other : Reg8} (same : view.offset = other.offset) :
    view = other := by
  revert same
  cases view <;> cases other <;> decide

namespace Registers

variable (registers : Registers)

theorem get8_set8_same {view : Reg8} (notFlags : view ≠ .f) (value : UInt8) :
    (registers.set8 view value).get8 view = value := by
  simp only [get8, storage_set8, if_neg notFlags, if_true]

theorem get8_set8_other {view other : Reg8} (apart : other ≠ view) (value : UInt8) :
    (registers.set8 view value).get8 other = registers.get8 other := by
  have offsets : other.offset ≠ view.offset := fun same => apart (Reg8.offset_injective same)
  simp only [get8, storage_set8, if_neg offsets]

theorem get16_set16_same {pair : Reg16} (notFlags : pair ≠ .af) (value : UInt16) :
    (registers.set16 pair value).get16 pair = value := by
  have apart := (Reg16.low_offset_ne_high_offset pair pair).symm
  simp only [get16, storage_set16, if_neg apart, if_neg notFlags, if_true]
  exact Word.ofBytes_highByte_lowByte value

theorem get16_set16_other {pair other : Reg16} (apart : other ≠ pair) (value : UInt16) :
    (registers.set16 pair value).get16 other = registers.get16 other := by
  have lows : other.lowOffset ≠ pair.lowOffset :=
    fun same => apart (Reg16.low_offset_injective same)
  have highs : other.highOffset ≠ pair.highOffset :=
    fun same => apart (Reg16.high_offset_injective same)
  simp only [get16, storage_set16, if_neg lows, if_neg highs,
    if_neg (Reg16.low_offset_ne_high_offset other pair),
    if_neg (Reg16.low_offset_ne_high_offset pair other).symm]

theorem get8_set16_other {view : Reg8} {pair : Reg16} (high : view.offset ≠ pair.highOffset)
    (low : view.offset ≠ pair.lowOffset) (value : UInt16) :
    (registers.set16 pair value).get8 view = registers.get8 view := by
  simp only [get8, storage_set16, if_neg high, if_neg low]

theorem get16_set8_other {view : Reg8} {pair : Reg16} (high : pair.highOffset ≠ view.offset)
    (low : pair.lowOffset ≠ view.offset) (value : UInt8) :
    (registers.set8 view value).get16 pair = registers.get16 pair := by
  simp only [get16, storage_set8, if_neg high, if_neg low]

@[simp] theorem pc_setPc (value : UInt16) : (registers.setPc value).pc = value :=
  registers.get16_set16_same (by decide) value

@[simp] theorem sp_setPc (value : UInt16) : (registers.setPc value).sp = registers.sp :=
  registers.get16_set16_other (by decide) value

@[simp] theorem sp_setSp (value : UInt16) : (registers.setSp value).sp = value :=
  registers.get16_set16_same (by decide) value

@[simp] theorem pc_setCost (cycles : UInt8) : (registers.setCost cycles).pc = registers.pc :=
  registers.get16_set8_other (by decide) (by decide) cycles

@[simp] theorem sp_setCost (cycles : UInt8) : (registers.setCost cycles).sp = registers.sp :=
  registers.get16_set8_other (by decide) (by decide) cycles

@[simp] theorem pc_setSp (value : UInt16) : (registers.setSp value).pc = registers.pc :=
  registers.get16_set16_other (by decide) value

@[simp] theorem pc_setIme (enabled : Bool) : (registers.setIme enabled).pc = registers.pc := rfl

@[simp] theorem pc_setHalted (halted : Bool) : (registers.setHalted halted).pc = registers.pc := rfl

@[simp] theorem sp_setIme (enabled : Bool) : (registers.setIme enabled).sp = registers.sp := rfl

@[simp] theorem sp_setHalted (halted : Bool) : (registers.setHalted halted).sp = registers.sp := rfl

@[simp] theorem cost_setCost (cycles : UInt8) : (registers.setCost cycles).cost = cycles :=
  registers.get8_set8_same (by decide) cycles

@[simp] theorem setCost_setCost (first second : UInt8) :
    (registers.setCost first).setCost second = registers.setCost second := by
  simp [setCost, set8, put]

theorem set16_setCost (pair : Reg16) (value : UInt16) (cycles : UInt8) :
    (registers.setCost cycles).set16 pair value = (registers.set16 pair value).setCost cycles := by
  have high : pair.highOffset.val ≠ Reg8.m.offset.val := by cases pair <;> decide
  have low : pair.lowOffset.val ≠ Reg8.m.offset.val := by cases pair <;> decide
  simp only [setCost, set8, set16, put]
  rw [Vector.set_comm _ _ high.symm, Vector.set_comm _ _ low.symm]

theorem setPc_setCost (value : UInt16) (cycles : UInt8) :
    (registers.setCost cycles).setPc value = (registers.setPc value).setCost cycles :=
  registers.set16_setCost .pc value cycles

theorem setSp_setCost (value : UInt16) (cycles : UInt8) :
    (registers.setCost cycles).setSp value = (registers.setSp value).setCost cycles :=
  registers.set16_setCost .sp value cycles

theorem advancePc_setCost (cycles : UInt8) :
    (registers.setCost cycles).advancePc = registers.advancePc.setCost cycles := by
  rw [advancePc, pc_setCost, setPc_setCost, advancePc]

@[simp] theorem get8_setPc (view : Reg8) (value : UInt16) :
    (registers.setPc value).get8 view = registers.get8 view :=
  registers.get8_set16_other (by cases view <;> decide) (by cases view <;> decide) value

@[simp] theorem get8_setSp (view : Reg8) (value : UInt16) :
    (registers.setSp value).get8 view = registers.get8 view :=
  registers.get8_set16_other (by cases view <;> decide) (by cases view <;> decide) value

theorem get8_setCost {view : Reg8} (notCost : view ≠ .m) (cycles : UInt8) :
    (registers.setCost cycles).get8 view = registers.get8 view :=
  registers.get8_set8_other notCost cycles

@[simp] theorem get8_setIme (view : Reg8) (enabled : Bool) :
    (registers.setIme enabled).get8 view = registers.get8 view := rfl

@[simp] theorem get8_setHalted (view : Reg8) (halted : Bool) :
    (registers.setHalted halted).get8 view = registers.get8 view := rfl

@[simp] theorem ime_setCost (cycles : UInt8) : (registers.setCost cycles).ime = registers.ime := rfl

@[simp] theorem halted_setCost (cycles : UInt8) :
    (registers.setCost cycles).halted = registers.halted := rfl

@[simp] theorem ime_setPc (value : UInt16) : (registers.setPc value).ime = registers.ime := rfl

@[simp] theorem halted_setPc (value : UInt16) :
    (registers.setPc value).halted = registers.halted := rfl

@[simp] theorem ime_setSp (value : UInt16) : (registers.setSp value).ime = registers.ime := rfl

@[simp] theorem halted_setSp (value : UInt16) :
    (registers.setSp value).halted = registers.halted := rfl

@[simp] theorem ime_setIme (enabled : Bool) : (registers.setIme enabled).ime = enabled := rfl

@[simp] theorem halted_setIme (enabled : Bool) :
    (registers.setIme enabled).halted = registers.halted := rfl

@[simp] theorem ime_setHalted (halted : Bool) :
    (registers.setHalted halted).ime = registers.ime := rfl

@[simp] theorem halted_setHalted (halted : Bool) : (registers.setHalted halted).halted = halted :=
  rfl

theorem offset_seen (offset : Fin 13) :
    (∃ view ∈ Reg8.all, offset = view.offset) ∨
      offset = Reg16.sp.highOffset ∨ offset = Reg16.sp.lowOffset ∨
        offset = Reg16.pc.highOffset ∨ offset = Reg16.pc.lowOffset := by
  revert offset
  decide

theorem ext_of_views {left right : Registers}
    (bytes : ∀ view, view ≠ .m → left.get8 view = right.get8 view)
    (cost : left.cost = right.cost) (sp : left.sp = right.sp) (pc : left.pc = right.pc)
    (ime : left.ime = right.ime) (halted : left.halted = right.halted) : left = right := by
  have storage : ∀ offset : Fin 13, left.storage[offset] = right.storage[offset] := by
    intro offset
    rcases offset_seen offset with ⟨view, _, rfl⟩ | rfl | rfl | rfl | rfl
    · by_cases isCost : view = .m
      · rw [isCost]
        exact cost
      · exact bytes view isCost
    · exact (Word.bytes_of_same sp).1
    · exact (Word.bytes_of_same sp).2
    · exact (Word.bytes_of_same pc).1
    · exact (Word.bytes_of_same pc).2
  apply Registers.ext
  · apply Vector.ext
    intro position inside
    exact storage ⟨position, inside⟩
  · exact ime
  · exact halted

theorem setCost_cost : registers.setCost registers.cost = registers := by
  apply ext_of_views
  · intro view notCost
    exact registers.get8_setCost notCost _
  · exact registers.cost_setCost _
  · exact registers.sp_setCost _
  · exact registers.pc_setCost _
  · rfl
  · rfl

theorem setPc_pc : registers.setPc registers.pc = registers := by
  apply ext_of_views
  · intro view _
    exact registers.get8_setPc view _
  · exact registers.get8_setPc .m _
  · exact registers.sp_setPc _
  · exact registers.pc_setPc _
  · rfl
  · rfl

theorem setSp_sp : registers.setSp registers.sp = registers := by
  apply ext_of_views
  · intro view _
    exact registers.get8_setSp view _
  · exact registers.get8_setSp .m _
  · exact registers.sp_setSp _
  · exact registers.pc_setSp _
  · rfl
  · rfl

theorem setSp_setSp (first second : UInt16) :
    (registers.setSp first).setSp second = registers.setSp second := by
  have bytes : ∀ view, ((registers.setSp first).setSp second).get8 view =
      (registers.setSp second).get8 view := by
    intro view
    simp only [get8_setSp]
  apply ext_of_views
  · intro view _
    exact bytes view
  · exact bytes .m
  · simp only [sp_setSp]
  · simp only [pc_setSp]
  · rfl
  · rfl

end Registers

end Handheld
