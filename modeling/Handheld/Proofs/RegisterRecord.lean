import Handheld.Bus
import Handheld.Proofs.Registers

/-!
# The register file as a record

The thirteen bytes behind the views are the bytes and words of a record whose fields have nothing in
common. After any calls, every view reads what the record holds, and every advance of the program
counter answers what the record answers. So a byte shows the last value written to it, through
itself or through its pair, and no call for other bytes is seen in it; the two counters likewise.
-/

namespace Handheld

set_option autoImplicit false

/-- Nine bytes and two words that have nothing in common. -/
@[ext] structure RegisterRecord where
  b : UInt8
  c : UInt8
  d : UInt8
  e : UInt8
  h : UInt8
  l : UInt8
  a : UInt8
  f : UInt8
  m : UInt8
  sp : UInt16
  pc : UInt16

def Reg16.halves? : Reg16 → Option (Reg8 × Reg8)
  | bc => some (.b, .c)
  | de => some (.d, .e)
  | hl => some (.h, .l)
  | af => some (.a, .f)
  | sp | pc => none

/-- What a byte view takes of a value written to it: `F` has no low bits. -/
def Reg8.taken (view : Reg8) (value : UInt8) : UInt8 :=
  if view = f then value &&& 0xF0 else value

inductive RegisterCall where
  | set8 (view : Reg8) (value : UInt8)
  | set16 (pair : Reg16) (value : UInt16)
  | setPc (value : UInt16)
  | setSp (value : UInt16)
  | setCost (cycles : UInt8)
  | bump

namespace RegisterRecord

variable (record : RegisterRecord)

def get8 : Reg8 → UInt8
  | .b => record.b
  | .c => record.c
  | .d => record.d
  | .e => record.e
  | .h => record.h
  | .l => record.l
  | .a => record.a
  | .f => record.f
  | .m => record.m

def get16 : Reg16 → UInt16
  | .bc => Word.ofBytes record.b record.c
  | .de => Word.ofBytes record.d record.e
  | .hl => Word.ofBytes record.h record.l
  | .af => Word.ofBytes record.a record.f
  | .sp => record.sp
  | .pc => record.pc

def set8 (view : Reg8) (value : UInt8) : RegisterRecord :=
  match view with
  | .b => { record with b := value }
  | .c => { record with c := value }
  | .d => { record with d := value }
  | .e => { record with e := value }
  | .h => { record with h := value }
  | .l => { record with l := value }
  | .a => { record with a := value }
  | .f => { record with f := value &&& 0xF0 }
  | .m => { record with m := value }

def set16 (pair : Reg16) (value : UInt16) : RegisterRecord :=
  match pair with
  | .bc => (record.set8 .b (Word.highByte value)).set8 .c (Word.lowByte value)
  | .de => (record.set8 .d (Word.highByte value)).set8 .e (Word.lowByte value)
  | .hl => (record.set8 .h (Word.highByte value)).set8 .l (Word.lowByte value)
  | .af => (record.set8 .a (Word.highByte value)).set8 .f (Word.lowByte value)
  | .sp => { record with sp := value }
  | .pc => { record with pc := value }

/-- What a call answers, and the record after it. -/
def perform : RegisterCall → Option UInt16 × RegisterRecord
  | .set8 view value => (none, record.set8 view value)
  | .set16 pair value => (none, record.set16 pair value)
  | .setPc value => (none, { record with pc := value })
  | .setSp value => (none, { record with sp := value })
  | .setCost cycles => (none, { record with m := cycles })
  | .bump => (some record.pc, { record with pc := record.pc + 1 })

end RegisterRecord

namespace Registers

def bump (registers : Registers) : UInt16 × Registers :=
  (registers.pc, registers.advancePc)

def perform (registers : Registers) : RegisterCall → Option UInt16 × Registers
  | .set8 view value => (none, registers.set8 view value)
  | .set16 pair value => (none, registers.set16 pair value)
  | .setPc value => (none, registers.setPc value)
  | .setSp value => (none, registers.setSp value)
  | .setCost cycles => (none, registers.setCost cycles)
  | .bump => (some registers.bump.1, registers.bump.2)

/-- What the views show. -/
def record (registers : Registers) : RegisterRecord where
  b := registers.get8 .b
  c := registers.get8 .c
  d := registers.get8 .d
  e := registers.get8 .e
  h := registers.get8 .h
  l := registers.get8 .l
  a := registers.get8 .a
  f := registers.get8 .f
  m := registers.get8 .m
  sp := registers.sp
  pc := registers.pc

end Registers

/-- Calls one after another: what they answer, and the file after them. -/
def RegisterCall.inTurn {φ : Type} (perform : φ → RegisterCall → Option UInt16 × φ) :
    List RegisterCall → φ → List UInt16 × φ
  | [], file => ([], file)
  | call :: rest, file =>
    let (answer, file) := perform file call
    let (answers, file) := inTurn perform rest file
    (answer.toList ++ answers, file)

namespace RegisterRecord

variable (record : RegisterRecord)

theorem ext_of_views {left right : RegisterRecord} (bytes : ∀ view, left.get8 view = right.get8 view)
    (sp : left.sp = right.sp) (pc : left.pc = right.pc) : left = right :=
  RegisterRecord.ext (bytes .b) (bytes .c) (bytes .d) (bytes .e) (bytes .h) (bytes .l) (bytes .a)
    (bytes .f) (bytes .m) sp pc

theorem get8_set8 (view other : Reg8) (value : UInt8) :
    (record.set8 view value).get8 other =
      if view = other then other.taken value else record.get8 other := by
  cases view <;> cases other <;> rfl

theorem sp_set8 (view : Reg8) (value : UInt8) : (record.set8 view value).sp = record.sp := by
  cases view <;> rfl

theorem pc_set8 (view : Reg8) (value : UInt8) : (record.set8 view value).pc = record.pc := by
  cases view <;> rfl

theorem set16_of_halves {pair : Reg16} {high low : Reg8} (halves : pair.halves? = some (high, low))
    (value : UInt16) :
    record.set16 pair value =
      (record.set8 high (Word.highByte value)).set8 low (Word.lowByte value) := by
  cases pair <;> cases halves <;> rfl

theorem get16_of_halves {pair : Reg16} {high low : Reg8}
    (halves : pair.halves? = some (high, low)) :
    record.get16 pair = Word.ofBytes (record.get8 high) (record.get8 low) := by
  cases pair <;> cases halves <;> rfl

end RegisterRecord

namespace Registers

variable (registers : Registers)

theorem get8_record (view : Reg8) : registers.record.get8 view = registers.get8 view := by
  cases view <;> rfl

theorem get16_record (pair : Reg16) : registers.record.get16 pair = registers.get16 pair := by
  cases pair <;> rfl

theorem get8_set8 (view other : Reg8) (value : UInt8) :
    (registers.set8 view value).get8 other =
      if view = other then other.taken value else registers.get8 other := by
  by_cases same : view = other
  · subst same
    rw [if_pos rfl, get8, storage_set8, if_pos rfl]
    rfl
  · rw [if_neg same, registers.get8_set8_other (Ne.symm same)]

theorem record_set8 (view : Reg8) (value : UInt8) :
    (registers.set8 view value).record = registers.record.set8 view value := by
  apply RegisterRecord.ext_of_views
  · intro other
    rw [get8_record, get8_set8, RegisterRecord.get8_set8, get8_record]
  · rw [RegisterRecord.sp_set8]
    exact registers.get16_set8_other (by cases view <;> decide) (by cases view <;> decide) value
  · rw [RegisterRecord.pc_set8]
    exact registers.get16_set8_other (by cases view <;> decide) (by cases view <;> decide) value

/-- The bytes of a pair are neighbours in the storage, in the order in which they are written. -/
theorem set16_of_halves {pair : Reg16} {high low : Reg8} (halves : pair.halves? = some (high, low))
    (value : UInt16) :
    registers.set16 pair value =
      (registers.set8 high (Word.highByte value)).set8 low (Word.lowByte value) := by
  cases pair <;> cases halves <;> rfl

theorem record_of_bytes {other : Registers}
    (bytes : ∀ view, other.get8 view = registers.get8 view) :
    other.record = { registers.record with sp := other.sp, pc := other.pc } :=
  RegisterRecord.ext (bytes .b) (bytes .c) (bytes .d) (bytes .e) (bytes .h) (bytes .l) (bytes .a)
    (bytes .f) (bytes .m) rfl rfl

theorem record_setSp (value : UInt16) :
    (registers.setSp value).record = { registers.record with sp := value } := by
  have parts := registers.record_of_bytes (registers.get8_setSp · value)
  rwa [sp_setSp, pc_setSp] at parts

theorem record_setPc (value : UInt16) :
    (registers.setPc value).record = { registers.record with pc := value } := by
  have parts := registers.record_of_bytes (registers.get8_setPc · value)
  rwa [sp_setPc, pc_setPc] at parts

theorem record_set16 (pair : Reg16) (value : UInt16) :
    (registers.set16 pair value).record = registers.record.set16 pair value := by
  cases halves : pair.halves? with
  | some bytes =>
      obtain ⟨high, low⟩ := bytes
      rw [registers.set16_of_halves halves, record_set8, record_set8,
        RegisterRecord.set16_of_halves _ halves]
  | none =>
      cases pair with
      | sp => exact registers.record_setSp value
      | pc => exact registers.record_setPc value
      | bc | de | hl | af => contradiction

theorem perform_record (call : RegisterCall) :
    registers.record.perform call =
      ((registers.perform call).1, (registers.perform call).2.record) := by
  cases call with
  | set8 view value => exact Prod.ext rfl (registers.record_set8 view value).symm
  | set16 pair value => exact Prod.ext rfl (registers.record_set16 pair value).symm
  | setPc value => exact Prod.ext rfl (registers.record_setPc value).symm
  | setSp value => exact Prod.ext rfl (registers.record_setSp value).symm
  | setCost cycles => exact Prod.ext rfl (registers.record_set8 .m cycles).symm
  | bump => exact Prod.ext rfl (registers.record_setPc (registers.pc + 1)).symm

theorem in_turn_record (calls : List RegisterCall) :
    RegisterCall.inTurn RegisterRecord.perform calls registers.record =
      ((RegisterCall.inTurn perform calls registers).1,
        (RegisterCall.inTurn perform calls registers).2.record) := by
  induction calls generalizing registers with
  | nil => rfl
  | cons call rest induction =>
      simp only [RegisterCall.inTurn, perform_record, induction]

end Registers

namespace RegisterCall

def toByte? (call : RegisterCall) (view : Reg8) : Option UInt8 :=
  match call with
  | set8 written value => if written = view then some (view.taken value) else none
  | set16 pair value =>
    match pair.halves? with
    | some (high, low) =>
      if high = view then some (view.taken (Word.highByte value))
      else if low = view then some (view.taken (Word.lowByte value))
      else none
    | none => none
  | setCost cycles => if view = .m then some cycles else none
  | setPc _ | setSp _ | bump => none

def toSp? : RegisterCall → Option UInt16
  | set16 .sp value | setSp value => some value
  | set8 _ _ | set16 _ _ | setPc _ | setCost _ | bump => none

def movePc (pc : UInt16) : RegisterCall → UInt16
  | set16 .pc value | setPc value => value
  | bump => pc + 1
  | set8 _ _ | set16 _ _ | setSp _ | setCost _ => pc

/-- The last value that calls wrote, or the one before them where they wrote none. -/
def lastOr {α : Type} (before : α) (written? : RegisterCall → Option α)
    (calls : List RegisterCall) : α :=
  (calls.filterMap written?).getLast?.getD before

theorem lastOr_cons {α : Type} (before : α) (written? : RegisterCall → Option α)
    (call : RegisterCall) (rest : List RegisterCall) :
    lastOr before written? (call :: rest) =
      lastOr ((written? call).getD before) written? rest := by
  unfold lastOr
  cases written : written? call with
  | none =>
      rw [List.filterMap_cons_none written]
      rfl
  | some value =>
      rw [List.filterMap_cons_some written, List.getLast?_cons]
      rfl

end RegisterCall

namespace RegisterRecord

variable (record : RegisterRecord)

theorem halves_apart {pair : Reg16} {high low : Reg8} (halves : pair.halves? = some (high, low)) :
    high ≠ low := by
  cases pair <;> cases halves <;> decide

theorem get8_perform (call : RegisterCall) (view : Reg8) :
    (record.perform call).2.get8 view = (call.toByte? view).getD (record.get8 view) := by
  cases call with
  | set8 written value =>
      simp only [perform, get8_set8, RegisterCall.toByte?]
      split <;> rfl
  | set16 pair value =>
      cases halves : pair.halves? with
      | some bytes =>
          obtain ⟨high, low⟩ := bytes
          simp only [perform, record.set16_of_halves halves, get8_set8, RegisterCall.toByte?, halves]
          have apart := halves_apart halves
          grind
      | none =>
          simp only [RegisterCall.toByte?, halves]
          cases pair with
          | sp | pc => cases view <;> rfl
          | bc | de | hl | af => contradiction
  | setCost cycles => cases view <;> rfl
  | setPc value | setSp value | bump => cases view <;> rfl

theorem sp_perform (call : RegisterCall) :
    (record.perform call).2.sp = call.toSp?.getD record.sp := by
  cases call with
  | set8 view value => exact record.sp_set8 view value
  | set16 pair value => cases pair <;> rfl
  | setPc value | setSp value | setCost cycles | bump => rfl

theorem pc_perform (call : RegisterCall) :
    (record.perform call).2.pc = RegisterCall.movePc record.pc call := by
  cases call with
  | set8 view value => exact record.pc_set8 view value
  | set16 pair value => cases pair <;> rfl
  | setPc value | setSp value | setCost cycles | bump => rfl

/-- What a field of the record holds after calls, from what it holds after one. -/
theorem field_in_turn {α : Type} (field : RegisterRecord → α) (written? : RegisterCall → Option α)
    (step : ∀ record call, field (perform record call).2 = (written? call).getD (field record))
    (calls : List RegisterCall) :
    field (RegisterCall.inTurn perform calls record).2 =
      RegisterCall.lastOr (field record) written? calls := by
  induction calls generalizing record with
  | nil => rfl
  | cons call rest induction =>
      rw [RegisterCall.lastOr_cons, ← step record call, ← induction]
      rfl

theorem pc_in_turn (calls : List RegisterCall) :
    (RegisterCall.inTurn perform calls record).2.pc =
      calls.foldl RegisterCall.movePc record.pc := by
  induction calls generalizing record with
  | nil => rfl
  | cons call rest induction =>
      rw [List.foldl_cons, ← pc_perform, ← induction]
      rfl

end RegisterRecord

namespace Registers

/-- The views of a register file read what the record holds. -/
structure Shows (registers : Registers) (record : RegisterRecord) : Prop where
  bytes : ∀ view, registers.get8 view = record.get8 view
  pairs : ∀ pair, registers.get16 pair = record.get16 pair

/-- Every byte and the stack pointer show the last value written to them, a pair shows its two
bytes, and the program counter depends on nothing but the calls that move it. -/
structure ShowsLast (start : Registers) (calls : List RegisterCall) (reached : Registers) :
    Prop where
  bytes : ∀ view, reached.get8 view =
    RegisterCall.lastOr (start.get8 view) (RegisterCall.toByte? · view) calls
  pairs : ∀ pair high low, pair.halves? = some (high, low) →
    reached.get16 pair = Word.ofBytes (reached.get8 high) (reached.get8 low)
  sp : reached.get16 .sp = RegisterCall.lastOr (start.get16 .sp) RegisterCall.toSp? calls
  pc : reached.get16 .pc = calls.foldl RegisterCall.movePc (start.get16 .pc)

theorem shows_record (registers : Registers) : registers.Shows registers.record where
  bytes view := (registers.get8_record view).symm
  pairs pair := (registers.get16_record pair).symm

theorem shows_last_in_turn (registers : Registers) (calls : List RegisterCall) :
    ShowsLast registers calls (RegisterCall.inTurn perform calls registers).2 := by
  have record : (RegisterCall.inTurn RegisterRecord.perform calls registers.record).2 =
      (RegisterCall.inTurn perform calls registers).2.record := by
    rw [in_turn_record]
  constructor
  · intro view
    have last := registers.record.field_in_turn (·.get8 view) (RegisterCall.toByte? · view)
      (fun record call => record.get8_perform call view) calls
    rwa [record, get8_record, get8_record] at last
  · intro pair high low halves
    have both := RegisterRecord.get16_of_halves
      (RegisterCall.inTurn perform calls registers).2.record halves
    rwa [get16_record, get8_record, get8_record] at both
  · have last := registers.record.field_in_turn RegisterRecord.sp RegisterCall.toSp?
      RegisterRecord.sp_perform calls
    rwa [record] at last
  · have moved := registers.record.pc_in_turn calls
    rwa [record] at moved

/-- Calls answer alike on a register file and on the record of it, and leave them alike. -/
theorem views_are_one_record (registers : Registers) (calls : List RegisterCall) :
    (RegisterCall.inTurn perform calls registers).1 =
        (RegisterCall.inTurn RegisterRecord.perform calls registers.record).1 ∧
      (RegisterCall.inTurn perform calls registers).2.Shows
        (RegisterCall.inTurn RegisterRecord.perform calls registers.record).2 ∧
      ShowsLast registers calls (RegisterCall.inTurn perform calls registers).2 := by
  rw [in_turn_record]
  exact ⟨rfl, shows_record _, shows_last_in_turn registers calls⟩

example :
    RegisterCall.inTurn RegisterRecord.perform [.setPc 0xFFFF, .bump, .set16 .af 0x12FF, .bump]
        zero.record =
      ([0xFFFF, 0x0000], { zero.record with a := 0x12, f := 0xF0, pc := 0x0001 }) := by
  rfl

end Registers

end Handheld
