import Handheld.Proofs.Bits
import Handheld.Proofs.Registers
import Handheld.Registers.Snapshot

/-!
# What a snapshot gives back

An input is accepted exactly when a whole snapshot of the known version, without undefined flags,
stands at its front. The accepted registers encode to the bytes they were read from, the low bits of
`F` apart, and a refused input changes nothing. Snapshots written one after another are read back
one after another, with nothing left.
-/

namespace Handheld

set_option autoImplicit false

theorem modify_front {α : Type} (change : α → α) {front : List α} {position : Nat}
    (inside : position < front.length) (rest : List α) :
    (front ++ rest).modify position change = front.modify position change ++ rest := by
  induction front generalizing position with
  | nil => contradiction
  | cons first later induction =>
      cases position with
      | zero => rfl
      | succ position =>
          have same := induction (Nat.lt_of_succ_lt_succ inside)
          rw [List.cons_append, List.modify_succ_cons, List.modify_succ_cons, List.cons_append,
            same]

namespace Registers

/-- The bits of `F` without a flag behind them are at zero. -/
def FlagsClean (registers : Registers) : Prop :=
  registers.get8 .f &&& 0x0F = 0

theorem split_of_whole {input : List UInt8} (whole : 15 ≤ input.length) :
    ∃ (version : UInt8) (storage : Vector UInt8 13) (flags : UInt8) (rest : List UInt8),
      input = version :: (storage.toList ++ flags :: rest) := by
  cases input with
  | nil => contradiction
  | cons version tail =>
      have inside : 13 < tail.length := Nat.lt_of_succ_le (Nat.le_of_succ_le_succ whole)
      have size : (tail.take 13).toArray.size = 13 := by
        rw [List.size_toArray, List.length_take_of_le (Nat.le_of_lt inside)]
      refine ⟨version, ⟨(tail.take 13).toArray, size⟩, tail[13], tail.drop 14, ?_⟩
      simp [Vector.toList]

section Split

variable (version : UInt8) (storage : Vector UInt8 13) (flags : UInt8) (rest : List UInt8)

theorem length_split :
    (version :: (storage.toList ++ flags :: rest)).length = 15 + rest.length := by
  simp only [List.length_cons, List.length_append, Vector.length_toList]
  omega

theorem front_split :
    (version :: (storage.toList ++ flags :: rest)).take 15 =
      version :: (storage.toList ++ [flags]) := by
  simp [List.take_append, List.take_of_length_le]

theorem rest_split : (version :: (storage.toList ++ flags :: rest)).drop 15 = rest := by
  simp [List.drop_append]

theorem flags_split : (version :: (storage.toList ++ flags :: rest)).getD 14 0 = flags := by
  simp

theorem decode_split :
    decode (version :: (storage.toList ++ flags :: rest)) =
      if version ≠ 1 then .error (.unsupportedVersion version)
      else if flags &&& 0xFC ≠ 0 then .error (.undefinedFlags flags)
      else .ok (ofParts storage flags, rest) := by
  have whole : 15 ≤ (version :: (storage.toList ++ flags :: rest)).length := by
    rw [length_split]
    exact Nat.le_add_right 15 _
  have stored : (Vector.ofFn fun position : Fin 13 =>
      (version :: (storage.toList ++ flags :: rest))[position.val + 1]) = storage := by
    apply Vector.ext
    intro position inside
    simp [List.getElem_append_left]
  have last : (version :: (storage.toList ++ flags :: rest))[14] = flags := by simp
  have undefined : ~~~(imeBit ||| haltBit) = 0xFC := by decide
  simp only [decode, dif_pos whole, stored, last, List.getElem_cons_zero, undefined,
    snapshotVersion, snapshotBytes, rest_split]

end Split

theorem flags_of_defined {flags : UInt8} (defined : flags &&& 0xFC = 0) :
    flags = 0 ∨ flags = 1 ∨ flags = 2 ∨ flags = 3 := by
  have low : flags &&& 3 = flags := and_of_clear_rest (by decide) defined
  have bound : flags.toNat ≤ 3 := by
    rw [← low, UInt8.toNat_and]
    exact Nat.and_le_right
  simp only [← UInt8.toNat_inj]
  change flags.toNat = 0 ∨ flags.toNat = 1 ∨ flags.toNat = 2 ∨ flags.toNat = 3
  omega

theorem switches_of_parts {flags : UInt8} (defined : flags &&& 0xFC = 0)
    (storage : Vector UInt8 13) : (ofParts storage flags).switches = flags := by
  have bits : (if flags &&& imeBit ≠ 0 then imeBit else 0) |||
      (if flags &&& haltBit ≠ 0 then haltBit else 0) = flags := by
    rcases flags_of_defined defined with rfl | rfl | rfl | rfl <;> decide
  simp only [switches, ofParts, decide_eq_true_eq]
  exact bits

theorem ime_of_switches (registers : Registers) :
    decide (registers.switches &&& imeBit ≠ 0) = registers.ime := by
  cases ime : registers.ime <;> cases halted : registers.halted <;>
    simp only [switches, ime, halted] <;> decide

theorem halted_of_switches (registers : Registers) :
    decide (registers.switches &&& haltBit ≠ 0) = registers.halted := by
  cases ime : registers.ime <;> cases halted : registers.halted <;>
    simp only [switches, ime, halted] <;> decide

theorem parts_of_clean {registers : Registers} (clean : registers.FlagsClean) :
    ofParts registers.storage registers.switches = registers := by
  have kept : registers.storage[Reg8.f.offset] &&& flagMask = registers.storage[Reg8.f.offset] :=
    and_of_clear_rest (by decide) clean
  apply Registers.ext
  · simp only [ofParts, kept]
    exact Vector.set_getElem_self _
  · exact registers.ime_of_switches
  · exact registers.halted_of_switches

theorem storage_of_parts (storage : Vector UInt8 13) (flags : UInt8) :
    (ofParts storage flags).storage.toList = storage.toList.modify 7 (· &&& 0xF0) := by
  have offset : Reg8.f.offset.val = 7 := rfl
  apply List.ext_getElem
  · simp
  · intro position inside _
    simp only [Vector.getElem_toList, ofParts, Vector.getElem_set, List.getElem_modify, offset]
    split
    · rename_i same
      subst same
      rfl
    · rfl

theorem encode_of_parts {flags : UInt8} (defined : flags &&& 0xFC = 0)
    (storage : Vector UInt8 13) :
    (ofParts storage flags).encode =
      (snapshotVersion :: (storage.toList ++ [flags])).modify 8 (· &&& 0xF0) := by
  have inside : 7 < storage.toList.length := by simp
  rw [encode, switches_of_parts defined, storage_of_parts, List.modify_succ_cons,
    modify_front _ inside]
  rfl

theorem decode_short {input : List UInt8} (short : input.length < 15) :
    decode input = .error .shortInput := by
  rw [decode, dif_neg (Nat.not_le.mpr short)]

def StartsWithSnapshot (input : List UInt8) : Prop :=
  15 ≤ input.length ∧ input.getD 0 0 = 1 ∧ input.getD 14 0 &&& 0xFC = 0

/-- What is wrong with an input: its length, else its version, else its flags. -/
inductive Refuses (input : List UInt8) : SnapshotError → Prop where
  | short (short : input.length < 15) : Refuses input .shortInput
  | version (whole : 15 ≤ input.length) (unknown : input.getD 0 0 ≠ 1) :
      Refuses input (.unsupportedVersion (input.getD 0 0))
  | flags (whole : 15 ≤ input.length) (known : input.getD 0 0 = 1)
      (undefined : input.getD 14 0 &&& 0xFC ≠ 0) :
      Refuses input (.undefinedFlags (input.getD 14 0))

theorem snapshot_or_refused (input : List UInt8) :
    StartsWithSnapshot input ∨ ∃ error, Refuses input error := by
  rcases Nat.lt_or_ge input.length 15 with short | whole
  · exact .inr ⟨_, .short short⟩
  · by_cases known : input.getD 0 0 = 1
    · by_cases defined : input.getD 14 0 &&& 0xFC = 0
      · exact .inl ⟨whole, known, defined⟩
      · exact .inr ⟨_, .flags whole known defined⟩
    · exact .inr ⟨_, .version whole known⟩

theorem restore_of_snapshot {input : List UInt8} (starts : StartsWithSnapshot input)
    (registers : Registers) :
    ∃ restored : Registers, registers.restore input = ⟨restored, .ok (input.drop 15)⟩ ∧
      restored.encode = (input.take 15).modify 8 (· &&& 0xF0) := by
  obtain ⟨whole, known, defined⟩ := starts
  obtain ⟨version, storage, flags, rest, rfl⟩ := split_of_whole whole
  obtain rfl : version = 1 := known
  rw [flags_split] at defined
  refine ⟨ofParts storage flags, ?_, ?_⟩
  · rw [restore, decode_split, if_neg (not_not_intro rfl), if_neg (not_not_intro defined),
      rest_split]
  · rw [encode_of_parts defined, front_split]
    rfl

theorem restore_of_refused {input : List UInt8} {error : SnapshotError}
    (refuses : Refuses input error) (registers : Registers) :
    registers.restore input = ⟨registers, .error error⟩ := by
  have refused : decode input = .error error := by
    cases refuses with
    | short short => exact decode_short short
    | version whole unknown =>
        obtain ⟨version, storage, flags, rest, rfl⟩ := split_of_whole whole
        rw [List.getD_cons_zero] at unknown ⊢
        rw [decode_split, if_pos unknown]
    | flags whole known undefined =>
        obtain ⟨version, storage, flags, rest, rfl⟩ := split_of_whole whole
        rw [List.getD_cons_zero] at known
        rw [flags_split] at undefined ⊢
        rw [decode_split, if_neg (not_not_intro known), if_pos undefined]
  rw [restore, refused]

structure RestoresExactly (registers : Registers) (input : List UInt8) : Prop where
  accepts_iff :
    (∃ rest, (registers.restore input).answer = .ok rest) ↔ StartsWithSnapshot input
  accepted : ∀ rest, (registers.restore input).answer = .ok rest →
    rest = input.drop 15 ∧
      (registers.restore input).state.encode = (input.take 15).modify 8 (· &&& 0xF0)
  refused : ∀ error, (registers.restore input).answer = .error error →
    Refuses input error ∧ (registers.restore input).state = registers

theorem restores_exactly (registers : Registers) (input : List UInt8) :
    RestoresExactly registers input := by
  rcases snapshot_or_refused input with starts | ⟨error, refuses⟩
  · obtain ⟨restored, same, bytes⟩ := restore_of_snapshot starts registers
    constructor
    · rw [same]
      exact ⟨fun _ => starts, fun _ => ⟨_, rfl⟩⟩
    · intro rest answered
      rw [same] at answered ⊢
      exact ⟨(Except.ok.inj answered).symm, bytes⟩
    · intro error failed
      rw [same] at failed
      contradiction
  · have same := restore_of_refused refuses registers
    constructor
    · constructor
      · rintro ⟨rest, answered⟩
        rw [same] at answered
        contradiction
      · intro starts
        obtain ⟨restored, accepted, _⟩ := restore_of_snapshot starts registers
        rw [same] at accepted
        injection accepted with _ impossible
        contradiction
    · intro rest answered
      rw [same] at answered
      contradiction
    · intro other failed
      rw [same] at failed ⊢
      obtain rfl := Except.error.inj failed
      exact ⟨refuses, rfl⟩

/-- Restores the register files one after another from one input, up to the first refusal. -/
def restoreEach : List Registers → List UInt8 →
    Attempt (List Registers) SnapshotError (List UInt8)
  | [], input => ⟨[], .ok input⟩
  | registers :: others, input =>
    match registers.restore input with
    | ⟨restored, .error error⟩ => ⟨restored :: others, .error error⟩
    | ⟨restored, .ok rest⟩ =>
      let later := restoreEach others rest
      ⟨restored :: later.state, later.answer⟩

theorem restore_encode {saved : Registers} (clean : saved.FlagsClean) (registers : Registers)
    (rest : List UInt8) : registers.restore (saved.encode ++ rest) = ⟨saved, .ok rest⟩ := by
  have framed : saved.encode ++ rest =
      snapshotVersion :: (saved.storage.toList ++ saved.switches :: rest) := by
    simp [encode]
  have defined : saved.switches &&& 0xFC = 0 := by
    cases ime : saved.ime <;> cases halted : saved.halted <;>
      simp only [switches, ime, halted] <;> decide
  have known : ¬snapshotVersion ≠ 1 := not_not_intro rfl
  rw [framed, restore, decode_split, if_neg known, if_neg (not_not_intro defined),
    parts_of_clean clean]

theorem restore_each_encode (saved : List Registers) (clean : ∀ file ∈ saved, file.FlagsClean)
    (registers : List Registers) (enough : registers.length = saved.length) (rest : List UInt8) :
    restoreEach registers (saved.flatMap encode ++ rest) = ⟨saved, .ok rest⟩ := by
  induction saved generalizing registers with
  | nil =>
      obtain rfl := List.length_eq_zero_iff.mp enough
      rfl
  | cons first later induction =>
      obtain ⟨target, others, rfl⟩ := List.exists_cons_of_length_eq_add_one enough
      rw [List.forall_mem_cons] at clean
      have others := induction clean.2 others (Nat.succ.inj enough)
      rw [List.flatMap_cons, List.append_assoc, restoreEach, restore_encode clean.1]
      simp only [others]

/-- Any input at all, and then the inputs that a list of register files was written to. -/
theorem snapshots_restore_exactly :
    (∀ (registers : Registers) (input : List UInt8), RestoresExactly registers input) ∧
      ∀ saved registers : List Registers, (∀ file ∈ saved, file.FlagsClean) →
        registers.length = saved.length →
          restoreEach registers (saved.flatMap encode) = ⟨saved, .ok []⟩ := by
  refine ⟨restores_exactly, ?_⟩
  intro saved registers clean enough
  have whole := restore_each_encode saved clean registers enough []
  rwa [List.append_nil] at whole

def saturated : Registers :=
  (((zero.set8 .f 0xFF).setPc 0xFFFF).setIme true).setHalted true

theorem two_snapshots_restore :
    (∀ file ∈ [saturated, powerOn .superGameBoy], file.FlagsClean) ∧
      restoreEach [zero, saturated] ([saturated, powerOn .superGameBoy].flatMap encode) =
        ⟨[saturated, powerOn .superGameBoy], .ok []⟩ := by
  have clean : ∀ file ∈ [saturated, powerOn .superGameBoy], file.FlagsClean := by
    rw [List.forall_mem_cons, List.forall_mem_singleton]
    exact ⟨rfl, rfl⟩
  exact ⟨clean, snapshots_restore_exactly.2 _ _ clean rfl⟩

end Registers

end Handheld
