import Handheld.Proofs.Control
import Handheld.Proofs.FullTable

/-!
# The opcode table as a partial map

After any installs and fills the slots hold what a partial map from opcodes to handlers holds after
them: an install sets one opcode, and a fill sets every opcode that has no handler yet. So an opcode
has the handler installed for it last, or else the one that it began with, or else that of the first
fill. The unassigned opcodes, their number, and what a dispatch does are read off that map. Once a
table was filled it stays full, so that no dispatch faults and no later fill changes anything.
-/

namespace Handheld

set_option autoImplicit false

/-- A partial map from opcodes to handlers. -/
abbrev HandlerMap (β : Type) := UInt8 → Option (Handler β)

inductive TableCall (β : Type) where
  | install (opcode : UInt8) (handler : Handler β)
  | fillUnassigned (handler : Handler β)

variable {β : Type}

def HandlerMap.perform (map : HandlerMap β) : TableCall β → HandlerMap β
  | .install target handler => fun opcode => if opcode = target then some handler else map opcode
  | .fillUnassigned handler => fun opcode => (map opcode).or (some handler)

namespace TableCall

def installed? (opcode : UInt8) : TableCall β → Option (Handler β)
  | install target handler => if target = opcode then some handler else none
  | fillUnassigned _ => none

def filled? : TableCall β → Option (Handler β)
  | install _ _ => none
  | fillUnassigned handler => some handler

end TableCall

namespace HandlerMap

/-- The handler that was installed for the opcode last, or else the one that it began with, or else
that of the first fill. -/
def settled (map : HandlerMap β) (calls : List (TableCall β)) (opcode : UInt8) :
    Option (Handler β) :=
  (calls.filterMap (TableCall.installed? opcode)).getLast?.or
    ((map opcode).or (calls.findSome? TableCall.filled?))

theorem perform_all_eq (calls : List (TableCall β)) (map : HandlerMap β) (opcode : UInt8) :
    calls.foldl perform map opcode = map.settled calls opcode := by
  induction calls generalizing map with
  | nil => exact (Option.or_none).symm
  | cons call rest induction =>
      rw [List.foldl_cons, induction]
      unfold settled
      cases call with
      | install target handler =>
          by_cases same : target = opcode
          · have set : map.perform (.install target handler) opcode = some handler :=
              if_pos same.symm
            have last : TableCall.installed? opcode (.install target handler) = some handler :=
              if_pos same
            rw [set, List.filterMap_cons_some last, List.getLast?_cons]
            cases (rest.filterMap (TableCall.installed? opcode)).getLast? <;> rfl
          · have kept : map.perform (.install target handler) opcode = map opcode :=
              if_neg (Ne.symm same)
            have elsewhere : TableCall.installed? opcode (.install target handler) = none :=
              if_neg same
            rw [kept, List.filterMap_cons_none elsewhere]
            rfl
      | fillUnassigned handler =>
          have filled : map.perform (.fillUnassigned handler) opcode =
            (map opcode).or (some handler) := rfl
          rw [filled, Option.or_assoc]
          rfl

end HandlerMap

namespace OpcodeTable

theorem mem_opcodes (opcode : UInt8) : opcode ∈ opcodes :=
  List.mem_map.mpr ⟨opcode.toNat, List.mem_range.mpr opcode.toNat_lt, UInt8.ofNat_toNat⟩

theorem opcodes_ascend : opcodes.Pairwise (· < ·) := by
  apply List.pairwise_map.mpr
  apply List.pairwise_lt_range.imp_of_mem
  intro low high lowInside highInside below
  rw [UInt8.lt_iff_toNat_lt, UInt8.toNat_ofNat_of_lt' (List.mem_range.mp lowInside),
    UInt8.toNat_ofNat_of_lt' (List.mem_range.mp highInside)]
  exact below

section Slots

variable (table : OpcodeTable β)

theorem slots_eq : table.slots.toList = opcodes.map table.handler? := by
  apply List.ext_getElem
  · simp [opcodes]
  · intro position inside _
    have small : position < 256 := by simpa using inside
    simp [opcodes, handler?, Nat.mod_eq_of_lt small]

theorem ext_of_handlers {left right : OpcodeTable β}
    (same : ∀ opcode, left.handler? opcode = right.handler? opcode) : left = right := by
  have slots : left.slots.toList = right.slots.toList := by
    rw [slots_eq, slots_eq, funext same]
  cases left
  cases right
  congr 1
  exact Vector.toList_inj.mp slots

theorem mem_unassigned (opcode : UInt8) :
    opcode ∈ table.unassigned ↔ table.handler? opcode = none := by
  rw [unassigned, List.mem_filter, Option.isNone_iff_eq_none]
  exact and_iff_right (mem_opcodes opcode)

theorem unassigned_ascend : table.unassigned.Pairwise (· < ·) :=
  opcodes_ascend.filter _

theorem installed_count_eq :
    table.installedCount = opcodes.countP fun opcode => (table.handler? opcode).isSome := by
  rw [installedCount, slots_eq, List.countP_map]
  rfl

/-- Every opcode is either listed as unassigned or counted as installed. -/
theorem unassigned_and_installed : table.unassigned.length + table.installedCount = 256 := by
  have split := List.length_eq_countP_add_countP
    (fun opcode => (table.handler? opcode).isNone) (l := opcodes)
  have total : opcodes.length = 256 := by rw [opcodes, List.length_map, List.length_range]
  rw [unassigned, ← List.countP_eq_length_filter, installed_count_eq, ← total, split]
  congr 2
  funext opcode
  cases table.handler? opcode <;> rfl

theorem summary_eq : table.summary =
    "OpcodeTable \x7b installed: " ++ toString (256 - table.unassigned.length) ++ " \x7d" := by
  have installed := Nat.eq_sub_of_add_eq' table.unassigned_and_installed
  exact congrArg (fun count : Nat => "OpcodeTable \x7b installed: " ++ toString count ++ " \x7d")
    installed

end Slots

def perform (table : OpcodeTable β) : TableCall β → OpcodeTable β
  | .install opcode handler => (table.install opcode handler).2
  | .fillUnassigned handler => table.fillUnassigned handler

def performAll (calls : List (TableCall β)) (table : OpcodeTable β) : OpcodeTable β :=
  calls.foldl perform table

theorem perform_handlers (table : OpcodeTable β) (call : TableCall β) :
    (table.perform call).handler? = HandlerMap.perform table.handler? call := by
  funext opcode
  cases call with
  | install target handler => exact table.handler?_set target opcode handler
  | fillUnassigned handler =>
      refine (table.handler?_fillUnassigned handler opcode).trans ?_
      cases installed : table.handler? opcode <;> simp [HandlerMap.perform, installed]

theorem perform_all_handlers (calls : List (TableCall β)) (table : OpcodeTable β) :
    (performAll calls table).handler? = calls.foldl HandlerMap.perform table.handler? := by
  induction calls generalizing table with
  | nil => rfl
  | cons call rest induction =>
      rw [List.foldl_cons, ← perform_handlers]
      exact induction (table.perform call)

theorem Full.perform {table : OpcodeTable β} (full : table.Full) (call : TableCall β) :
    (table.perform call).Full := by
  cases call with
  | install target handler =>
      intro opcode
      rw [perform_handlers]
      by_cases same : opcode = target
      · exact ⟨handler, if_pos same⟩
      · obtain ⟨present, installed⟩ := full opcode
        exact ⟨present, (if_neg same).trans installed⟩
  | fillUnassigned handler => exact table.fill_full handler

theorem Full.perform_all {table : OpcodeTable β} (full : table.Full)
    (calls : List (TableCall β)) : (performAll calls table).Full := by
  induction calls generalizing table with
  | nil => exact full
  | cons call rest induction => exact induction (full.perform call)

theorem full_after_fill (earlier later : List (TableCall β)) (handler : Handler β)
    (table : OpcodeTable β) :
    (performAll (earlier ++ .fillUnassigned handler :: later) table).Full := by
  rw [performAll, List.foldl_append, List.foldl_cons]
  exact Full.perform_all (fill_full _ handler) later

/-- Everything that a table shows is read off the map. -/
structure ActsAs (table : OpcodeTable β) (map : HandlerMap β) : Prop where
  handler_eq : ∀ opcode, table.handler? opcode = map opcode
  replaced_eq : ∀ opcode handler, (table.install opcode handler).1 = map opcode
  mem_unassigned : ∀ opcode, opcode ∈ table.unassigned ↔ map opcode = none
  distinct : table.unassigned.Nodup
  ascending : table.unassigned.Pairwise (· < ·)
  counted : table.unassigned.length + table.installedCount = 256
  summary_eq : table.summary =
    "OpcodeTable \x7b installed: " ++ toString (256 - table.unassigned.length) ++ " \x7d"
  fill_keeps : ∀ opcode present, map opcode = some present →
    ∀ handler, (table.fillUnassigned handler).handler? opcode = some present
  dispatch_eq : ∀ opcode context, table.dispatch opcode context =
    match map opcode with
    | some handler => ⟨handler context, .ok ()⟩
    | none => ⟨context, .error (.unassignedOpcode opcode (context.registers.pc - 1))⟩

theorem acts_as_handlers (table : OpcodeTable β) : table.ActsAs table.handler? := by
  constructor
  · intro opcode
    rfl
  · intro opcode handler
    rfl
  · exact table.mem_unassigned
  · exact table.unassigned_ascend.imp UInt8.ne_of_lt
  · exact table.unassigned_ascend
  · exact table.unassigned_and_installed
  · exact table.summary_eq
  · intro opcode present installed handler
    rw [handler?_fillUnassigned, installed]
    rfl
  · intro opcode context
    rfl

structure Complete (table : OpcodeTable β) : Prop where
  dispatched : ∀ opcode context, (table.dispatch opcode context).answer = .ok ()
  fill_eq : ∀ handler, table.fillUnassigned handler = table

theorem complete_of_full {table : OpcodeTable β} (full : table.Full) : table.Complete := by
  constructor
  · intro opcode context
    obtain ⟨handler, installed⟩ := full opcode
    rw [dispatch, installed]
  · intro handler
    apply ext_of_handlers
    intro opcode
    obtain ⟨present, installed⟩ := full opcode
    rw [handler?_fillUnassigned, installed]
    rfl

variable [Bus β]

inductive Beginning where
  | empty
  | control

namespace Beginning

def table : Beginning → OpcodeTable β
  | empty => .empty
  | control => .control

def map : Beginning → HandlerMap β
  | empty => fun _ => none
  | control => fun opcode => (ControlInstruction.decode opcode).map ControlInstruction.handler

theorem handlers_eq (beginning : Beginning) :
    (beginning.table : OpcodeTable β).handler? = beginning.map := by
  funext opcode
  cases beginning with
  | empty => exact handler?_empty opcode
  | control => exact handler?_control opcode

end Beginning

/-- After any installs and fills the table acts as the partial map that the calls lead to. Once a
fill was among them, it is complete. -/
theorem table_is_partial_map (beginning : Beginning) (calls : List (TableCall β)) :
    (performAll calls beginning.table).ActsAs (calls.foldl HandlerMap.perform beginning.map) ∧
      (∀ opcode, (performAll calls beginning.table).handler? opcode =
        beginning.map.settled calls opcode) ∧
      ∀ handler later, (performAll (calls ++ .fillUnassigned handler :: later)
        (beginning.table : OpcodeTable β)).Complete := by
  have handlers := perform_all_handlers calls (beginning.table : OpcodeTable β)
  rw [beginning.handlers_eq] at handlers
  refine ⟨?_, ?_, ?_⟩
  · rw [← handlers]
    exact acts_as_handlers _
  · intro opcode
    rw [handlers, HandlerMap.perform_all_eq]
  · intro handler later
    exact complete_of_full (full_after_fill calls later handler beginning.table)

example : (control : OpcodeTable Board).summary = "OpcodeTable \x7b installed: 15 \x7d" := by
  decide +kernel

end OpcodeTable

end Handheld
