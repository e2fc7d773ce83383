import Handheld.Interrupt

/-!
# A ledger of requests and deliveries

Marks stand in the order in which things happened. A source waits after a request until it is
delivered, and the ledger is honest about it when every delivery finds the source waiting. Then
requests and deliveries of one source take turns, but for requests that come while one is waiting.
-/

namespace Handheld

set_option autoImplicit false

inductive Mark where
  | requested (source : Interrupt)
  | delivered (source : Interrupt)
  deriving DecidableEq

def Mark.waits (source : Interrupt) (waiting : Bool) : Mark → Bool
  | requested other => waiting || other == source
  | delivered other => waiting && other != source

def waitsAfter (source : Interrupt) (waiting : Bool) (marks : List Mark) : Bool :=
  marks.foldl (Mark.waits source) waiting

def Served (source : Interrupt) : Bool → List Mark → Prop
  | _, [] => True
  | waiting, mark :: later =>
      (mark = .delivered source → waiting = true) ∧ Served source (mark.waits source waiting) later

def HasOpenRequest (source : Interrupt) (marks : List Mark) : Prop :=
  ∃ earlier later, marks = earlier ++ .requested source :: later ∧ .delivered source ∉ later

variable {source : Interrupt}

theorem waits_after_append (waiting : Bool) (earlier later : List Mark) :
    waitsAfter source waiting (earlier ++ later) =
      waitsAfter source (waitsAfter source waiting earlier) later :=
  List.foldl_append

theorem served_append (waiting : Bool) (earlier later : List Mark) :
    Served source waiting (earlier ++ later) ↔
      Served source waiting earlier ∧ Served source (waitsAfter source waiting earlier) later := by
  induction earlier generalizing waiting with
  | nil => simp [Served, waitsAfter]
  | cons mark rest induction =>
      rw [List.cons_append, Served, Served, induction, and_assoc]
      rfl

theorem has_open_request_cons (mark : Mark) (later : List Mark) :
    HasOpenRequest source (mark :: later) ↔
      (mark = .requested source ∧ .delivered source ∉ later) ∨ HasOpenRequest source later := by
  constructor
  · rintro ⟨earlier, rest, same, undelivered⟩
    cases earlier with
    | nil =>
        obtain ⟨rfl, rfl⟩ := List.cons.inj same
        exact .inl ⟨rfl, undelivered⟩
    | cons first before =>
        exact .inr ⟨before, rest, (List.cons.inj same).2, undelivered⟩
  · rintro (⟨rfl, undelivered⟩ | ⟨earlier, rest, rfl, undelivered⟩)
    · exact ⟨[], later, rfl, undelivered⟩
    · exact ⟨mark :: earlier, rest, rfl, undelivered⟩

theorem waits_after_iff (waiting : Bool) (marks : List Mark) :
    waitsAfter source waiting marks = true ↔
      (waiting = true ∧ .delivered source ∉ marks) ∨ HasOpenRequest source marks := by
  induction marks generalizing waiting with
  | nil => simp [waitsAfter, HasOpenRequest]
  | cons mark later induction =>
      have unfolded : waitsAfter source waiting (mark :: later) =
          waitsAfter source (mark.waits source waiting) later := rfl
      rw [unfolded, induction, has_open_request_cons]
      cases mark with
      | requested other =>
          simp only [Mark.waits, Bool.or_eq_true, beq_iff_eq, Mark.requested.injEq, List.mem_cons,
            reduceCtorEq, false_or]
          rw [or_and_right, or_assoc]
      | delivered other =>
          simp only [Mark.waits, Bool.and_eq_true, bne_iff_ne, List.mem_cons, not_or,
            Mark.delivered.injEq, reduceCtorEq, false_and, false_or, ne_comm, ne_eq, and_assoc]

theorem waits_after_delivery (waiting : Bool) (earlier : List Mark) :
    waitsAfter source waiting (earlier ++ [.delivered source]) = false := by
  simp [waitsAfter, Mark.waits]

theorem requested_of_waits {marks : List Mark} (waits : waitsAfter source false marks = true) :
    .requested source ∈ marks := by
  rcases (waits_after_iff false marks).mp waits with ⟨already, _⟩ | ⟨earlier, later, rfl, _⟩
  · contradiction
  · simp

theorem requested_before_delivery {earlier later : List Mark}
    (served : Served source false (earlier ++ .delivered source :: later)) :
    .requested source ∈ earlier := by
  rw [served_append] at served
  exact requested_of_waits (served.2.1 rfl)

theorem requested_between_deliveries {waiting : Bool} {earlier middle later : List Mark}
    (served : Served source waiting
      (earlier ++ .delivered source :: (middle ++ .delivered source :: later))) :
    .requested source ∈ middle := by
  rw [List.append_cons, served_append, waits_after_delivery] at served
  exact requested_before_delivery served.2

end Handheld
