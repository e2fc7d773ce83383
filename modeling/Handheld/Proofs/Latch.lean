/-!
# Latches

Some entries of a list set a latch and some clear it. At the end of the list the latch is on if it
was on in the beginning and nothing cleared it, or if something set it and nothing after that
cleared it. Whoever needs the latch on for an entry that has just been cleared finds in between an
entry that set it.
-/

namespace Handheld

set_option autoImplicit false

/-- The entries that set a latch and those that clear it. An entry of both kinds leaves it set. -/
structure Latch (α : Type) where
  sets : α → Bool
  clears : α → Bool

namespace Latch

variable {α : Type} (latch : Latch α)

def next (on : Bool) (entry : α) : Bool :=
  latch.sets entry || (on && !latch.clears entry)

def after (on : Bool) (entries : List α) : Bool :=
  entries.foldl latch.next on

/-- Nothing cleared the latch since it was last set, or since the beginning if it was on there. -/
def LeftOn (on : Bool) (entries : List α) : Prop :=
  (on = true ∧ ∀ entry ∈ entries, latch.clears entry = false) ∨
    ∃ earlier entry later, entries = earlier ++ entry :: later ∧ latch.sets entry = true ∧
      ∀ other ∈ later, latch.clears other = false

theorem after_append (on : Bool) (earlier later : List α) :
    latch.after on (earlier ++ later) = latch.after (latch.after on earlier) later :=
  List.foldl_append

theorem split_cons {first : α} {rest : List α} {picked : α → List α → Prop} :
    (∃ earlier entry later, first :: rest = earlier ++ entry :: later ∧ picked entry later) ↔
      picked first rest ∨
        ∃ earlier entry later, rest = earlier ++ entry :: later ∧ picked entry later := by
  constructor
  · rintro ⟨earlier, entry, later, same, pick⟩
    cases earlier with
    | nil =>
        obtain ⟨rfl, rfl⟩ := List.cons.inj same
        exact .inl pick
    | cons head before => exact .inr ⟨before, entry, later, (List.cons.inj same).2, pick⟩
  · rintro (pick | ⟨earlier, entry, later, rfl, pick⟩)
    · exact ⟨[], first, rest, rfl, pick⟩
    · exact ⟨first :: earlier, entry, later, rfl, pick⟩

theorem left_on_cons (on : Bool) (entry : α) (later : List α) :
    latch.LeftOn on (entry :: later) ↔ latch.LeftOn (latch.next on entry) later := by
  unfold LeftOn
  rw [split_cons, ← or_assoc]
  apply or_congr_left
  rw [List.forall_mem_cons, ← and_assoc, ← or_and_right, next]
  simp [or_comm]

theorem after_iff (on : Bool) (entries : List α) :
    latch.after on entries = true ↔ latch.LeftOn on entries := by
  induction entries generalizing on with
  | nil => simp [after, LeftOn]
  | cons entry later induction =>
      rw [left_on_cons, ← induction]
      rfl

/-- Every entry finds the latch as `allowed` asks for it. -/
def Guards (allowed : Bool → α → Prop) : Bool → List α → Prop
  | _, [] => True
  | on, entry :: later => allowed on entry ∧ Guards allowed (latch.next on entry) later

variable {latch} {allowed : Bool → α → Prop}

theorem guards_append (on : Bool) (earlier later : List α) :
    latch.Guards allowed on (earlier ++ later) ↔
      latch.Guards allowed on earlier ∧ latch.Guards allowed (latch.after on earlier) later := by
  induction earlier generalizing on with
  | nil => simp [Guards, after]
  | cons entry rest induction =>
      rw [List.cons_append, Guards, Guards, induction, and_assoc]
      rfl

theorem allowed_of_guards {on : Bool} {earlier later : List α} {entry : α}
    (guards : latch.Guards allowed on (earlier ++ entry :: later)) :
    allowed (latch.after on earlier) entry :=
  ((guards_append on earlier (entry :: later)).mp guards).2.1

/-- Where an entry only clears the latch and one after it needs it, something between them sets
it. -/
theorem set_between {on : Bool} {earlier middle later : List α} {first second : α}
    (guards : latch.Guards allowed on (earlier ++ first :: (middle ++ second :: later)))
    (clears : latch.next (latch.after on earlier) first = false)
    (needs : ∀ on, allowed on second → on = true) :
    ∃ entry ∈ middle, latch.sets entry = true := by
  have rest := ((guards_append on earlier _).mp guards).2.2
  rw [clears] at rest
  have set := needs _ (allowed_of_guards rest)
  rcases (latch.after_iff false middle).mp set with ⟨impossible, _⟩ | ⟨_, entry, _, rfl, sets, _⟩
  · contradiction
  · exact ⟨entry, by simp, sets⟩

end Latch

end Handheld
