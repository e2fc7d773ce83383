import Handheld.FrameClock
import Handheld.Proofs.Checked

/-!
# The frame clock

`Carried` says once what the loop over ended frames can do, in unbounded numbers: it counts all
whole frames, or it stops at a full frame counter, with the ticks of the frame that it could not
count taken off already. An advance does that, unless the ticks themselves have no room. The loop
goes round at most once in every step, as a step is far shorter than a frame.
-/

namespace Handheld.FrameClock

set_option autoImplicit false

theorem ticks_per_frame_toNat : ticksPerFrame.toNat = 70224 := rfl

/-- The ways in which the loop can go that begins with `held` ticks. -/
inductive Carried (frames : UInt32) (held : Nat) : Attempt FrameClock Fault Unit → Prop where
  | counted {count : Nat} {reached past : UInt32} (sum : 70224 * count + past.toNat = held)
      (under : past.toNat < 70224) (next : reached.toNat = frames.toNat + count) :
      Carried frames held ⟨⟨reached, past⟩, .ok ()⟩
  | full {count : Nat} {reached past : UInt32} (sum : 70224 * (count + 1) + past.toNat = held)
      (next : reached.toNat = frames.toNat + count) (full : UInt32.size ≤ reached.toNat + 1) :
      Carried frames held ⟨⟨reached, past⟩, .error .additionOverflow⟩

theorem Carried.after_frame {frames more : UInt32} {held left : Nat}
    {reached : Attempt FrameClock Fault Unit} (carried : Carried more left reached)
    (next : more.toNat = frames.toNat + 1) (ended : 70224 + left = held) :
    Carried frames held reached := by
  cases carried with
  | @counted count _ past sum under total =>
      have whole : 70224 * (count + 1) + past.toNat = held := by omega
      exact .counted whole under (by omega)
  | @full count _ past sum total full =>
      have whole : 70224 * (count + 1 + 1) + past.toNat = held := by omega
      exact .full whole (by omega) full

/-- One time round the loop: a frame comes off the ticks and is counted. -/
def endFrame (clock : FrameClock) : Attempt FrameClock Fault Unit :=
  let ended := { clock with ticks := clock.ticks - ticksPerFrame }
  match Checked.add32 ended.frames 1 with
  | .error fault => ⟨ended, .error fault⟩
  | .ok frames => ⟨{ ended with frames }, .ok ()⟩

section Loop

variable {clock : FrameClock}

theorem carry_of_under (under : clock.ticks.toNat < 70224) : clock.carry = ⟨clock, .ok ()⟩ := by
  rw [← ticks_per_frame_toNat, ← UInt32.lt_iff_toNat_lt] at under
  rw [carry, dif_pos under]

theorem ended_ticks (clock : FrameClock) (ended : 70224 ≤ clock.ticks.toNat) :
    70224 + (clock.ticks - ticksPerFrame).toNat = clock.ticks.toNat := by
  have enough : ticksPerFrame ≤ clock.ticks := by
    rwa [UInt32.le_iff_toNat_le, ticks_per_frame_toNat]
  rw [UInt32.toNat_sub_of_le _ _ enough, ticks_per_frame_toNat]
  omega

theorem carry_carried (clock : FrameClock) :
    Carried clock.frames clock.ticks.toNat clock.carry := by
  fun_induction carry clock with
  | case1 clock under =>
      rw [UInt32.lt_iff_toNat_lt, ticks_per_frame_toNat] at under
      have none : 70224 * 0 + clock.ticks.toNat = clock.ticks.toNat := Nat.zero_add _
      exact .counted none under rfl
  | case2 clock long ended fault full =>
      rw [UInt32.lt_iff_toNat_lt, ticks_per_frame_toNat, Nat.not_lt] at long
      rcases Nat.lt_or_ge (clock.frames.toNat + 1) UInt32.size with room | none
      · rw [Checked.add32_of_room room] at full
        contradiction
      · rw [Checked.add32_without_room none] at full
        rw [← Except.error.inj full]
        have first : 70224 * (0 + 1) + ended.ticks.toNat = clock.ticks.toNat :=
          ended_ticks clock long
        exact .full first rfl none
  | case3 clock long ended frames counted induction =>
      rw [UInt32.lt_iff_toNat_lt, ticks_per_frame_toNat, Nat.not_lt] at long
      rcases Nat.lt_or_ge (clock.frames.toNat + 1) UInt32.size with room | none
      · rw [Checked.add32_of_room room] at counted
        obtain rfl := Except.ok.inj counted
        exact induction.after_frame (Checked.sum32_of_room room) (ended_ticks clock long)
      · rw [Checked.add32_without_room none] at counted
        contradiction

/-- The loop goes round at most once, from inside a frame and for less than the ticks of one. -/
theorem advance_once {ticks : UInt32} (within : clock.ticks.toNat < 70224)
    (short : ticks.toNat < 70224) :
    clock.advance ticks =
      if clock.ticks.toNat + ticks.toNat < 70224 then
        ⟨{ clock with ticks := clock.ticks + ticks }, .ok ()⟩
      else endFrame { clock with ticks := clock.ticks + ticks } := by
  have room : clock.ticks.toNat + ticks.toNat < UInt32.size := by
    simp only [UInt32.size]
    omega
  have total := Checked.sum32_of_room room
  rw [advance, Checked.add32_of_room room]
  dsimp only
  split
  · rename_i under
    exact carry_of_under (total ▸ under)
  · rename_i long
    have left := ended_ticks { clock with ticks := clock.ticks + ticks }
      (total ▸ Nat.le_of_not_lt long)
    have notUnder : ¬clock.ticks + ticks < ticksPerFrame := by
      rwa [UInt32.lt_iff_toNat_lt, total, ticks_per_frame_toNat]
    rw [carry, dif_neg notUnder, endFrame]
    dsimp only at left ⊢
    cases Checked.add32 clock.frames 1 with
    | error fault => rfl
    | ok frames =>
        apply carry_of_under
        dsimp only
        omega

end Loop

/-- The ways in which an advance can go. -/
inductive Advanced (clock : FrameClock) (ticks : UInt32) : Attempt FrameClock Fault Unit → Prop where
  | carried {reached : Attempt FrameClock Fault Unit}
      (carried : Carried clock.frames (clock.ticks.toNat + ticks.toNat) reached) :
      Advanced clock ticks reached
  | ticksFull (full : UInt32.size ≤ clock.ticks.toNat + ticks.toNat) :
      Advanced clock ticks ⟨clock, .error .additionOverflow⟩

theorem advance_advanced (clock : FrameClock) (ticks : UInt32) :
    clock.Advanced ticks (clock.advance ticks) := by
  unfold advance
  rcases Nat.lt_or_ge (clock.ticks.toNat + ticks.toNat) UInt32.size with room | full
  · have carried := carry_carried { clock with ticks := clock.ticks + ticks }
    dsimp only at carried
    rw [Checked.sum32_of_room room] at carried
    rw [Checked.add32_of_room room]
    exact .carried carried
  · rw [Checked.add32_without_room full]
    exact .ticksFull full

section Advance

variable {clock : FrameClock} {ticks : UInt32}

theorem frames_advance (answered : (clock.advance ticks).answer = .ok ()) :
    clock.frames.toNat ≤ (clock.advance ticks).state.frames.toNat := by
  have advanced := clock.advance_advanced ticks
  generalize clock.advance ticks = reached at advanced answered ⊢
  rcases advanced with ⟨_ | _⟩ | _
  · rename_i next
    exact Nat.le.intro next.symm
  · contradiction
  · contradiction

theorem advance_answers (fits : clock.ticks.toNat + ticks.toNat < UInt32.size)
    (room : clock.frames.toNat + (clock.ticks.toNat + ticks.toNat) / 70224 < UInt32.size) :
    (clock.advance ticks).answer = .ok () := by
  have advanced := clock.advance_advanced ticks
  generalize clock.advance ticks = reached at advanced ⊢
  rcases advanced with ⟨_ | ⟨sum, next, full⟩⟩ | full
  · rfl
  · omega
  · exact absurd fits (Nat.not_lt.mpr full)

theorem advance_of_room (within : clock.ticks.toNat < 70224) (short : ticks.toNat < 70224)
    (room : clock.frames.toNat + (clock.ticks.toNat + ticks.toNat) / 70224 < UInt32.size) :
    (clock.advance ticks).answer = .ok () ∧
      (clock.advance ticks).state.ticks.toNat < 70224 ∧
      70224 * (clock.advance ticks).state.frames.toNat + (clock.advance ticks).state.ticks.toNat =
        70224 * clock.frames.toNat + clock.ticks.toNat + ticks.toNat := by
  have total : (clock.ticks + ticks).toNat = clock.ticks.toNat + ticks.toNat := by
    apply Checked.sum32_of_room
    simp only [UInt32.size]
    omega
  rw [advance_once within short]
  split
  · rename_i under
    refine ⟨rfl, total ▸ under, ?_⟩
    dsimp only
    omega
  · rename_i long
    have left := ended_ticks { clock with ticks := clock.ticks + ticks }
      (total ▸ Nat.le_of_not_lt long)
    have counts : clock.frames.toNat + 1 < UInt32.size := by omega
    have next : (clock.frames + 1).toNat = clock.frames.toNat + 1 := Checked.sum32_of_room counts
    rw [endFrame, Checked.add32_of_room counts]
    dsimp only at left ⊢
    refine ⟨rfl, ?_, ?_⟩
    · omega
    · omega

/-- Whole machine cycles keep the clock at a whole machine cycle, as a frame has a whole number of
them. -/
theorem advance_whole (whole : 4 ∣ clock.ticks.toNat) (multiple : 4 ∣ ticks.toNat) :
    4 ∣ (clock.advance ticks).state.ticks.toNat := by
  have advanced := clock.advance_advanced ticks
  generalize clock.advance ticks = reached at advanced ⊢
  rcases advanced with ⟨⟨sum, _, _⟩ | ⟨sum, _, _⟩⟩ | _
  · dsimp only
    omega
  · dsimp only
    omega
  · exact whole

end Advance

end Handheld.FrameClock
