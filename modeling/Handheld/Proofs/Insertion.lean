import Handheld.Machine

/-!
# Putting a cartridge in

An image is accepted exactly if it is not empty and fits into the window. Then it is mapped and the
machine is reset; otherwise nothing happens to the machine.
-/

namespace Handheld

set_option autoImplicit false

/-- The image has a byte, and the window has room for all of its bytes. -/
def Cartridge.Fits (image : Image) : Prop :=
  0 < image.size ∧ image.size ≤ 32768

instance (image : Cartridge.Image) : Decidable (Cartridge.Fits image) :=
  inferInstanceAs (Decidable (_ ∧ _))

theorem Cartridge.rejection_of_fits {image : Image} (fits : Fits image) :
    rejection? image = none := by
  have room : ¬windowSize < image.size := Nat.not_lt.mpr fits.2
  rw [rejection?, if_neg (Nat.ne_of_gt fits.1), if_neg room]

theorem Cartridge.rejection_of_empty {image : Image} (empty : image.size = 0) :
    rejection? image = some .empty := by
  rw [rejection?, if_pos empty]

theorem Cartridge.rejection_of_large {image : Image} (large : 32768 < image.size) :
    rejection? image = some (.tooLarge image.size) := by
  have present : image.size ≠ 0 := by omega
  have outside : windowSize < image.size := large
  rw [rejection?, if_neg present, if_pos outside]

theorem Cartridge.fits_or_rejected (image : Image) :
    Fits image ∨ ∃ rejection, rejection? image = some rejection := by
  rcases Nat.eq_zero_or_pos image.size with empty | positive
  · exact .inr ⟨_, rejection_of_empty empty⟩
  · rcases Nat.lt_or_ge 32768 image.size with large | room
    · exact .inr ⟨_, rejection_of_large large⟩
    · exact .inl ⟨positive, room⟩

namespace Machine

theorem reset_table (machine : Machine) : machine.reset.cpu.table = machine.cpu.table := by
  simp only [reset, Cpu.reset]

def mapped (machine : Machine) (image : Cartridge.Image) : Machine :=
  { machine with
    board := { machine.board with memory := machine.board.memory.mapCartridge image } }

def insertionNotices (model : Model) (image : Cartridge.Image) : List Notice :=
  (Cartridge.controller? image).toList.map
      (fun controller => Notice.controllerIgnored controller image.size) ++
    [.inserted image.size model]

theorem insert_of_fits (machine : Machine) {image : Cartridge.Image}
    (fits : Cartridge.Fits image) :
    machine.insert image =
      ⟨(machine.mapped image).reset, .ok (insertionNotices machine.cpu.config.model image)⟩ := by
  obtain ⟨cpu, board, clock⟩ := machine
  simp only [insert, Board.insert, Cartridge.rejection_of_fits fits]
  rfl

theorem insert_of_rejection (machine : Machine) {image : Cartridge.Image}
    {rejection : Cartridge.Rejection} (rejected : Cartridge.rejection? image = some rejection) :
    machine.insert image = ⟨machine, .error rejection⟩ := by
  obtain ⟨cpu, board, clock⟩ := machine
  simp only [insert, Board.insert, rejected]

theorem insert_cases (machine : Machine) (image : Cartridge.Image) :
    machine.insert image =
        ⟨(machine.mapped image).reset, .ok (insertionNotices machine.cpu.config.model image)⟩ ∨
      ∃ rejection, machine.insert image = ⟨machine, .error rejection⟩ := by
  rcases Cartridge.fits_or_rejected image with fits | ⟨rejection, rejected⟩
  · exact .inl (insert_of_fits machine fits)
  · exact .inr ⟨rejection, insert_of_rejection machine rejected⟩

theorem fits_of_accepted {machine : Machine} {image : Cartridge.Image} {notices : List Notice}
    (accepted : (machine.insert image).answer = .ok notices) : Cartridge.Fits image := by
  rcases Cartridge.fits_or_rejected image with fits | ⟨rejection, rejected⟩
  · exact fits
  · rw [insert_of_rejection machine rejected] at accepted
    contradiction

def configFor (image : Cartridge.Image) (tracing : Bool) : Config where
  model := (Cartridge.requestedModel? image).getD .gameBoy
  tracing := tracing

theorem of_image_eq (image : Cartridge.Image) (tracing : Bool) :
    ofImage image tracing =
      ((ofConfig (configFor image tracing)).insert image).answer.map
        fun notices => (((ofConfig (configFor image tracing)).insert image).state, notices) := by
  unfold ofImage configFor
  dsimp only
  rw [Model.standard]
  cases ((ofConfig _).insert image).answer with
  | error rejection => rfl
  | ok notices => rfl

theorem of_image_of_fits {image : Cartridge.Image} (fits : Cartridge.Fits image)
    (tracing : Bool) :
    ofImage image tracing =
      .ok (((ofConfig (configFor image tracing)).mapped image).reset,
        insertionNotices (configFor image tracing).model image) := by
  rw [of_image_eq, insert_of_fits _ fits]
  rfl

theorem insert_of_made {image : Cartridge.Image} {tracing : Bool} {machine : Machine}
    {notices : List Notice} (made : ofImage image tracing = .ok (machine, notices)) :
    (ofConfig (configFor image tracing)).insert image = ⟨machine, .ok notices⟩ := by
  rw [of_image_eq] at made
  generalize (ofConfig (configFor image tracing)).insert image = inserted at made ⊢
  obtain ⟨state, answer⟩ := inserted
  cases answer with
  | error rejection => contradiction
  | ok told =>
      obtain ⟨rfl, rfl⟩ := Prod.mk.inj (Except.ok.inj made)
      rfl

end Machine

end Handheld
