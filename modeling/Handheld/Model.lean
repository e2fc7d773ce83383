/-!
# Hardware models

The models that the machine can take the role of. A model has a short name, and no other text names
one.
-/

namespace Handheld

set_option autoImplicit false

inductive Model where
  | gameBoy
  | gameBoyColor
  | superGameBoy
  deriving DecidableEq

/-- A text that is not the short name of a model. -/
structure UnknownModel where
  name : String
  deriving DecidableEq

def UnknownModel.message (unknown : UnknownModel) : String :=
  "unknown hardware target `" ++ unknown.name ++ "` (expected gb, cgb or sgb)"

namespace Model

def all : List Model := [gameBoy, gameBoyColor, superGameBoy]

def name : Model → String
  | gameBoy => "gb"
  | gameBoyColor => "cgb"
  | superGameBoy => "sgb"

def ofName (text : String) : Except UnknownModel Model :=
  match all.find? (·.name == text) with
  | some model => .ok model
  | none => .error ⟨text⟩

def standard : Model := gameBoy

end Model

end Handheld
