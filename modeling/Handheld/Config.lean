import Handheld.Model

/-!
# Configuration

What is decided when a processor is made: the model that it plays, and whether it tells its steps.
-/

namespace Handheld

set_option autoImplicit false

structure Config where
  model : Model
  tracing : Bool
  deriving DecidableEq

namespace Config

def ofModel (model : Model) : Config := ⟨model, false⟩

def standard : Config := ofModel .standard

end Config

end Handheld
