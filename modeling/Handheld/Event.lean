import Handheld.Interrupt

/-!
# Events of a step

A step begins with one of the first two events. A delivery may follow, and a step that comes to its
end closes with its cost. Events go to a sink if there is one; a sink keeps them in order.
-/

namespace Handheld

set_option autoImplicit false

inductive Event where
  | fetched (pc : UInt16) (opcode : UInt8)
  | idled (pc : UInt16)
  | delivered (source : Interrupt) (vector : UInt16)
  /-- The step is over; `total` is the tick counter after it. -/
  | retired (ticks : UInt32) (total : UInt64)
  deriving DecidableEq

def Event.delivery (source : Interrupt) : Event := .delivered source source.vector

abbrev Sink := Option (Array Event)

namespace Sink

variable (sink : Sink) (event : Event) (events : List Event)

def tell : Sink := sink.map (·.push event)

def tellAll : Sink := sink.map (· ++ events)

theorem tell_all_nil : sink.tellAll [] = sink := by
  cases sink <;> simp [tellAll]

theorem tell_all_tell : (sink.tell event).tellAll events = sink.tellAll (event :: events) := by
  cases sink <;> simp [tellAll, tell]

end Sink

end Handheld
