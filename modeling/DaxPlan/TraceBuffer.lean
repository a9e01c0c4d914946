import DaxPlan.Event

/-!
# Trace buffer

Events that arrive while a query is still running are buffered. Whoever needs them takes a snapshot, which later arrivals do not
change.
-/

namespace DaxPlan

/-- The events received so far, in the order of arrival. -/
structure TraceBuffer (α : Type) where
  events : List (Event α)

namespace TraceBuffer

variable {α : Type}

def empty : TraceBuffer α := ⟨[]⟩

def push (b : TraceBuffer α) (e : Event α) : TraceBuffer α := ⟨b.events ++ [e]⟩

def extend (b : TraceBuffer α) (events : List (Event α)) : TraceBuffer α := ⟨b.events ++ events⟩

def snapshot (b : TraceBuffer α) : List (Event α) := b.events

def length (b : TraceBuffer α) : Nat := b.events.length

def isEmpty (b : TraceBuffer α) : Bool := b.events.isEmpty

/-- Takes all events out. -/
def drain (b : TraceBuffer α) : TraceBuffer α × List (Event α) := (empty, b.events)

end TraceBuffer

end DaxPlan
