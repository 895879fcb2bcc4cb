import Statechart.Event.Basic

/-!
# The external queue

The queue through which the host sends events.  While it is closed it takes no event and gives none;
closing it drops the events that wait, and reopening it starts with none.
-/

namespace Statechart

/-- The external queue: the events that wait, oldest first, and whether it is closed. -/
structure ExternalQueue where
  events : List Event
  closed : Bool
  deriving Repr

namespace ExternalQueue

/-- An open queue without events. -/
def empty : ExternalQueue := ⟨[], false⟩

/-- Appends an event, unless the queue is closed. -/
def push? (q : ExternalQueue) (e : Event) : Option ExternalQueue :=
  if q.closed then none else some { q with events := q.events ++ [e] }

/-- Takes the oldest event of an open queue. -/
def pop (q : ExternalQueue) : Option Event × ExternalQueue :=
  if q.closed then (none, q)
  else match q.events with
    | [] => (none, q)
    | e :: rest => (some e, { q with events := rest })

/-- Closes the queue and drops its events. -/
def close (_ : ExternalQueue) : ExternalQueue := ⟨[], true⟩

/-- Opens the queue, without events. -/
def reopen (_ : ExternalQueue) : ExternalQueue := ⟨[], false⟩

/-- Taking an event leaves one event less. -/
theorem length_of_pop {q q' : ExternalQueue} {e : Event} (h : q.pop = (some e, q')) :
    q'.events.length + 1 = q.events.length := by
  unfold pop at h
  split at h
  · simp at h
  · split at h
    · simp at h
    · next hq =>
      obtain ⟨-, rfl⟩ := Prod.mk.inj h
      simp [hq]

end ExternalQueue

end Statechart
