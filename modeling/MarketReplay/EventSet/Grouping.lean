/-
Cutting a buffer of events into event sets.

The first event names a transaction, and everything in the buffer that belongs
to it is its set. More of the set may still be to come while the buffer holds
nothing else, or nothing later than the first event; then the buffer waits.
At the end of the log nothing waits. The event that names the transaction
always leaves the buffer, so cutting ends.
-/
import MarketReplay.Event

namespace MarketReplay

namespace EventSet

/-- May more of the set that `head` names still come after this buffer? -/
def waits (head : Event) (buffer : List Event) : Bool :=
  buffer.all (·.belongsTo head.key) || !buffer.any (head.timestamp < ·.timestamp)

/-- The complete sets at the start of a buffer, and the events that wait;
`final` says that no event comes after the buffer. -/
def split (final : Bool) : List Event → List (List Event) × List Event
  | [] => ([], [])
  | head :: tail =>
      if !final && waits head (head :: tail) then ([], head :: tail)
      else
        let set := (head :: tail).filter (·.belongsTo head.key)
        let others := tail.filter (!·.belongsTo head.key)
        let (sets, rest) := split final others
        (set :: sets, rest)
termination_by buffer => buffer.length
decreasing_by
  simp only [List.unattach_filter, List.unattach_attach, List.length_cons]
  exact Nat.lt_succ_of_le (List.length_filter_le ..)

end EventSet

end MarketReplay
