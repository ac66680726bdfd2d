import Courier.Time.Span

/-!
# Timelines

The time that passes in a simulated run, and the moment of the request to stop. Time passes only
while something waits.
-/

namespace Courier.Simulation

/-- The time since the beginning, and when the request to stop comes. -/
structure Timeline where
  elapsed : Span
  stopAt : Span
  deriving DecidableEq, Repr

namespace Timeline

def isStopped (t : Timeline) : Bool := decide (t.stopAt ≤ t.elapsed)

def pass (t : Timeline) (s : Span) : Timeline := { t with elapsed := t.elapsed + s }

/-- A wait until a moment that the request breaks off; the answer is whether the moment came. A
moment that has passed ends the wait at once, unless the request came first. -/
def waitUntil (t : Timeline) (due : Span) : Timeline × Bool :=
  if t.isStopped then (t, false)
  else if t.stopAt ≤ due then ({ t with elapsed := t.stopAt }, false)
  else ({ t with elapsed := .max t.elapsed due }, true)

end Timeline

end Courier.Simulation
