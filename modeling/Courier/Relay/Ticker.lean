import Courier.Time.Span

/-!
# Tickers

A ticker is due at the moments of a grid. A tick that is taken late by more than a moment starts a
new grid there, so that ticks never bunch up. Moments are spans since the ticker was started.
-/

namespace Courier.Relay

/-- A ticker: when the next tick is due, and how far apart ticks are. -/
structure Ticker where
  due : Span
  period : Span
  deriving DecidableEq, Repr

namespace Ticker

def start (period : Span) : Ticker := ⟨.zero, period⟩

/-- How late a tick may be taken without moving the grid. -/
def tolerance : Span := .ofMillis 5

def taken (t : Ticker) (now : Span) : Ticker :=
  { t with due := (if t.due + tolerance < now then now else t.due) + t.period }

def immediately (t : Ticker) (now : Span) : Ticker := { t with due := now }

end Ticker

end Courier.Relay
