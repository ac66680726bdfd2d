import Courier.Telemetry
import Courier.Time.Span

/-!
# Shutting down

Workers run until they are asked to leave. They are all asked at once and then waited for one after
another, each for at most the same span of time from when its turn comes; one that is still there
when its time is up is aborted. Moments are spans since the workers were started.
-/

namespace Courier.Shutdown

inductive Exit
  | stopped
  | failed
  | crashed
  deriving DecidableEq, Repr

/-- When and how someone leaves, if ever. -/
abbrev Departure : Type := Option (Span × Exit)

structure Worker where
  name : String
  leaves : Span → Departure

inductive Fate
  | left (exit : Exit)
  | aborted
  deriving DecidableEq, Repr

def Fate.report (name : String) : Fate → Report
  | .left .stopped => .line .info "Worker stopped" [("worker", .text name)]
  | .left .failed => .line .error "Worker exited with error" [("worker", .text name)]
  | .left .crashed => .line .error "Worker task failed" [("worker", .text name)]
  | .aborted => .line .warn "Worker did not stop in time, aborting" [("worker", .text name)]

def waitFor (patience now : Span) (leaves : Departure) : Fate × Span :=
  match leaves with
  | some (t, exit) =>
    if t < now + patience then (.left exit, .max now t) else (.aborted, now + patience)
  | none => (.aborted, now + patience)

/-- Waits for workers one after another: their fates, and when the last wait ends. -/
def waitForAll (patience now : Span) : List Departure → List Fate × Span
  | [] => ([], now)
  | d :: ds =>
    let (fate, t) := waitFor patience now d
    let (fates, t) := waitForAll patience t ds
    (fate :: fates, t)

def startReport (w : Worker) : Report := .line .info "Starting worker" [("worker", .text w.name)]

/-- Shuts workers down at some moment: what is reported, and when all is done. All are asked to leave
at that moment, whenever their turn to be waited for comes. -/
def shutDown (patience now : Span) (ws : List Worker) : List Report × Span :=
  let (fates, t) := waitForAll patience now (ws.map (·.leaves now))
  (.line .info "Shutting down workers..." [] ::
    (List.zipWith (fun w f => Fate.report w.name f) ws fates ++
      [.line .info "Workers shut down successfully" []]), t)

/-- Waits for the request to shut down, which comes at some moment, and obeys it. Without workers
there is nothing to wait for. -/
def waitForRequest (patience request : Span) (ws : List Worker) : List Report × Span :=
  if ws.isEmpty then
    ([.line .warn "No workers running, nothing to wait for" []], .zero)
  else
    let (reports, t) := shutDown patience request ws
    (.line .info "Shutdown requested" [] :: reports, t)

theorem waitForAll_length (patience now : Span) (ds : List Departure) :
    (waitForAll patience now ds).1.length = ds.length := by
  induction ds generalizing now with
  | nil => rfl
  | cons d ds ih => simp [waitForAll, ih]

/-- A wait does not outlast the patience. -/
theorem waitFor_le (patience now : Span) (leaves : Departure) :
    (waitFor patience now leaves).2 ≤ now + patience := by
  unfold waitFor
  split
  · split
    · rename_i h
      simp only [Span.lt_iff, Span.le_iff, Span.add_nanos, Span.max_nanos] at *
      exact Nat.max_le.mpr ⟨by omega, by omega⟩
    · exact Nat.le_refl _
  · exact Nat.le_refl _

end Courier.Shutdown
