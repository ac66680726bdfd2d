import Courier.Dispatch.Handling
import Courier.Relay.Round
import Courier.Storage.Recording
import Courier.Stream.Group

/-!
# A world in memory

Everything the relay and the dispatch workers work with, kept in memory under a clock that moves
only when told to: the database, a stream with one consumer group, the store of markers, a receiver
that answers as it is told, and a finder of incidents. Each collaborator can be made to fail; a
fault shows before the collaborator does anything.
-/

namespace Courier.Simulation

open Courier.Stream Courier.Storage

structure Setup where
  batchSize : Nat
  lease : Span
  maxAttempts : Int
  readCount : Nat
  block : Span
  reclaimIdle : Span
  inFlightTtl : Span
  dedupeTtl : Span
  deriving DecidableEq, Repr

def Setup.standard : Setup :=
  { batchSize := 100, lease := .ofSeconds 30, maxAttempts := 10, readCount := 1,
    block := .ofMillis 2000, reclaimIdle := .ofMillis 60000, inFlightTtl := .ofMillis 30000,
    dedupeTtl := .ofMillis 86400000 }

def Setup.relay (s : Setup) : Relay.Config :=
  ⟨.withMaxAttempts s.maxAttempts, s.batchSize, .ofSeconds 1, s.lease⟩

def Setup.worker (s : Setup) : Dispatch.Config :=
  ⟨"worker-0", s.readCount, s.block, s.reclaimIdle, s.inFlightTtl, s.dedupeTtl⟩

inductive Response
  | status (code : Nat)
  | transport (text : String)
  deriving DecidableEq, Repr

def Response.seen : Response → Except Webhook.SendError Nat
  | status code => if Webhook.IsSuccess code then .ok code else .error (.status code)
  | transport text => .error (.transport text)

inductive Place
  | publish
  | read
  | reclaim
  | acknowledge
  | tryBegin
  | markDelivered
  | finder
  deriving DecidableEq, Repr

structure World where
  now : Instant
  setup : Setup
  tables : Tables
  stream : Group
  markers : Marker.Store
  responses : List Response
  sent : List Webhook.Request
  incidents : List Check.Incident
  asked : List (Check.Point × Nat)
  faults : List (Place × String)
  reports : List Report

namespace World

def start (now : Instant) (setup : Setup) : World :=
  { now, setup, tables := .empty, stream := .empty, markers := .empty, responses := [],
    sent := [], incidents := [], asked := [], faults := [], reports := [] }

def fault? (w : World) (p : Place) : Option String := w.faults.lookup p

def setFault (w : World) (p : Place) (text : Option String) : World :=
  let others := w.faults.filter (·.1 != p)
  { w with faults := match text with
    | some t => (p, t) :: others
    | none => others }

def find (w : World) (limit : Nat) : Except StorageError (List Check.Incident) :=
  match w.fault? .finder with
  | some "NotFound" => .error .notFound
  | some text => .error (.invalidArgument text)
  | none => .ok (w.incidents.take limit)

end World

/-- The end of everything: some arithmetic left the calendar. -/
inductive Crash
  | calendar
  deriving DecidableEq, Repr

abbrev Act (α : Type) := ExceptT Crash (StateM World) α

namespace Act

variable {ε α : Type}

def report (r : Report) : Act Unit := modify fun w => { w with reports := w.reports ++ [r] }

def sql (work : Instant → Sql ε α) : Act (Except ε α) := do
  let w ← get
  let (r, s) := work w.now ⟨w.tables, [], w.reports⟩
  set { w with tables := s.tables, reports := s.reports }
  match r with
  | .ok a => return .ok a
  | .error (.error e) => return .error e
  | .error .crash => throw .calendar

def unlessFault (p : Place) (error : String → ε) (act : Act α) : Act (Except ε α) := do
  match (← get).fault? p with
  | some text => return .error (error text)
  | none => return .ok (← act)

def onStream (f : Group → Instant → Group × α) : Act α := do
  let w ← get
  let (stream, a) := f w.stream w.now
  set { w with stream }
  return a

def onMarkers (f : Marker.Store → Instant → Marker.Store × α) : Act α := do
  let w ← get
  let (markers, a) := f w.markers w.now
  set { w with markers }
  return a

def send (r : Webhook.Request) : Act (Except Webhook.SendError Nat) := do
  let w ← get
  let (response, responses) := match w.responses with
    | [] => (Response.status 200, [])
    | x :: xs => (x, xs)
  set { w with responses, sent := w.sent ++ [r] }
  return response.seen

def answerRelay : (c : Relay.Call) → Act c.Reply
  | .claim limit lease => sql (Sql.claimBatch limit lease)
  | .publish batch =>
    unlessFault .publish .unavailable (onStream fun g _ => (g.publish batch, ()))
  | .reconcile outcome => sql (Sql.reconcile outcome)
  | .now => return (← get).now
  | .report r => report r
  | .abort => throw .calendar

def answerWorker : (c : Dispatch.Call) → Act c.Reply
  | .reclaim _ minIdle count =>
    unlessFault .reclaim .unavailable (onStream fun g now => g.reclaim minIdle count now)
  | .read _ count _ => unlessFault .read .unavailable (onStream fun g now => g.read count now)
  | .acknowledge id =>
    unlessFault .acknowledge .unavailable (onStream fun g _ => (g.acknowledge id, ()))
  | .tryBegin key ttl =>
    unlessFault .tryBegin .unavailable (onMarkers fun s now => s.tryBegin key ttl now)
  | .markDelivered key ttl =>
    unlessFault .markDelivered .unavailable
      (onMarkers fun s now => (s.markDelivered key ttl now, ()))
  | .send r => send r
  | .report r => report r

def relay : Act (Except WorkerError Relay.Summary) := do
  (Relay.round (← get).setup.relay).run answerRelay

def poll : Act (Except WorkerError (List Dispatch.Outcome)) := do
  (Dispatch.poll (← get).setup.worker).run answerWorker

def handle (d : Delivery) : Act (Except WorkerError Dispatch.Outcome) := do
  (Dispatch.handle (← get).setup.worker d).run answerWorker

end Act

end Courier.Simulation
