import Courier.Decimal.Nearest
import Courier.Receiver.Service
import Courier.Redis.Address
import Courier.Redis.Broker
import Courier.Redis.Markers
import Courier.Settings.Environment
import Courier.Shutdown
import Courier.Simulation.RedisServer
import Courier.Simulation.RelayRun
import Courier.Simulation.Script
import Courier.Simulation.WorkerRun
import Courier.Storage.Pool
import Courier.Storage.Schema
import Courier.Webhook.Sender
import Courier.Proofs.Outbox.Ordered
import Courier.Proofs.Run
import Courier.Proofs.Storage.Transaction
import Courier.Proofs.Time.Clock
import Courier.Proofs.Storage.Outbox
import Courier.Proofs.Relay.Fleet
import Courier.Proofs.Relay.Fencing
import Courier.Proofs.Relay.Leases
import Courier.Proofs.Dialogue
import Courier.Proofs.Dispatch.Protocol
import Courier.Proofs.Dispatch.Crew
import Courier.Proofs.Dispatch.NoLoss
import Courier.Proofs.Dispatch.Timing
import Courier.Proofs.Dispatch.AtMostOnce
import Courier.Proofs.Storage.Lifecycle
import Courier.Proofs.Relay.Protocol
import Courier.Proofs.Relay.Rounds
import Courier.Proofs.Relay.Evidence
import Courier.Proofs.Relay.Prompt
import Courier.Proofs.Storage.Announced
import Courier.Proofs.Storage.Service
import Courier.Proofs.Json.Number
import Courier.Proofs.Json.Text
import Courier.Proofs.Json.Reading
import Courier.Proofs.Check.Completed
import Courier.Proofs.Outbox.Backoff
import Courier.Proofs.Relay.Unstuck
import Courier.Proofs.Relay.Schedule
import Courier.Proofs.Relay.Custody
import Courier.Proofs.Relay.DeadLetter
import Courier.Proofs.Check.Reading
import Courier.Proofs.Pipeline
import Courier.Proofs.Relay.AnyOrder
import Courier.Proofs.Outbox.Due
import Courier.Proofs.Storage.Claiming
import Courier.Proofs.Relay.Draining
import Courier.Proofs.Dispatch.Batches
import Courier.Proofs.Dispatch.Lateness
import Courier.Proofs.Dispatch.Redelivery
import Courier.Proofs.Dispatch.Failing
import Courier.Proofs.Storage.LeaseRange
import Courier.Proofs.Relay.AllOrNothing
import Courier.Proofs.Workers
import Courier.Proofs.Check.Accepted
import Courier.Proofs.Storage.Inspection
import Courier.Proofs.Text.Word
import Courier.Proofs.Stream.Codec
import Courier.Proofs.Stream.Reclaiming
import Courier.Proofs.Relay.Accounts
import Courier.Proofs.Relay.Tally
import Courier.Proofs.Shutdown
import Courier.Proofs.Webhook.Redirects
import Courier.Proofs.Dispatch.Collaborators
import Courier.Proofs.Outbox.Columns
