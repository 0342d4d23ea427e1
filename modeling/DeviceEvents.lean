import DeviceEvents.Assignment
import DeviceEvents.Dictionary
import DeviceEvents.Digest
import DeviceEvents.Dimension
import DeviceEvents.Envelope
import DeviceEvents.Event.Basic
import DeviceEvents.Event.Kind
import DeviceEvents.Event.Payload
import DeviceEvents.Event.PayloadJson
import DeviceEvents.Ingest.Counters
import DeviceEvents.Ingest.Deduplicator
import DeviceEvents.Ingest.Delivery
import DeviceEvents.Ingest.Intake
import DeviceEvents.Ingest.Lifecycle
import DeviceEvents.Ingest.Persistence
import DeviceEvents.Ingest.Window
import DeviceEvents.Instant.Basic
import DeviceEvents.Instant.Civil
import DeviceEvents.Instant.Reading
import DeviceEvents.Json.Bytes
import DeviceEvents.Json.Reader
import DeviceEvents.Json.Record
import DeviceEvents.Json.Token
import DeviceEvents.Json.Value
import DeviceEvents.Main
import DeviceEvents.Number.Binary64
import DeviceEvents.Number.Numeral
import DeviceEvents.Number.Shortest
import DeviceEvents.Proofs.Event.Batch
import DeviceEvents.Proofs.Event.Documented
import DeviceEvents.Proofs.Event.HintUse
import DeviceEvents.Proofs.Event.Items
import DeviceEvents.Proofs.Event.PayloadText
import DeviceEvents.Proofs.Fallible
import DeviceEvents.Proofs.Ingest.Attended
import DeviceEvents.Proofs.Ingest.Balance
import DeviceEvents.Proofs.Ingest.Contention
import DeviceEvents.Proofs.Ingest.Identity
import DeviceEvents.Proofs.Ingest.Inflow
import DeviceEvents.Proofs.Ingest.Lookup
import DeviceEvents.Proofs.Ingest.Recency
import DeviceEvents.Proofs.Ingest.Redelivery
import DeviceEvents.Proofs.Instant.Calendar
import DeviceEvents.Proofs.Instant.DateText
import DeviceEvents.Proofs.Instant.Elapsed
import DeviceEvents.Proofs.Instant.LenientText
import DeviceEvents.Proofs.Instant.Truncation
import DeviceEvents.Proofs.Json.Distinct
import DeviceEvents.Proofs.Json.Excerpt
import DeviceEvents.Proofs.Json.Reading
import DeviceEvents.Proofs.Json.Retelling
import DeviceEvents.Proofs.Json.Scanning
import DeviceEvents.Proofs.Number.Rounding
import DeviceEvents.Proofs.Receiver.Passage
import DeviceEvents.Proofs.Receiver.Settlement
import DeviceEvents.Proofs.Receiver.SubjectToken
import DeviceEvents.Proofs.Receiver.Subscription
import DeviceEvents.Proofs.Runner.Shutdown
import DeviceEvents.Proofs.Simulation.Answered
import DeviceEvents.Proofs.Simulation.Background
import DeviceEvents.Proofs.Simulation.Ingested
import DeviceEvents.Proofs.Simulation.Retried
import DeviceEvents.Proofs.Simulation.Scheduled
import DeviceEvents.Proofs.Simulation.Traced
import DeviceEvents.Proofs.Stateful
import DeviceEvents.Proofs.Store.Completeness
import DeviceEvents.Proofs.Store.Conservation
import DeviceEvents.Proofs.Store.Covering
import DeviceEvents.Proofs.Store.Entries
import DeviceEvents.Proofs.Store.Enumeration
import DeviceEvents.Proofs.Store.FanOut
import DeviceEvents.Proofs.Store.Inline
import DeviceEvents.Proofs.Store.Listing
import DeviceEvents.Proofs.Store.Newest
import DeviceEvents.Proofs.Store.OpenRange
import DeviceEvents.Proofs.Store.Paging
import DeviceEvents.Proofs.Store.Piecemeal
import DeviceEvents.Proofs.Store.Planning
import DeviceEvents.Proofs.Store.References
import DeviceEvents.Proofs.Store.StoredText
import DeviceEvents.Proofs.Store.Tenants
import DeviceEvents.Proofs.Store.Traffic
import DeviceEvents.Receiver.BrokerAddress
import DeviceEvents.Receiver.Channel
import DeviceEvents.Receiver.Mqtt
import DeviceEvents.Receiver.Nats
import DeviceEvents.Receiver.RetryBudget
import DeviceEvents.Receiver.Topic
import DeviceEvents.Registry
import DeviceEvents.Request
import DeviceEvents.Runner
import DeviceEvents.Search
import DeviceEvents.Service.Launch
import DeviceEvents.Service.Settings
import DeviceEvents.Service.Telemetry
import DeviceEvents.Service.Uri
import DeviceEvents.Simulation.Clock
import DeviceEvents.Simulation.Feed
import DeviceEvents.Simulation.Script
import DeviceEvents.Simulation.Service
import DeviceEvents.Simulation.Stores
import DeviceEvents.Simulation.Timetable
import DeviceEvents.Simulation.World
import DeviceEvents.Store.Bucket
import DeviceEvents.Store.ClickHouse
import DeviceEvents.Store.Codec
import DeviceEvents.Store.Error
import DeviceEvents.Store.EventStore
import DeviceEvents.Store.Pager
import DeviceEvents.Store.Partition
import DeviceEvents.Store.Query
import DeviceEvents.Store.Rows
import DeviceEvents.Store.WideRow
import DeviceEvents.Table
import DeviceEvents.Text.Blank
import DeviceEvents.Text.Casing
import DeviceEvents.Text.Duration
import DeviceEvents.Text.Hex
import DeviceEvents.Text.Lowercase
import DeviceEvents.Text.Natural
import DeviceEvents.Text.Printable
import DeviceEvents.Text.Quoted
import DeviceEvents.Text.Runs
import DeviceEvents.Text.Utf8
import DeviceEvents.Uuid
