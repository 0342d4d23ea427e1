import DeviceEvents.Ingest.Deduplicator
import DeviceEvents.Receiver.Mqtt
import DeviceEvents.Receiver.Nats
import DeviceEvents.Service.Telemetry
import DeviceEvents.Store.EventStore
import DeviceEvents.Text.Lowercase
/-
  DeviceEvents.Service.Settings — how the service is set up by its environment.

  A variable sets the setting that its name gives behind `TELEMETRY_`, in capital or small
  letters. Variables of other names count for nothing, and what is not set has its default.
  For limits zero is none.
-/

namespace DeviceEvents

inductive SettingFault where
  | notFlag (key value : String)
  | notNumber (key value : String)
  | tooLarge (key : String) (n : Nat)
  deriving DecidableEq

def SettingFault.message : SettingFault → String
  | .notFlag k v =>
    "invalid type: string " ++ Text.quoted v ++ ", expected a boolean for key \x60" ++ k ++
      "\x60 in the environment"
  | .notNumber k v =>
    "invalid type: string " ++ Text.quoted v ++ ", expected an integer for key \x60" ++ k ++
      "\x60 in the environment"
  | .tooLarge k n =>
    "invalid type: 64-bit unsigned integer \x60" ++ toString n ++
      "\x60, expected an unsigned 32 bit integer for key \x60" ++ k ++ "\x60"

structure Settings where
  logLevel : String := "info"
  otelEnabled : Bool := false
  otelEndpoint : String := "http://localhost:4317"
  otelServiceName : String := "telemetry-all-in-one"
  tenant : String := "default"
  storageBackend : String := "memory"
  bucketWidthSecs : Nat := 3600
  indexWriteTimeoutMs : Nat := 10000
  queryTimeoutMs : Nat := 30000
  maxBucketsPerQuery : Nat := 10000
  waitForIndexWrites : Bool := false
  clickHouseUrl : String := "http://localhost:8123"
  clickHouseDatabase : String := "telemetry"
  clickHouseUsername : String := "default"
  clickHousePassword : String := ""
  assignmentsFile : Option String := none
  dedupMode : String := "alternate_id"
  dedupCapacity : Nat := 10000
  natsEnabled : Bool := true
  natsUrl : String := "nats://localhost:4222"
  natsStream : String := "device_payloads"
  natsSubject : String := "device_payloads.>"
  natsConsumerName : String := "telemetry-ingest"
  natsWorkers : Nat := 3
  natsBatchSize : Nat := 32
  natsBatchWaitSecs : Nat := 5
  mqttEnabled : Bool := false
  mqttBrokerUrl : String := "mqtt://localhost:1883"
  mqttClientId : String := "telemetry-all-in-one"
  mqttMaxRetryAttempts : Nat := 10
  mqttRetryDelayMs : Nat := 2000
  startupTimeoutSecs : Nat := 10
  deriving DecidableEq, Repr

namespace Settings

/-! ## Values -/

def yes : List String := ["true", "on", "yes"]

def no : List String := ["false", "off", "no"]

def flag (key value : String) : Except SettingFault Bool :=
  let v := Text.lower value
  if v ∈ "1" :: yes then .ok true
  else if v ∈ "0" :: no then .ok false
  else .error (.notFlag key v)

/-- A natural number of 64 bits, or a word for one or for zero. -/
def number (key value : String) : Except SettingFault Nat :=
  let v := Text.lower value
  if v ∈ yes then .ok 1
  else if v ∈ no then .ok 0
  else match Text.naturalBelow? 0x10000000000000000 value.toList with
    | some n => .ok n
    | none => .error (.notNumber key value)

/-- A natural number of 32 bits. -/
def shortNumber (key value : String) : Except SettingFault Nat := do
  let n ← number key value
  if n < 0x100000000 then return n else .error (.tooLarge key n)

/-! ## From the environment -/

def set (s : Settings) (key value : String) : Except SettingFault Settings :=
  match key with
  | "log_level" => return { s with logLevel := value }
  | "otel_enabled" => return { s with otelEnabled := ← flag key value }
  | "otel_endpoint" => return { s with otelEndpoint := value }
  | "otel_service_name" => return { s with otelServiceName := value }
  | "tenant_id" => return { s with tenant := value }
  | "storage_backend" => return { s with storageBackend := value }
  | "bucket_width_secs" => return { s with bucketWidthSecs := ← number key value }
  | "index_write_timeout_ms" => return { s with indexWriteTimeoutMs := ← number key value }
  | "query_timeout_ms" => return { s with queryTimeoutMs := ← number key value }
  | "max_buckets_per_query" => return { s with maxBucketsPerQuery := ← number key value }
  | "wait_for_index_writes" => return { s with waitForIndexWrites := ← flag key value }
  | "clickhouse_url" => return { s with clickHouseUrl := value }
  | "clickhouse_database" => return { s with clickHouseDatabase := value }
  | "clickhouse_username" => return { s with clickHouseUsername := value }
  | "clickhouse_password" => return { s with clickHousePassword := value }
  | "assignments_file" => return { s with assignmentsFile := some value }
  | "dedup_mode" => return { s with dedupMode := value }
  | "dedup_capacity" => return { s with dedupCapacity := ← number key value }
  | "nats_enabled" => return { s with natsEnabled := ← flag key value }
  | "nats_url" => return { s with natsUrl := value }
  | "nats_stream" => return { s with natsStream := value }
  | "nats_subject" => return { s with natsSubject := value }
  | "nats_consumer_name" => return { s with natsConsumerName := value }
  | "nats_workers" => return { s with natsWorkers := ← number key value }
  | "nats_batch_size" => return { s with natsBatchSize := ← number key value }
  | "nats_batch_wait_secs" => return { s with natsBatchWaitSecs := ← number key value }
  | "mqtt_enabled" => return { s with mqttEnabled := ← flag key value }
  | "mqtt_broker_url" => return { s with mqttBrokerUrl := value }
  | "mqtt_client_id" => return { s with mqttClientId := value }
  | "mqtt_max_retry_attempts" => return { s with mqttMaxRetryAttempts := ← shortNumber key value }
  | "mqtt_retry_delay_ms" => return { s with mqttRetryDelayMs := ← number key value }
  | "startup_timeout_secs" => return { s with startupTimeoutSecs := ← number key value }
  | _ => return s

def variablePrefix : String := "telemetry_"

/-- The key of the setting that a variable is for. -/
def key? (name : String) : Option String :=
  let cs := (Text.lower name).toList
  let p := variablePrefix.toList
  if p.isPrefixOf cs then some (String.ofList (cs.drop p.length)) else none

def ofEnvironment (env : List (String × String)) : Except SettingFault Settings :=
  env.foldlM (fun s (name, value) =>
    match key? name with
    | some key => s.set key value
    | none => .ok s) {}

/-- All settings under their keys. -/
def fields (s : Settings) : List Json.Member :=
  let num (n : Nat) : Json.Value := .num (.int n)
  [("log_level", .str s.logLevel), ("otel_enabled", .bool s.otelEnabled),
    ("otel_endpoint", .str s.otelEndpoint), ("otel_service_name", .str s.otelServiceName),
    ("tenant_id", .str s.tenant), ("storage_backend", .str s.storageBackend),
    ("bucket_width_secs", num s.bucketWidthSecs),
    ("index_write_timeout_ms", num s.indexWriteTimeoutMs),
    ("query_timeout_ms", num s.queryTimeoutMs),
    ("max_buckets_per_query", num s.maxBucketsPerQuery),
    ("wait_for_index_writes", .bool s.waitForIndexWrites),
    ("clickhouse_url", .str s.clickHouseUrl), ("clickhouse_database", .str s.clickHouseDatabase),
    ("clickhouse_username", .str s.clickHouseUsername),
    ("clickhouse_password", .str s.clickHousePassword),
    ("assignments_file", .ofOption .str s.assignmentsFile), ("dedup_mode", .str s.dedupMode),
    ("dedup_capacity", num s.dedupCapacity), ("nats_enabled", .bool s.natsEnabled),
    ("nats_url", .str s.natsUrl), ("nats_stream", .str s.natsStream),
    ("nats_subject", .str s.natsSubject), ("nats_consumer_name", .str s.natsConsumerName),
    ("nats_workers", num s.natsWorkers), ("nats_batch_size", num s.natsBatchSize),
    ("nats_batch_wait_secs", num s.natsBatchWaitSecs), ("mqtt_enabled", .bool s.mqttEnabled),
    ("mqtt_broker_url", .str s.mqttBrokerUrl), ("mqtt_client_id", .str s.mqttClientId),
    ("mqtt_max_retry_attempts", num s.mqttMaxRetryAttempts),
    ("mqtt_retry_delay_ms", num s.mqttRetryDelayMs),
    ("startup_timeout_secs", num s.startupTimeoutSecs)]

def toJson (s : Settings) : Json.Value := .obj s.fields

/-! ## What they set up -/

def telemetry (s : Settings) : Telemetry :=
  ⟨s.otelServiceName, s.otelEndpoint, s.otelEnabled, s.logLevel⟩

/-- A limit, where zero is none. -/
def limit? (n : Nat) : Option Nat := if n = 0 then none else some n

def store (s : Settings) : StoreSettings where
  tenant := s.tenant
  scheme := .ofNanos (s.bucketWidthSecs * 1000000000)
  indexWriteLimit := limit? s.indexWriteTimeoutMs
  queryLimit := limit? s.queryTimeoutMs
  waitsForIndex := s.waitForIndexWrites
  maxBuckets := limit? s.maxBucketsPerQuery

inductive Backend where
  | memory
  | clickHouse
  deriving DecidableEq

def backend (s : Settings) : Except Failure Backend :=
  match s.storageBackend with
  | "memory" => .ok .memory
  | "clickhouse" => .ok .clickHouse
  | b => .error (.of ("unknown storage backend '" ++ b ++ "'"))

def deduplicator (s : Settings) : Except Failure DeduplicatorKind :=
  match s.dedupMode with
  | "none" => .ok .none
  | "alternate_id" => .ok .alternateId
  | "recent" => .ok (.recent s.dedupCapacity)
  | d => .error (.of ("unknown dedup mode '" ++ d ++ "'"))

def nats (s : Settings) : NatsSettings where
  stream := s.natsStream
  consumer := s.natsConsumerName
  filter := s.natsSubject
  batchSize := s.natsBatchSize
  batchWait := s.natsBatchWaitSecs * 1000
  workers := s.natsWorkers

def mqtt (s : Settings) : MqttSettings where
  broker := s.mqttBrokerUrl
  clientId := s.mqttClientId
  tenant := s.tenant
  maxAttempts := s.mqttMaxRetryAttempts
  retryDelay := s.mqttRetryDelayMs

end Settings
end DeviceEvents
