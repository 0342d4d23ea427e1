import DeviceEvents.Ingest.Lifecycle
import DeviceEvents.Registry
import DeviceEvents.Runner
import DeviceEvents.Service.Settings
import DeviceEvents.Service.Uri
import DeviceEvents.Store.ClickHouse
/-
  DeviceEvents.Service.Launch — how the service comes up.

  The settings are read, and then telemetry, the event store, the assignments and the
  deduplicator set up, and the connection to NATS made, in this order. The first of them that
  fails ends the launch. At least one receiver has to be enabled. At last the pipeline is
  started as a process of a runner; if it does not start, the runner ends at once.

  What goes wrong before there is telemetry is written to the standard error, everything later
  to the log.
-/

namespace DeviceEvents

inductive LogLevel where
  | warn
  | error
  deriving DecidableEq, Repr

def LogLevel.name : LogLevel → String
  | .warn => "WARN"
  | .error => "ERROR"

structure LogRecord where
  level : LogLevel
  message : String
  fields : List (String × String)
  deriving DecidableEq, Repr

/-- What came of the first contact with each server. -/
structure Servers where
  clickHouse : Except Failure Unit
  nats : Except Failure Unit
  natsConsumer : Except Failure Unit

namespace Servers

/-- None of them can be reached. -/
def unreachable : Servers where
  clickHouse := .error (.of ClickHouse.Call.ping.failureText)
  nats := .error (.of "failed to connect to NATS")
  natsConsumer := .error (.of "failed to connect to NATS")

end Servers

structure Launch where
  stderr : List String
  log : List LogRecord
  /-- The settings of a service that is up, or the exit code. -/
  result : Except Nat Settings

namespace Launch

/-- A part of a launch, with the log so far. -/
abbrev Launching := ExceptT Nat (StateM (List LogRecord))

def write (level : LogLevel) (message : String) (fields : List (String × String)) : Launching Unit :=
  modify fun records => records ++ [⟨level, message, fields⟩]

/-- Ends the launch unless a part of it has come up. -/
def require {α : Type} (message : String) : Except Failure α → Launching α
  | .ok a => return a
  | .error f => do
    write .error message [("error", f.chain)]
    throw 1

def openStore (s : Settings) (servers : Servers) : Launching Unit := do
  match ← require "failed to initialize event store" s.backend with
  | .memory => write .warn "using in-memory event storage; events are lost on restart" []
  | .clickHouse => require "failed to initialize event store" servers.clickHouse

def loadAssignments (s : Settings) (file : String → Option ByteArray) : Launching Registry := do
  match s.assignmentsFile with
  | none =>
    write .warn "no assignments file configured; every device token will be rejected" []
    return .empty
  | some path =>
    require "failed to load device assignments"
      ((Registry.ofFile path (file path)).mapError fun f => .of f.message)

/-! ## The pipeline -/

def processName : String := "ingest_worker_0"

/-- The receivers that are enabled, with what comes of starting them. -/
def receivers (s : Settings) (servers : Servers) : List (Receiver Id) :=
  let nats : Receiver Id :=
    { source := s.nats.stream
      workers := s.nats.workers
      start := pure ((NatsReceiver.mk s.nats false).started servers.natsConsumer).1
      beginWorker := fun _ _ => pure ()
      stop := pure (.ok ()) }
  let mqtt : Receiver Id :=
    { source := s.mqtt.source
      workers := s.mqtt.workerCount
      start := pure s.mqtt.start
      beginWorker := fun _ _ => pure ()
      stop := pure (.ok ()) }
  (if s.natsEnabled then [nats] else []) ++ (if s.mqttEnabled then [mqtt] else [])

/-- The pipeline as far as its start goes: nothing has arrived yet. -/
def pipeline (receivers : List (Receiver Id)) : Pipeline Id where
  receivers
  decode := some fun x => Envelope.decode x.payload x.hints
  deduplicator := none
  handler := ⟨fun _ _ _ => pure (.ok ()), fun _ _ _ => pure ()⟩
  counters := pure {}
  setCounters := fun _ => pure ()
  endWorkers := pure ()

/-- What the start of the pipeline writes to the log. -/
def startRecord : LifecycleFault → List LogRecord
  | .receiver source .start f =>
    [⟨.error, "receiver failed to start", [("error", f.top), ("source_id", source)]⟩]
  | .deduplicator .start r => [⟨.error, "deduplicator failed to start", [("error", r.message)]⟩]
  | _ => []

/-- A runner with a single process, which has failed. -/
def outcomeOf (f : Failure) : RunOutcome :=
  let r := Run.start [processName] 1 Run.closerTime false
  (((r.finish? 0 (.failed f)).bind (·.join? 0)).getD r).outcome

def startPipeline (s : Settings) (servers : Servers) : Launching Unit := do
  let p := pipeline (receivers s servers)
  let started : Except LifecycleFault (Lifecycle Id) := do
    let prepared ← p.prepare .fresh
    Id.run (p.start prepared)
  match started with
  | .ok _ => return ()
  | .error e =>
    let fields := [("error", e.toFailure.chain), ("process", processName)]
    modify (· ++ startRecord e)
    write .error "process failed" fields
    write .error "exiting with error" fields
    throw (outcomeOf e.toFailure).exitCode

/-! ## The whole launch -/

def bringUp (s : Settings) (file : String → Option ByteArray) (servers : Servers) :
    Launching Settings := do
  openStore s servers
  discard (loadAssignments s file)
  discard (require "invalid deduplicator configuration" s.deduplicator)
  if s.natsEnabled then require "failed to initialize NATS" servers.nats
  if !s.natsEnabled && !s.mqttEnabled then
    write .error "no receivers enabled; set TELEMETRY_NATS_ENABLED or TELEMETRY_MQTT_ENABLED" []
    throw 1
  startPipeline s servers
  return s

/-- A launch that ends before there is telemetry. -/
def refused (line : String) : Launch := ⟨[line], [], .error 1⟩

def launch (env : List (String × String)) (file : String → Option ByteArray) (servers : Servers) :
    Launch :=
  match Settings.ofEnvironment env with
  | .error f => refused ("failed to load configuration: " ++ f.message)
  | .ok s =>
    if s.otelEnabled && !isUri s.otelEndpoint then refused "failed to initialize telemetry"
    else
      let (result, log) := Id.run ((bringUp s file servers).run.run [])
      ⟨[], log, result⟩

end Launch
end DeviceEvents
