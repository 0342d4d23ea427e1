/-
  DeviceEvents.Service.Telemetry — where the service sends its logs and traces.
-/

namespace DeviceEvents

structure Telemetry where
  serviceName : String := "telemetry-ingest"
  endpoint : String := "http://localhost:4317"
  exportsTraces : Bool := false
  logLevel : String := "info"
  deriving DecidableEq, Repr

end DeviceEvents
