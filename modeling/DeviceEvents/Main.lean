import DeviceEvents.Service.Launch
/-
  DeviceEvents.Main — the service as a program.

  Its settings come from the environment, under names in capital letters. The log goes to the
  standard output, one JSON object a line. The program has no connections of its own: no
  server can be reached, and the worker of an MQTT receiver finds its broker gone at every
  attempt. A service that is up ends with its standard input.
-/

namespace DeviceEvents.Program

open Json

/-- The variables that are set, of those that count. -/
def environment : IO (List (String × String)) :=
  (({} : Settings).fields.map (·.1)).filterMapM fun key => do
    let name := (Settings.variablePrefix ++ key).toUpper
    return (← IO.getEnv name).map fun value => (name, value)

def readFile? (path : String) : IO (Option ByteArray) := do
  try return some (← IO.FS.readBinFile path)
  catch _ => return none

/-- The assignments file of an environment, if it names one that can be read. -/
def assignments (env : List (String × String)) : IO (Option ByteArray) :=
  match Settings.ofEnvironment env with
  | .ok { assignmentsFile := some path, .. } => readFile? path
  | _ => return none

def printRecord (r : LogRecord) : IO Unit :=
  IO.println (Value.obj [("level", .str r.level.name),
    ("fields", .obj (("message", .str r.message) :: r.fields.map fun (k, v) => (k, .str v)))]).render

def noTransport : Failure := .of "MQTT event loop error: no transport"

def mqttServices (s : MqttSettings) : MqttWorker.Services IO where
  connection := return .lost noTransport
  rest := do
    IO.sleep (UInt32.ofNat (min s.retryDelay (0x100000000 - 1)))
    return .rested

/-- The worker of the MQTT receiver, up to its end. -/
def runMqtt (s : MqttSettings) : IO Unit := do
  match ← MqttWorker.run (mqttServices s) (2 * s.maxAttempts + 3) (.start s) with
  | .ended (.error f) =>
    printRecord ⟨.error, "receiver worker failed",
      [("source_id", s.source), ("worker", "0"), ("error", f.top)]⟩
  | _ => return ()

/-- Runs what is up, and waits for the end of the input. -/
def serve (s : Settings) : IO Unit := do
  if s.mqttEnabled then runMqtt s.mqtt
  discard (← IO.getStdin).readToEnd

end DeviceEvents.Program

open DeviceEvents Program in
def main : IO UInt32 := do
  let env ← environment
  let file ← assignments env
  let l := Launch.launch env (fun _ => file) .unreachable
  for line in l.stderr do IO.eprintln line
  for r in l.log do printRecord r
  match l.result with
  | .error code => return UInt32.ofNat code
  | .ok s => do
    serve s
    return 0
