import ConsensusLedger.Config.Document

/-!
Settings from the environment. They come before those of the document.
-/

namespace ConsensusLedger

abbrev Environment := String → Option String

/-- A flag is raised by "true" in any case, and by "1". -/
def isFlagRaised (value : String) : Bool :=
  value = "1" || value.toList.map Char.toLower = "true".toList

namespace TelemetryConfig

/-- The settings with those of the environment. Inside a container, logs are JSON unless a variable
says otherwise. -/
def withEnvironment (c : TelemetryConfig) (env : Environment) : TelemetryConfig :=
  let contained := (env "KUBERNETES_SERVICE_HOST").isSome || (env "DOCKER_CONTAINER").isSome
  { serviceName := (env "LC_SERVICE_NAME").getD c.serviceName
    logLevel := ((env "LC_LOG_LEVEL").or (env "RUST_LOG")).getD c.logLevel
    jsonLogs := ((env "LC_JSON_LOGS").map isFlagRaised).getD (c.jsonLogs || contained)
    sourceLocation := ((env "LC_LOG_SOURCE").map isFlagRaised).getD c.sourceLocation }

end TelemetryConfig

namespace NodeConfig

def lifetimeOf (value : String) : Except ConfigError Int64 :=
  match (Text.integer? value.toList).bind amountOf? with
  | some n => .ok n
  | none => .error (.invalidEnv "LC_SCHEDULE_EXPIRY_SECS" value)

def withEnvironment (c : NodeConfig) (env : Environment) : Except ConfigError NodeConfig :=
  let c :=
    { c with
      telemetry := c.telemetry.withEnvironment env
      records := { c.records with
        enabled := ((env "LC_RECORD_STREAM_ENABLED").map isFlagRaised).getD c.records.enabled
        directory := (env "LC_RECORD_LOG_DIR").getD c.records.directory } }
  match env "LC_SCHEDULE_EXPIRY_SECS" with
  | none => .ok c
  | some value => (lifetimeOf value).map fun n => { c with scheduleLifetime := n }

def documentVariable : String := "LC_CONFIG"

/-- The configuration of a node: the document that the environment names, if it names one, then the
other settings of the environment. `contents` is the text of a readable file. -/
def load (env : Environment) (contents : String → Option String) :
    Except ConfigError NodeConfig := do
  let base ←
    match env documentVariable with
    | none => pure {}
    | some path =>
      match contents path with
      | none => throw (.unreadable path)
      | some text => ofToml text
  let c ← base.withEnvironment env
  c.validate
  return c

end NodeConfig

end ConsensusLedger
