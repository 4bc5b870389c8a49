import ConsensusLedger.Config.Environment
import ConsensusLedger.Node

/-!
The command line. Consensus events are read as lines of JSON from standard input and handed to the
node that the environment configures; record files are written when the input has ended.
-/

namespace ConsensusLedger.Program

def variableNames : List String :=
  [NodeConfig.documentVariable, "KUBERNETES_SERVICE_HOST", "DOCKER_CONTAINER", "LC_SERVICE_NAME",
    "LC_LOG_LEVEL", "RUST_LOG", "LC_JSON_LOGS", "LC_LOG_SOURCE", "LC_RECORD_STREAM_ENABLED",
    "LC_RECORD_LOG_DIR", "LC_SCHEDULE_EXPIRY_SECS"]

def environment : IO Environment := do
  let values ← variableNames.mapM fun name => return (name, ← IO.getEnv name)
  return fun name => (values.lookup name).join

/-- The document that the environment names, under any path. -/
def document (env : Environment) : IO (String → Option String) := do
  match env NodeConfig.documentVariable with
  | none => return fun _ => none
  | some path =>
    let text ← try some <$> IO.FS.readFile path catch _ => pure none
    return fun _ => text

/-- Appends the lines of record files to the files of their directory. -/
def writeFiles (f : RecordFiles) : IO Unit := do
  IO.FS.createDirAll f.directory
  for (name, lines) in f.files do
    let file ← IO.FS.Handle.mk (f.directory ++ "/" ++ name) .append
    for line in lines do
      file.putStrLn line

def run (node : Node) : IO Unit := do
  let input ← (← IO.getStdin).readToEnd
  let feed := Feed.read true input
  let (tally, node) := node.run .zero feed.deliveries
  if 0 < feed.skipped then
    IO.eprintln s!"Skipped undecodable events: {feed.skipped}"
  if let .emitter e := node.processor.records then
    if let some files := e.files? then
      writeFiles files
  let head := Text.hex node.processor.records.head.val
  IO.println (s!"Shutdown complete: delivered {tally.delivered}, dropped {tally.dropped}, " ++
    s!"records {tally.records}, running hash {head}")

end ConsensusLedger.Program

open ConsensusLedger in
def main : IO UInt32 := do
  let env ← Program.environment
  match NodeConfig.load env (← Program.document env) with
  | .error e =>
    IO.eprintln s!"Failed to load configuration: {e.message}"
    return 1
  | .ok config =>
    match Node.start config with
    | .error e =>
      IO.eprintln s!"Failed to build node: {e.message}"
      return 1
    | .ok node =>
      Program.run node
      return 0
