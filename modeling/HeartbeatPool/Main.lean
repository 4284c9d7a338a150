import HeartbeatPool.Demo.Client

/-!
# The demonstration programs

There are two, and both take their settings from environment variables.

* `greeter` announces itself as a server would, and then answers one call for each line of its
  input, which is the name of the caller.
* `client` reads a configuration and lets its workers send their requests.  The greeters that it
  calls live inside the program, one for each address of the configuration.
-/

namespace HeartbeatPool.Demo

/-- The variables that the programs look at. -/
def variableNames : List String :=
  ["GRPC_PORT", "SERVER_NAME", "FAIL_EVERY", "CLIENT_CONFIG", "CONNECTIONS_PER_ENDPOINT", "WORKERS",
    "REQUEST_COUNT"]

/-- The environment of the program. -/
def readEnvironment : IO Environment := do
  let pairs ← variableNames.filterMapM fun name => do
    return (← IO.getEnv name).map fun value => (name, value)
  return Table.ofList pairs

/-- The text of the file at a path. -/
def readFileText (path : String) : IO (Except ReadFault String) := do
  match ← (IO.FS.readBinFile path).toBaseIO with
  | .ok bytes => return decodeText bytes
  | .error (.noFileOrDirectory ..) => return .error .notFound
  | .error fault => return .error (.refused (toString fault))

/-- Prints lines of a log, without the details. -/
def printLines (lines : List Line) : IO Unit :=
  (lines.filter isShown).forM fun line => IO.println line.text

/-- Answers calls until the input ends. -/
partial def answerCalls (input : IO.FS.Stream) (greeter : Greeter) : IO Unit := do
  let line ← input.getLine
  if line.isEmpty then return
  let (greeter, lines, result) := greeter.greet (line.dropEndWhile (· == '\n')).toString
  printLines lines
  match result with
  | .ok greeting => IO.println (greeting.message ++ " (served by: " ++ greeting.servedBy ++ ")")
  | .error status => IO.println status.describe
  answerCalls input greeter

/-- The program `greeter`. -/
def greeterProgram : IO UInt32 := do
  let environment ← readEnvironment
  printLines (serverLines environment)
  answerCalls (← IO.getStdin) (serverOf environment).2
  return 0

/-- The program `client`. -/
def clientProgram : IO UInt32 := do
  let environment ← readEnvironment
  let path := (ClientSettings.ofEnvironment environment).path
  let content ← readFileText path
  let peers := (ClientConfig.ofFile path content).2.toOption.elim [] Peer.forEach
  let (lines, error) := runClient .ofFile environment (fun _ => content) peers
  printLines lines
  match error with
  | none => return 0
  | some error =>
      IO.eprintln ("Error: " ++ error.message)
      return 1

end HeartbeatPool.Demo

/-- Runs the program that is named first. -/
def main (arguments : List String) : IO UInt32 := do
  match arguments with
  | "greeter" :: _ => HeartbeatPool.Demo.greeterProgram
  | "client" :: _ => HeartbeatPool.Demo.clientProgram
  | _ =>
      IO.eprintln "usage: heartbeat-pool (greeter | client)"
      return 2
