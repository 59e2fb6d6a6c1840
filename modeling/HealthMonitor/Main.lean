import HealthMonitor.CommandLine.Run
import HealthMonitor.Monitor.Live

/-!
# The program

Reads the command line, the environment and the configuration file, and prints what the command
comes to. A service runs its checks on the clock and prints its log until it is interrupted.
-/

namespace HealthMonitor

/-- Why a file could not be read. -/
def FileFault.ofError : IO.Error → FileFault
  | .noFileOrDirectory .. => .notFound
  | .inappropriateType _ code _ => if code = 21 then .isDirectory else .notDirectory
  | .invalidArgument .. => .nameTooLong
  | e => .other (toString e)

/-- The bytes of a file. -/
def readContent (path : String) : IO Command.Content := do
  try
    let bytes ← IO.FS.readBinFile path
    return .ok bytes.toList
  catch e => return .error (FileFault.ofError e)

/-- A variable of the environment and its value. -/
def variableOf? (bytes : List UInt8) : Option (String × String) := do
  let cs ← Utf8.decode? bytes
  let (name, value) ← Text.cut '=' cs
  some (String.ofList name, String.ofList value)

/-- Where the environment of the program itself is found. -/
def environmentPath : String := "/proc/self/environ"

/-- The environment of the program. -/
def readEnvironment : IO Environment := do
  match ← readContent environmentPath with
  | .ok bytes => return ⟨(bytes.splitOn 0).filterMap variableOf?⟩
  | .error _ => return Environment.empty

/-- A line of the log in the form of a service. -/
def Service.lineText (s : Service) (l : LogLine) : String :=
  match s.logFormat with
  | .text => l.text
  | .json => l.toJson.compact

/-- The longest pause of a service, in milliseconds. -/
def longestPause : Nat := 1000

/-- The pause of a service until something is due. -/
def Service.pause (s : Service) : UInt32 :=
  match s.monitor.nextDue? with
  | some due => UInt32.ofNat (min longestPause ((due - s.monitor.scheduler.now) / 1000000 + 1))
  | none => UInt32.ofNat longestPause

/-- Runs the checks of a service without end. -/
partial def Service.serve (start : Nat) (told : Nat) (s : Service) : IO Unit := do
  let now ← IO.monoNanosNow
  let m := s.monitor.settle Network.isolated (now - start)
  let out ← IO.getStdout
  for line in m.linesSince told do
    out.putStrLn (s.lineText line)
  out.flush
  let next := { s with monitor := m }
  IO.sleep next.pause
  Service.serve start m.scheduler.journal.length next

/-- Carries out an action; the exit code. -/
def Action.carryOut : Action → IO UInt8
  | .ends output => do
    (← IO.getStdout).putStr output.out
    (← IO.getStderr).putStr output.err
    return output.code
  | .serves s => do
    s.serve (← IO.monoNanosNow) 0
    return 0

/-- What the words of a command line come to. -/
def actionOf (words : List String) : IO Action := do
  match Command.ofWords words with
  | .error e => return Command.refuses e
  | .ok command =>
    let content ← match command.configPath? with
      | some path => readContent path
      | none => pure (.ok [])
    return command.act (← readEnvironment) content

end HealthMonitor

def main (words : List String) : IO UInt32 := do
  let action ← HealthMonitor.actionOf words
  return (← action.carryOut).toUInt32
