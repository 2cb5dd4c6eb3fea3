import ChannelGuide.CommandLine.Outcome

/-!
The program: reads the arguments, the environment and the files, and prints what the command says.
-/
open ChannelGuide ChannelGuide.CommandLine

/-- What the system has against a path, from its error. -/
def systemFault : IO.Error → SystemFault
  | .noFileOrDirectory _ code text => .ofCode code.toNat text
  | .noSuchThing _ code text => .ofCode code.toNat text
  | .permissionDenied _ code text => .ofCode code.toNat text
  | .alreadyExists _ code text => .ofCode code.toNat text
  | .inappropriateType _ code text => .ofCode code.toNat text
  | .invalidArgument _ code text => .ofCode code.toNat text
  | .resourceExhausted _ code text => .ofCode code.toNat text
  | .resourceBusy code text => .ofCode code.toNat text
  | .unsupportedOperation code text => .ofCode code.toNat text
  | .otherError code text => .ofCode code.toNat text
  | _ => .notText

def attempt (action : IO α) : IO (Except SystemFault α) := do
  match ← action.toBaseIO with
  | .ok a => return .ok a
  | .error fault => return .error (systemFault fault)

def prepareLog (dir : String) : IO Unit := do
  IO.FS.createDirAll dir
  IO.FS.writeFile (runLogPath dir) ""

def main (args : List String) : IO UInt32 := do
  match Invocation.ofArguments args with
  | .error .helpRequested =>
    IO.println "Channel schedule resolution and override merging"
    return 0
  | .error fault =>
    IO.eprintln s!"error: {fault.name}"
    return 2
  | .ok invocation =>
    let log ← attempt (prepareLog invocation.logsPath)
    let content ← attempt (IO.FS.readFile invocation.command.fixturePath)
    let values ← Settings.variableNames.mapM fun name => do return (name, ← IO.getEnv name)
    let lookup := fun name => (values.lookup name).join
    match invocation.output log lookup content with
    | .ok text =>
      IO.print text
      return 0
    | .error fault =>
      IO.eprintln fault.report
      return 1
