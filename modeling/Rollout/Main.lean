import Rollout.Program

/-! The command line program. It shows what a run would come to: the lines that tell of its
progress, and behind them the commands that helm would get, if all of them succeeded at once.
Files are looked for below the working directory. -/

set_option autoImplicit false

namespace Rollout

def Command.paths (command : Command) : List String :=
  command.config.toList ++ [command.components] ++ command.overrides.toList

namespace Program

def failureCode : UInt32 := 1

def usageCode : UInt32 := 2

def usageText : UsageError → String
  | .version => versionText
  | .help | .helpForNothing =>
    "usage: kyma-deploy (deploy | uninstall) --components FILE [OPTION VALUE]...\n" ++
      String.join (Flag.all.map fun flag => "  --" ++ flag.name ++ "\n")
  | .unknownArgument => "error: unexpected argument\n"
  | .unknownCommand => "error: unrecognized subcommand\n"
  | .missingArgument => "error: a required argument was not provided\n"
  | .missingValue => "error: a value is required\n"
  | .badValue => "error: invalid value\n"
  | .repeated => "error: an argument was used more than once\n"
  | .needlessValue => "error: unexpected value\n"

def addFile (directory : Directory) (path : String) : IO Directory := do
  try
    return directory.put path (← IO.FS.readBinFile path).toList
  catch _ => return directory

def showReport (report : Report) : IO UInt32 := do
  for line in report.lines do
    IO.println line
  for invocation in report.invocations do
    IO.println (Helm.commandText "helm" invocation.arguments)
  match report.result with
  | .ok () => return 0
  | .error failure =>
    IO.eprintln ("Error: " ++ failure.message)
    return failureCode

end Program

end Rollout

def main (arguments : List String) : IO UInt32 := do
  match Rollout.Command.parse arguments (← IO.getEnv "KUBECONFIG") with
  | .error error =>
    let text := Rollout.Program.usageText error
    if error = .help || error = .version then
      IO.print text
      return 0
    else
      IO.eprint text
      return Rollout.Program.usageCode
  | .ok command =>
    let directory ← command.paths.foldlM Rollout.Program.addFile {}
    let color ← (← IO.getStdout).isTty
    Rollout.Program.showReport (Rollout.Program.run command directory {} color)
