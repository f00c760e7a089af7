import Rollout.Helm.Retry
import Rollout.Overrides.Tree

/-! Releases installed and removed by means of helm's command line. -/

set_option autoImplicit false

namespace Rollout

open Text

inductive HelmError where
  | notInstalled
  | versionUnknown (output : String)
  | command (text : String) (failure : Helm.CommandFailure)
  /-- There is no place for a file with the values. -/
  | valuesFile
  /-- The values have no text. -/
  | values
  | backoff (reason : String)
  /-- A client without a command line gave this reason. -/
  | release (name reason : String)
  deriving DecidableEq, Repr

def HelmError.message : HelmError → String
  | .notInstalled =>
    "Unable to find 'helm' executable\n" ++
    "  Please make sure helm is installed and in your PATH.\n" ++
    "  See https://helm.sh/docs/intro/install/ for more help"
  | .versionUnknown output => "failed to read helm client version: " ++ output
  | .command text _ => "Failed to run \"" ++ text ++ "\""
  | .valuesFile => "failed to write helm values file"
  | .values => "failed to render overrides as YAML"
  | .backoff reason => "invalid backoff settings: " ++ reason
  | .release name reason => "release " ++ name ++ " failed: " ++ reason

namespace Helm

structure Executable where
  /-- Whether it can be found under the name `helm`; other names lead nowhere. -/
  installed : Bool := true
  /-- What it says when asked for its version. -/
  version : Reply := { out := encode "version.BuildInfo\x7b\x7d\n" }
  /-- What it answers to the attempts for a release, one by one. The last answer stands for
  all that follow. -/
  plan : List (String × List Reply) := []
  /-- How many attempts there have been for each release. -/
  attempts : Dictionary Nat := ∅
  /-- Whether files can be created for values. -/
  hasRoom : Bool := true

namespace Executable

def isFound (helm : Executable) (settings : HelmSettings) : Bool :=
  helm.installed && settings.command == "helm"

def isPlannable (release : String) : Bool :=
  !release.isEmpty && !release.startsWith "." &&
    release.toList.all fun c => c.isAlphanum || c == '.' || c == '_' || c == '-'

def reply (helm : Executable) (release : String) (number : Nat) : Reply :=
  if isPlannable release then
    match helm.plan.lookup release with
    | some replies => (replies[number]?.or replies.getLast?).getD {}
    | none => {}
  else {}

def attemptsFor (helm : Executable) (release : String) : Nat :=
  (helm.attempts.get? release).getD 0

end Executable

def check (helm : Executable) (settings : HelmSettings) : Except HelmError Unit :=
  if !helm.isFound settings then .error .notInstalled
  else
    let output := decodeLossy helm.version.out
    if occursIn "version".toList output.toList then .ok ()
    else .error (.versionUnknown output)

structure Invocation where
  arguments : List String
  values : Option String
  deriving DecidableEq, Repr

structure Operation where
  result : Except HelmError Unit
  invocations : List Invocation := []
  /-- How long it took. -/
  elapsed : Nat := 0
  helm : Executable

/-- Runs a command for a release until it succeeds or time is up. A command itself takes a
moment. -/
def operate (helm : Executable) (settings : HelmSettings) (release : String)
    (arguments : List String) (values : Option String) (tolerates : CommandFailure → Bool) :
    Operation :=
  let starts := helm.isFound settings && arguments.all isPassable
  let made := helm.attemptsFor release
  let trial := retry settings tolerates fun number => {
    duration := 1
    failure :=
      if starts then (helm.reply release (made + number - 1)).failure? else some .notStarted }
  let helm :=
    if starts then { helm with attempts := helm.attempts.insert release (made + trial.attempts) }
    else helm
  {
    result := match trial.failure with
      | none => .ok ()
      | some failure => .error (.command (commandText settings.command arguments) failure)
    invocations := if starts then List.replicate trial.attempts ⟨arguments, values⟩ else []
    elapsed := trial.elapsed
    helm := helm }

/-- What stands for the path of the file of values in arguments and messages. -/
def valuesPath : String := "<values>"

def install (helm : Executable) (settings : HelmSettings) (chart ns name : String)
    (values : Overrides) : Operation :=
  if !helm.hasRoom then { result := .error .valuesFile, helm := helm }
  else match (Overrides.toValue values).render? with
    | none => { result := .error .values, helm := helm }
    | some text =>
      operate helm settings name (installArguments settings chart ns name valuesPath)
        (some text) fun _ => false

def uninstall (helm : Executable) (settings : HelmSettings) (ns name : String) : Operation :=
  operate helm settings name (uninstallArguments settings ns name) none saysReleaseNotFound

end Helm

end Rollout
