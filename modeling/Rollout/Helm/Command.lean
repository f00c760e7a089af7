import Rollout.Duration
import Rollout.Text.Blank
import Rollout.Text.Quoted
import Rollout.Text.Utf8

/-! Helm's command line: what is asked of it, and what it can answer. -/

set_option autoImplicit false

namespace Rollout

open Text

structure HelmSettings where
  /-- The name of the executable. -/
  command : String := "helm"
  /-- How long helm itself waits for an operation. -/
  timeout : Duration := .ofSeconds 360
  backoffInitial : Duration := .ofSeconds 3
  backoffMaxElapsed : Duration := .ofSeconds 300
  kubeconfig : Option String := none
  deriving DecidableEq, Repr

namespace Helm

def baseArguments (settings : HelmSettings) : List String :=
  match settings.kubeconfig with
  | some path => ["--kubeconfig", path]
  | none => []

def timeoutArgument (settings : HelmSettings) : String :=
  toString settings.timeout.seconds ++ "s"

def installArguments (settings : HelmSettings) (chart ns name valuesPath : String) :
    List String :=
  baseArguments settings ++
    ["upgrade", "--install", name, chart, "--namespace", ns, "--create-namespace",
      "--values", valuesPath, "--wait", "--timeout", timeoutArgument settings]

def uninstallArguments (settings : HelmSettings) (ns name : String) : List String :=
  baseArguments settings ++
    ["uninstall", name, "--namespace", ns, "--timeout", timeoutArgument settings]

inductive Exit where
  | code (n : Int)
  /-- Killed by a signal. -/
  | killed
  deriving DecidableEq, Repr

structure Reply where
  exit : Exit := .code 0
  out : Bytes := []
  err : Bytes := []
  deriving DecidableEq, Repr

inductive CommandFailure where
  | notStarted
  | killed
  | exited (code : Int) (out err : Bytes)
  deriving DecidableEq, Repr

def CommandFailure.message : CommandFailure → String
  | .notStarted => "An error occurred while invoking child process"
  | .killed => "Child process was terminated and has no exit code"
  | .exited code out err =>
    "Child process completed with non-zero exit code " ++ toString code ++ "\n  stdout: " ++
      decodeLossy out ++ "\n  stderr: " ++ decodeLossy err

def Reply.failure? (reply : Reply) : Option CommandFailure :=
  match reply.exit with
  | .killed => some .killed
  | .code 0 => none
  | .code n => some (.exited n reply.out reply.err)

def isPassable (argument : String) : Bool :=
  !argument.toList.contains '\x00'

/-- A command line as messages show it, without quotes. -/
def commandText (program : String) (arguments : List String) : String :=
  let shown := (program :: arguments).map fun argument =>
    quotedArgument (if isPassable argument then argument else "<string-with-nul>")
  String.ofList ((" ".intercalate shown).toList.filter (· != '"'))

/-- Whether a failure says that there is no such release. Other things that are not found
are failures like any other. -/
def saysReleaseNotFound : CommandFailure → Bool
  | .exited _ _ err =>
    occursIn "release: not found".toList ((decodeLossy err).toList.map Char.toLower)
  | _ => false

end Helm

end Rollout
