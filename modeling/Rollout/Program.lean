import Rollout.CommandLine
import Rollout.Helm.Client
import Rollout.Rehearsal.Run
import Rollout.Settings.File

/-! What the program does for a command: it puts the settings together, finds the components
and helm, and makes its run.

A run is rehearsed here: helm answers as planned, and all waiting is done on a clock. -/

set_option autoImplicit false

namespace Rollout

inductive ProgramError where
  | settings (error : SettingsError)
  | components (error : ComponentListError)
  | helm (error : HelmError)
  | run (error : RunError)
  deriving DecidableEq, Repr

def ProgramError.message : ProgramError → String
  | .settings error => error.message
  | .components error => error.message
  | .helm error => error.message
  | .run error => error.message

structure Failure where
  context : Option String
  error : ProgramError
  deriving DecidableEq, Repr

def Failure.message (failure : Failure) : String :=
  failure.context.getD failure.error.message

namespace Command

/-- The settings of a command: flags on top of the file, and the file on top of the defaults.
The file has to be valid by itself. -/
def settings (command : Command) (directory : Directory) : Except Failure Settings := do
  let base ← match command.config with
    | none => pure {}
    | some path =>
      match Settings.load directory path with
      | .ok settings => pure settings
      | .error error => .error ⟨some ("unable to load config from " ++ path), .settings error⟩
  let settings := base.overlay command.layer
  match settings.validate with
  | .ok () => return settings
  | .error error => .error ⟨none, .settings error⟩

def componentList (command : Command) (directory : Directory) : Except Failure ComponentList :=
  match ComponentList.load directory command.components with
  | .ok list => .ok list
  | .error error =>
    .error ⟨some ("unable to load components from " ++ command.components), .components error⟩

/-- The overrides of a command come from its file alone. -/
def source (command : Command) : OverridesSource :=
  .fresh {} command.overrides

end Command

def Settings.helm (settings : Settings) : HelmSettings where
  timeout := .ofSeconds settings.helmTimeoutSeconds
  backoffInitial := .ofSeconds settings.backoffInitialSeconds
  backoffMaxElapsed := .ofSeconds settings.backoffMaxElapsedSeconds
  kubeconfig := settings.kubeconfig

namespace Program

def operation (helm : Helm.Executable) (settings : HelmSettings) (action : Action)
    (component : Component) (values : Overrides) : Helm.Operation :=
  match action with
  | .install =>
    Helm.install helm settings component.chart component.releaseNamespace component.name values
  | .uninstall => Helm.uninstall helm settings component.releaseNamespace component.name

def script (helm : Helm.Executable) (settings : HelmSettings) (action : Action)
    (source : OverridesSource) (directory : Directory) : Script where
  behaviour _ job :=
    let source := (source.read directory).toOption.getD source
    let operation := operation helm settings action job.component
      (source.resolve job.component.name)
    { succeeds := operation.result.toOption.isSome, delay := operation.elapsed }

structure Report where
  result : Except Failure Unit
  /-- The lines that were shown. -/
  lines : List String := []
  invocations : List Helm.Invocation := []

def plan (command : Command) (directory : Directory) (helm : Helm.Executable) :
    Except Failure (Plan × HelmSettings) := do
  let settings ← command.settings directory
  let list ← command.componentList directory
  match Helm.check helm settings.helm with
  | .error error => .error ⟨none, .helm error⟩
  | .ok () =>
    match Plan.make command.action settings list with
    | .error error => .error ⟨none, .settings error⟩
    | .ok plan => return (plan, settings.helm)

def run (command : Command) (directory : Directory) (helm : Helm.Executable) (color : Bool) :
    Report :=
  match plan command directory helm with
  | .error failure => { result := .error failure }
  | .ok (plan, settings) =>
    let source := command.source
    let script := script helm settings command.action source directory
    let rehearsal := RunRehearsal.ofPlan script plan source directory true
    {
      result := match rehearsal.result? with
        | some (.error error) => .error ⟨none, .run error⟩
        | _ => .ok ()
      lines := rehearsal.run.delivery.delivered.map (·.line color)
      invocations := rehearsal.run.site.calls.flatMap fun call =>
        (operation helm settings command.action call.job.component
          (call.values.getD ∅)).invocations }

end Program

end Rollout
