import Rollout.Components.List
import Rollout.Overrides.File

/-! The phases of a run, and how they fail. -/

set_option autoImplicit false

namespace Rollout

inductive Phase where
  | installPrerequisites
  | installComponents
  | uninstallComponents
  | uninstallPrerequisites
  deriving DecidableEq, Repr

namespace Phase

def name : Phase → String
  | .installPrerequisites => "InstallPreRequisites"
  | .installComponents => "InstallComponents"
  | .uninstallComponents => "UninstallComponents"
  | .uninstallPrerequisites => "UninstallPreRequisites"

def action : Phase → Action
  | .installPrerequisites | .installComponents => .install
  | .uninstallComponents | .uninstallPrerequisites => .uninstall

def group : Phase → Group
  | .installPrerequisites | .uninstallPrerequisites => .prerequisites
  | .installComponents | .uninstallComponents => .components

def operation (phase : Phase) : String :=
  match phase.action with
  | .install => "deployment"
  | .uninstall => "removal"

end Phase

inductive StartError where
  | components (error : ComponentListError)
  | overrides (error : OverridesError)
  deriving DecidableEq, Repr

def StartError.message : StartError → String
  | .components _ => "unable to get list of components"
  | .overrides _ => "unable to read overrides"

inductive PhaseFailure where
  /-- Operations on so many components failed. -/
  | execution (failed : Nat)
  /-- Time ran out before all components were started. -/
  | timeout
  /-- Time ran out while components were under way. -/
  | forceQuit
  | notStarted (error : StartError)
  deriving DecidableEq, Repr

/-- The failure of a run is that of its last phase. -/
structure RunError where
  phase : Phase
  failure : PhaseFailure
  deriving DecidableEq, Repr

namespace RunError

def message (error : RunError) : String :=
  let operation := error.phase.operation
  match error.failure with
  | .execution failed =>
    "Kyma " ++ operation ++ " failed due to errors in " ++ toString failed ++ " component(s)"
  | .timeout => "Kyma " ++ operation ++ " failed due to the timeout"
  | .forceQuit => "Force quit: Kyma " ++ operation ++ " failed due to the timeout"
  | .notStarted _ => "Kyma " ++ operation ++ " could not be started"

def isTimeout (error : RunError) : Bool :=
  match error.failure with
  | .timeout | .forceQuit => true
  | _ => false

end RunError

end Rollout
