import Rollout.Directory
import Rollout.Duration
import Rollout.Text.Quoted

/-! The settings of a run, and the layers that they are put together from. -/

set_option autoImplicit false

namespace Rollout

open Text

structure Settings where
  /-- How many components are handled at one time. -/
  workers : UInt64 := 4
  /-- When no new component is started any more. -/
  cancelTimeout : Duration := .ofSeconds 1200
  /-- When the run ends without waiting for what is under way. -/
  quitTimeout : Duration := .ofSeconds 1500
  helmTimeoutSeconds : UInt64 := 360
  backoffInitialSeconds : UInt64 := 3
  backoffMaxElapsedSeconds : UInt64 := 300
  /-- Where there is a directory with the chart of each component. -/
  resourcePath : String := "resources"
  kubeconfig : Option String := none
  deriving DecidableEq, Repr

inductive SettingsError where
  | noWorkers
  | timeoutOrder (cancel quit : Duration)
  | unreadable (path : String) (fault : Directory.Fault)
  | malformed
  deriving DecidableEq, Repr

def SettingsError.message : SettingsError → String
  | .noWorkers => "workers count must be at least 1"
  | .timeoutOrder cancel quit =>
    "cancel timeout (" ++ cancel.text ++ ") must be shorter than quit timeout (" ++
      quit.text ++ ")"
  | .unreadable path fault =>
    "unable to read config file " ++ quotedPath path ++ ": " ++ fault.message
  | .malformed => "invalid TOML config:"

structure SettingsLayer where
  workers : Option UInt64 := none
  cancelTimeout : Option Duration := none
  quitTimeout : Option Duration := none
  helmTimeoutSeconds : Option UInt64 := none
  backoffInitialSeconds : Option UInt64 := none
  backoffMaxElapsedSeconds : Option UInt64 := none
  resourcePath : Option String := none
  kubeconfig : Option String := none
  deriving DecidableEq, Repr

namespace Settings

instance : Inhabited Settings := ⟨{}⟩

/-- The settings with a layer on top: what the layer leaves open stays. -/
def overlay (settings : Settings) (layer : SettingsLayer) : Settings where
  workers := layer.workers.getD settings.workers
  cancelTimeout := layer.cancelTimeout.getD settings.cancelTimeout
  quitTimeout := layer.quitTimeout.getD settings.quitTimeout
  helmTimeoutSeconds := layer.helmTimeoutSeconds.getD settings.helmTimeoutSeconds
  backoffInitialSeconds := layer.backoffInitialSeconds.getD settings.backoffInitialSeconds
  backoffMaxElapsedSeconds := layer.backoffMaxElapsedSeconds.getD settings.backoffMaxElapsedSeconds
  resourcePath := layer.resourcePath.getD settings.resourcePath
  kubeconfig := layer.kubeconfig.or settings.kubeconfig

/-- There has to be a worker, and starting components has to stop before waiting for them
does. -/
def validate (settings : Settings) : Except SettingsError Unit :=
  if settings.workers = 0 then .error .noWorkers
  else if settings.quitTimeout ≤ settings.cancelTimeout then
    .error (.timeoutOrder settings.cancelTimeout settings.quitTimeout)
  else .ok ()

def build (layer : SettingsLayer) : Except SettingsError Settings := do
  let settings := Settings.overlay {} layer
  settings.validate
  return settings

end Settings

end Rollout
