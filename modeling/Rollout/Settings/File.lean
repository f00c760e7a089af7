import Rollout.Duration.Units
import Rollout.Settings
import Rollout.Toml.Table

/-! Settings as a file holds them. -/

set_option autoImplicit false

namespace Rollout.Settings

open Toml

def wordOf? : Value → Option UInt64
  | .integer n => if 0 ≤ n then some (UInt64.ofNat n.toNat) else none
  | _ => none

def durationOf? : Value → Option Duration
  | .text s => Duration.ofText? s
  | _ => none

def textOf? : Value → Option String
  | .text s => some s
  | _ => none

/-- A field that may be missing, but that has to be of its kind if it is there. -/
def field? {α : Type} (entries : List (String × Value)) (name : String)
    (ofValue? : Value → Option α) : Option (Option α) :=
  match entries.lookup name with
  | none => some none
  | some value => (ofValue? value).map some

/-- The layer that a document holds; what it does not know of is left alone. -/
def layerOf? (entries : List (String × Value)) : Option SettingsLayer := do
  return {
    workers := ← field? entries "workers_count" wordOf?
    cancelTimeout := ← field? entries "cancel_timeout" durationOf?
    quitTimeout := ← field? entries "quit_timeout" durationOf?
    helmTimeoutSeconds := ← field? entries "helm_timeout_seconds" wordOf?
    backoffInitialSeconds := ← field? entries "backoff_initial_interval_seconds" wordOf?
    backoffMaxElapsedSeconds := ← field? entries "backoff_max_elapsed_time_seconds" wordOf?
    resourcePath := ← field? entries "resource_path" textOf?
    kubeconfig := ← field? entries "kubeconfig" textOf? }

def parseLayer? (text : String) : Option SettingsLayer := do
  layerOf? (← parse? text)

def loadLayer (directory : Directory) (path : String) : Except SettingsError SettingsLayer :=
  match directory.readText path with
  | .error fault => .error (.unreadable path fault)
  | .ok text =>
    match parseLayer? text with
    | some layer => .ok layer
    | none => .error .malformed

def load (directory : Directory) (path : String) : Except SettingsError Settings := do
  build (← loadLayer directory path)

def fieldLine (name : String) (value : List Char) : List Char :=
  name.toList ++ [' ', '=', ' '] ++ value ++ ['\n']

/-- A word as written, if a signed word could hold it. -/
def wordText? (n : UInt64) : Option (List Char) :=
  if n.toNat < 1 <<< 63 then some (toString n.toNat).toList else none

def render? (settings : Settings) : Option String := do
  let workers ← wordText? settings.workers
  let helmTimeout ← wordText? settings.helmTimeoutSeconds
  let initial ← wordText? settings.backoffInitialSeconds
  let elapsed ← wordText? settings.backoffMaxElapsedSeconds
  return String.ofList <|
    fieldLine "workers_count" workers ++
    fieldLine "cancel_timeout" (quoted settings.cancelTimeout.unitText.toList) ++
    fieldLine "quit_timeout" (quoted settings.quitTimeout.unitText.toList) ++
    fieldLine "helm_timeout_seconds" helmTimeout ++
    fieldLine "backoff_initial_interval_seconds" initial ++
    fieldLine "backoff_max_elapsed_time_seconds" elapsed ++
    fieldLine "resource_path" (quoted settings.resourcePath.toList) ++
    match settings.kubeconfig with
    | some path => fieldLine "kubeconfig" (quoted path.toList)
    | none => []

inductive SaveError where
  | unwritable (fault : Directory.Fault)
  /-- A number that the format cannot hold. -/
  | unrepresentable
  deriving DecidableEq, Repr

def SaveError.message : SaveError → String
  | .unwritable fault => fault.message
  | .unrepresentable => "unable to render TOML config:"

/-- Writes the settings to a file; nothing is touched if they have no text. -/
def save (settings : Settings) (directory : Directory) (path : String) :
    Except SaveError Directory :=
  match settings.render? with
  | none => .error .unrepresentable
  | some text =>
    match directory.write path (Text.encode text) with
    | .ok directory => .ok directory
    | .error fault => .error (.unwritable fault)

end Rollout.Settings
