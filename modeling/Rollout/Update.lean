import Rollout.Phase

/-! What an observer of a run is told, and how it is shown. -/

set_option autoImplicit false

namespace Rollout

inductive UpdateEvent where
  | start
  | running
  | finished
  | executionFailure
  | timeoutFailure
  | forceQuitFailure
  deriving DecidableEq, Repr

def UpdateEvent.isTerminal : UpdateEvent → Bool
  | .start | .running => false
  | _ => true

def UpdateEvent.name : UpdateEvent → String
  | .start => "ProcessStart"
  | .running => "ProcessRunning"
  | .finished => "ProcessFinished"
  | .executionFailure => "ProcessExecutionFailure"
  | .timeoutFailure => "ProcessTimeoutFailure"
  | .forceQuitFailure => "ProcessForceQuitFailure"

structure ComponentInfo where
  name : String
  releaseNamespace : String
  status : Status
  deriving DecidableEq, Repr

def Component.info (component : Component) : ComponentInfo :=
  ⟨component.name, component.releaseNamespace, component.status⟩

structure Update where
  phase : Phase
  event : UpdateEvent
  component : Option ComponentInfo := none
  error : Option String := none
  deriving DecidableEq, Repr

namespace Update

def processed (phase : Phase) (component : Component) : Update :=
  { phase := phase, event := .running, component := some component.info }

def eventOf : PhaseFailure → UpdateEvent
  | .execution _ | .notStarted _ => .executionFailure
  | .timeout => .timeoutFailure
  | .forceQuit => .forceQuitFailure

def failed (error : RunError) : Update :=
  { phase := error.phase, event := eventOf error.failure, error := some error.message }

inductive Style where
  | bold
  | boldGreen
  | boldRed
  | normal
  deriving DecidableEq, Repr

def Style.code : Style → String
  | .bold => "\x1b[1m"
  | .boldGreen => "\x1b[1;32m"
  | .boldRed => "\x1b[1;31m"
  | .normal => ""

def styled (color : Bool) (style : Style) (text : String) : String :=
  if color && style != .normal then style.code ++ text ++ "\x1b[0m" else text

def statusMark : Status → Style × String
  | .installed | .uninstalled => (.boldGreen, "✅")
  | .error => (.boldRed, "❌")
  | .notStarted => (.normal, "⏳")

def line (color : Bool) (update : Update) : String :=
  match update.event with
  | .start => "🚀 " ++ styled color .bold "Starting" ++ " " ++ update.phase.name
  | .running =>
    match update.component with
    | some component =>
      let (style, mark) := statusMark component.status
      styled color style ("     " ++ mark) ++ " " ++ component.name ++ " (" ++
        component.releaseNamespace ++ ") " ++ component.status.name
    | none => "     ⏳ " ++ update.phase.name
  | .finished =>
    "🎯 " ++ update.phase.name ++ " " ++ styled color .boldGreen "finished"
  | _ =>
    "💥 " ++ styled color .boldRed update.phase.name ++ " " ++ update.error.getD "failed"

end Update

end Rollout
