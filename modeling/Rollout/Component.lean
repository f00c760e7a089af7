import Rollout.Text.Quoted

/-! Components: releases of charts, and what became of them. -/

set_option autoImplicit false

namespace Rollout

inductive Status where
  | notStarted
  | installed
  | uninstalled
  | error
  deriving DecidableEq, Repr

def Status.name : Status → String
  | .notStarted => "NotStarted"
  | .installed => "Installed"
  | .uninstalled => "Uninstalled"
  | .error => "Error"

structure Component where
  name : String
  releaseNamespace : String
  /-- The directory of its chart. -/
  chart : String
  status : Status := .notStarted
  deriving DecidableEq, Repr

inductive Action where
  | install
  | uninstall
  deriving DecidableEq, Repr

def Action.outcome : Action → (succeeded : Bool) → Status
  | _, false => .error
  | .install, true => .installed
  | .uninstall, true => .uninstalled

/-- A path followed from a directory: an absolute one leads away from it. -/
def joinPath (directory path : String) : String :=
  match path.toList with
  | '/' :: _ => path
  | _ =>
    match directory.toList.getLast? with
    | none => path
    | some c => if c = '/' then directory ++ path else directory ++ "/" ++ path

end Rollout
