import Rollout.Overrides.Source

/-! Dealings with a source of overrides: its file changes, the source is read, and values are
asked for through getters that stand for one component each. -/

set_option autoImplicit false

namespace Rollout

structure OverridesSession where
  source : OverridesSource
  directory : Directory
  /-- The components that getters stand for, in the order in which they were made. -/
  getters : List String := []

namespace OverridesSession

inductive Step where
  | write (path : String) (content : Text.Bytes)
  | delete (path : String)
  | read
  | getter (component : String)
  | get (index : Nat)

inductive Answer where
  | done
  | refused (error : OverridesError)
  | getter (index : Nat)
  | values (tree : Overrides)
  /-- There is no such getter. -/
  | unknown

def step (session : OverridesSession) : Step → OverridesSession × Answer
  | .write path content =>
    ({ session with directory := session.directory.put path content }, .done)
  | .delete path => ({ session with directory := session.directory.remove path }, .done)
  | .read =>
    match session.source.read session.directory with
    | .ok source => ({ session with source := source }, .done)
    | .error error => (session, .refused error)
  | .getter component =>
    ({ session with getters := session.getters ++ [component] }, .getter session.getters.length)
  | .get index =>
    match session.getters[index]? with
    | some component => (session, .values (session.source.resolve component))
    | none => (session, .unknown)

def run (session : OverridesSession) : List Step → OverridesSession × List Answer
  | [] => (session, [])
  | s :: rest =>
    let (session, answer) := session.step s
    let (session, answers) := run session rest
    (session, answer :: answers)

end OverridesSession

end Rollout
