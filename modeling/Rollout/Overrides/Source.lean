import Rollout.Overrides.File

/-! Where the overrides of a run come from. -/

set_option autoImplicit false

namespace Rollout

/-- A source of overrides. A layered one keeps the values that it had from the last reading;
before the first they are those given with it. -/
inductive OverridesSource where
  | layered (inline : OverridesFile) (path : Option String) (current : OverridesFile)
  /-- A source that cannot be read at all. -/
  | broken (reason : String)

namespace OverridesSource

def fresh (inline : OverridesFile) (path : Option String) : OverridesSource :=
  .layered inline path inline

/-- Reads the source: what its file holds is laid over the values given with it. -/
def read (source : OverridesSource) (directory : Directory) :
    Except OverridesError OverridesSource :=
  match source with
  | .layered inline none _ => .ok (.layered inline none inline)
  | .layered inline (some path) _ => do
    let file ← OverridesFile.load directory path
    return .layered inline (some path) (inline.mergedWith file)
  | .broken reason => .error (.refused reason)

def resolve (source : OverridesSource) (component : String) : Overrides :=
  match source with
  | .layered _ _ current => current.resolve component
  | .broken _ => ∅

end OverridesSource

end Rollout
