import Rollout.Overrides.Source
import Rollout.Phase
import Rollout.Pool

/-! Where helm calls are made: pools of workers, and the overrides that they hand to helm. -/

set_option autoImplicit false

namespace Rollout

structure Call where
  /-- The pool whose worker made the call. -/
  pool : Nat
  job : Job
  /-- The values handed over, if a release is installed. -/
  values : Option Overrides
  deriving Repr

structure Site where
  source : OverridesSource
  directory : Directory
  /-- The pools, in the order in which they were opened. -/
  pools : List Pool := []
  /-- The calls, in the order in which they were started. -/
  calls : List Call := []

namespace Site

/-- Opens a pool for some components. To install them the overrides are read first; if that
fails, or if the components are not known, there is no pool. -/
def openPool (site : Site) (action : Action) (workers : Nat)
    (components : Except ComponentListError (List Component)) : Except StartError Site :=
  match components with
  | .error error => .error (.components error)
  | .ok components =>
    let pool := Pool.start action workers components
    match action with
    | .uninstall => .ok { site with pools := site.pools ++ [pool] }
    | .install =>
      match site.source.read site.directory with
      | .error error => .error (.overrides error)
      | .ok source => .ok { site with source := source, pools := site.pools ++ [pool] }

def callFor (site : Site) (index : Nat) (pool : Pool) (job : Job) : Call where
  pool := index
  job := job
  values := match pool.action with
    | .install => some (site.source.resolve job.component.name)
    | .uninstall => none

def newCall? (site : Site) (index : Nat) (pool : Pool) : Pool.Label → Option Call
  | .take i =>
    match pool.workers[i]?, pool.queue with
    | some .taking, job :: _ => some (site.callFor index pool job)
    | _, _ => none
  | _ => none

def step (site : Site) (index : Nat) (label : Pool.Label) : Option Site := do
  let pool ← site.pools[index]?
  let next ← pool.step label
  return { site with
    pools := site.pools.set index next
    calls := site.calls ++ (site.newCall? index pool label).toList }

def edit (site : Site) (change : Directory → Directory) : Site :=
  { site with directory := change site.directory }

def underWay (site : Site) : Nat :=
  site.pools.foldr (fun pool calls => pool.underWay + calls) 0

end Site

end Rollout
