import Rollout.Site

/-! Helm calls on a clock.

A script says what every call comes to: how long it takes, whether it succeeds and what else
happens meanwhile. Apart from the calls nothing takes time. `Clock.next` picks the next step
of the workers at the present instant, the first pool and the first worker before others. -/

set_option autoImplicit false

namespace Rollout

inductive Incident where
  /-- The cancel signal of the pool is set. -/
  | cancel
  /-- The receiver of the statuses goes away. -/
  | drop
  | edit (change : Directory → Directory)

structure Behaviour where
  succeeds : Bool := true
  incident : Option Incident := none
  delay : Nat := 0
  /-- The call does not return before it is let go. -/
  hangs : Bool := false

structure Script where
  /-- How many calls have to be started before any goes on. -/
  barrier : Nat := 0
  behaviour : (pool : Nat) → Job → Behaviour

inductive CallStage where
  | gathering
  /-- The call is over at this instant, unless it hangs. -/
  | underWay (ends : Nat)
  deriving DecidableEq, Repr

structure Clock where
  now : Nat := 0
  /-- The instants at which calls were started, in order. -/
  starts : List Nat := []
  /-- The calls that workers make, by pool and worker. -/
  stages : List ((Nat × Nat) × CallStage) := []
  /-- Whether calls that hang have been let go. -/
  released : Bool := false
  /-- The most calls that were under way at one time. -/
  peak : Nat := 0
  deriving Repr

inductive Deed where
  | step (pool : Nat) (label : Pool.Label)
  | edit (change : Directory → Directory)

def Site.perform (site : Site) : Deed → Option Site
  | .step pool label => site.step pool label
  | .edit change => some (site.edit change)

namespace Clock

def stage? (clock : Clock) (pool worker : Nat) : Option CallStage :=
  clock.stages.lookup (pool, worker)

def withStage (clock : Clock) (pool worker : Nat) (stage : CallStage) : Clock :=
  { clock with
    stages := ((pool, worker), stage) :: clock.stages.filter (·.1 != (pool, worker)) }

def withoutStage (clock : Clock) (pool worker : Nat) : Clock :=
  { clock with stages := clock.stages.filter (·.1 != (pool, worker)) }

def incidentDeeds (pool : Nat) : Option Incident → List Deed
  | none => []
  | some .cancel => [.step pool .cancel]
  | some .drop => [.step pool .drop]
  | some (.edit change) => [.edit change]

def workerDeeds (clock : Clock) (script : Script) (site : Site) (index : Nat) (pool : Pool)
    (i : Nat) : Worker → Option (List Deed × Clock)
  | .checking => some ([.step index (.check i)], clock)
  | .taking =>
    if pool.queue.isEmpty then some ([.step index (.take i)], clock)
    else some ([.step index (.take i)],
      { clock.withStage index i .gathering with starts := clock.starts ++ [clock.now] })
  | .calling job =>
    let behaviour := script.behaviour index job
    match clock.stage? index i with
    | some .gathering =>
      if script.barrier ≤ site.calls.length then
        some (incidentDeeds index behaviour.incident,
          clock.withStage index i (.underWay (clock.now + behaviour.delay)))
      else none
    | some (.underWay ends) =>
      if ends ≤ clock.now && (!behaviour.hangs || clock.released) then
        some ([.step index (.finish i behaviour.succeeds)], clock.withoutStage index i)
      else none
    | none => none
  | .sending _ =>
    if !pool.closed && pool.capacity ≤ pool.channel.length then none
    else some ([.step index (.send i)], clock)
  | .gone => none

def closing (clock : Clock) (index : Nat) (pool : Pool) : Option (List Deed × Clock) :=
  if !pool.closed && pool.workers.all (· == .gone) then some ([.step index .close], clock)
  else none

def poolDeeds (clock : Clock) (script : Script) (site : Site) (index : Nat) (pool : Pool) :
    Option (List Deed × Clock) :=
  (pool.workers.zipIdx.findSome? fun (worker, i) =>
    clock.workerDeeds script site index pool i worker).or (clock.closing index pool)

def next (clock : Clock) (script : Script) (site : Site) : Option (List Deed × Clock) :=
  site.pools.zipIdx.findSome? fun (pool, index) => clock.poolDeeds script site index pool

def nextInstant? (clock : Clock) : Option Nat :=
  (clock.stages.filterMap fun entry => match entry.2 with
    | .underWay ends => if clock.now < ends then some ends else none
    | .gathering => none).min?

def counting (clock : Clock) (site : Site) : Clock :=
  { clock with peak := max clock.peak site.underWay }

def advance (clock : Clock) (instant : Nat) : Clock :=
  { clock with now := max clock.now instant }

end Clock

end Rollout
