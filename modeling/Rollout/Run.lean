import Rollout.Delivery
import Rollout.Settings
import Rollout.Site
import Rollout.Watch

/-! A run: two phases, one for each group of components, with common deadlines.

Prerequisites are installed first and removed last, one at a time; a phase begins only if the
one before it ended well. `step` says what the run, its workers, its observer and the files
around it can do next, in any order; when deadlines pass is left open here. -/

set_option autoImplicit false

namespace Rollout

structure Plan where
  action : Action
  settings : Settings
  list : ComponentList
  deriving Repr

namespace Plan

def make (action : Action) (settings : Settings) (list : ComponentList) :
    Except SettingsError Plan := do
  settings.validate
  return { action := action, settings := settings, list := list }

def firstPhase (plan : Plan) : Phase :=
  match plan.action with
  | .install => .installPrerequisites
  | .uninstall => .uninstallComponents

def secondPhase (plan : Plan) : Phase :=
  match plan.action with
  | .install => .installComponents
  | .uninstall => .uninstallPrerequisites

/-- Prerequisites may need each other, so they have one worker. -/
def workers (plan : Plan) (phase : Phase) : Nat :=
  match phase.group with
  | .prerequisites => 1
  | .components => plan.settings.workers.toNat

def components (plan : Plan) (phase : Phase) : List Component :=
  ComponentList.charted plan.settings.resourcePath (plan.list.resolve phase.group)
    (phase.action = .uninstall)

end Plan

instance decidableEqResult {ε α : Type} [DecidableEq ε] [DecidableEq α] :
    DecidableEq (Except ε α)
  | .ok first, .ok second => decidable_of_iff (first = second) (by simp)
  | .error first, .error second => decidable_of_iff (first = second) (by simp)
  | .ok _, .error _ => isFalse nofun
  | .error _, .ok _ => isFalse nofun

inductive Stage where
  /-- A phase is about to begin; `last` tells whether it is the second one. -/
  | ready (phase : Phase) (last : Bool)
  /-- A phase is under way. The watcher is `idle` while it has found nothing in the channel
  and looks at its deadlines. -/
  | watching (watch : Watch) (idle last : Bool)
  /-- The phases are over; the observer may still have to be told. -/
  | closing (result : Except RunError Unit)
  | over (result : Except RunError Unit)
  deriving DecidableEq

structure Run where
  plan : Plan
  site : Site
  stage : Stage
  delivery : Delivery

namespace Run

def start (plan : Plan) (source : OverridesSource) (directory : Directory) (observed : Bool) :
    Run where
  plan := plan
  site := { source := source, directory := directory }
  stage := .ready plan.firstPhase false
  delivery := Delivery.start observed

inductive Label where
  /-- The next phase begins. -/
  | begin
  /-- A worker takes a step, or the channel of a pool is closed. -/
  | work (pool : Nat) (label : Pool.Label)
  /-- The watcher receives a status. -/
  | receive
  /-- The watcher finds the channel closed and empty. -/
  | seeEnd
  /-- The watcher finds the channel empty. -/
  | pass
  /-- The watcher looks at the channel again. -/
  | wake
  | cancelDeadline
  | quitDeadline
  /-- The forwarding of updates takes a step. -/
  | deliver (label : Delivery.Label)
  /-- The files change. -/
  | edit (change : Directory → Directory)
  /-- The run returns. -/
  | conclude

/-- The labels of a pool that are steps of its workers, or close its channel. -/
def isWork : Pool.Label → Bool
  | .check _ | .take _ | .finish _ _ | .send _ | .close => true
  | .receive | .cancel | .drop => false

/-- The pool of the phase under way is the latest one. -/
def current (run : Run) : Nat :=
  run.site.pools.length - 1

def tell (run : Run) (updates : List Update) : Run :=
  { run with delivery := run.delivery.sendAll updates }

/-- Ends the run with a result; what was sent still has to reach the observer. -/
def close (run : Run) (result : Except RunError Unit) : Run :=
  { run with stage := .closing result, delivery := run.delivery.close }

def afterPhase (run : Run) (phase : Phase) (last : Bool) : Watch.Outcome → Run
  | some failure => run.close (.error ⟨phase, failure⟩)
  | none =>
    if last then run.close (.ok ())
    else { run with stage := .ready run.plan.secondPhase true }

def react (run : Run) (watch : Watch) (last : Bool) (event : Watch.Event) : Run :=
  match watch.react event with
  | (.inl watch, updates) =>
    { run.tell updates with stage := .watching watch false last }
  | (.inr outcome, updates) => (run.tell updates).afterPhase watch.phase last outcome

def beginPhase (run : Run) (phase : Phase) (last : Bool) : Run :=
  let run := run.tell [{ phase := phase, event := .start }]
  match run.site.openPool phase.action (run.plan.workers phase)
      (.ok (run.plan.components phase)) with
  | .ok site => { run with site := site, stage := .watching { phase := phase } false last }
  | .error error =>
    let error : RunError := ⟨phase, .notStarted error⟩
    (run.tell [Update.failed error]).close (.error error)

def poolStep (run : Run) (label : Pool.Label) : Option Run := do
  return { run with site := ← run.site.step run.current label }

def step (run : Run) : Label → Option Run
  | .begin =>
    match run.stage with
    | .ready phase last => some (run.beginPhase phase last)
    | _ => none
  | .work index label =>
    if isWork label then do return { run with site := ← run.site.step index label } else none
  | .receive =>
    match run.stage, run.site.pools[run.current]? with
    | .watching watch false last, some pool =>
      match pool.channel with
      | [] => none
      | job :: _ => do
        return (← run.poolStep .receive).react watch last (.status job.component)
    | _, _ => none
  | .seeEnd =>
    match run.stage, run.site.pools[run.current]? with
    | .watching watch false last, some pool =>
      if pool.channel.isEmpty && pool.closed then some (run.react watch last .ended) else none
    | _, _ => none
  | .pass =>
    match run.stage, run.site.pools[run.current]? with
    | .watching watch false last, some pool =>
      if pool.channel.isEmpty && !pool.closed then
        some { run with stage := .watching watch true last }
      else none
    | _, _ => none
  | .wake =>
    match run.stage with
    | .watching watch true last => some { run with stage := .watching watch false last }
    | _ => none
  | .cancelDeadline =>
    match run.stage with
    | .watching watch true last =>
      if watch.timedOut then none
      else do return (← run.poolStep .cancel).react watch last .cancelDeadline
    | _ => none
  | .quitDeadline =>
    match run.stage with
    | .watching watch true last => do
      return (← (← run.poolStep .cancel).poolStep .drop).react watch last .quitDeadline
    | _ => none
  | .deliver label => do return { run with delivery := ← run.delivery.step label }
  | .edit change => some { run with site := run.site.edit change }
  | .conclude =>
    match run.stage with
    | .closing result =>
      if run.delivery.isDone then some { run with stage := .over result } else none
    | _ => none

end Run

end Rollout
