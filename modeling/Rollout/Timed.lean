import Rollout.Rehearsal.Schedule
import Rollout.Run

/-! Runs with a clock.

Helm calls take as long as their tasks do, and nothing else takes time. What happens at one
instant happens in any order, and the clock goes on when nothing is left to happen. -/

set_option autoImplicit false

namespace Rollout

/-- What helm calls are to their workers, by the pool and the place in its list. -/
abbrev Timing := Nat → Nat → Schedule.Task

structure Timed where
  run : Run
  now : Nat := 0
  /-- The deadlines of the phase under way. -/
  cancelAt : Nat := 0
  quitAt : Nat := 0
  /-- The instants at which phases began, in order. -/
  begun : List Nat := []
  /-- The instants at which calls were started, by the pool and the place in its list. -/
  since : Nat → Nat → Nat := fun _ _ => 0
  returnedAt : Option Nat := none

namespace Timed

inductive Label where
  | act (label : Run.Label)
  /-- The clock goes on. -/
  | tick

def start (plan : Plan) (source : OverridesSource) (directory : Directory) (observed : Bool) :
    Timed where
  run := Run.start plan source directory observed

def isOver (timing : Timing) (timed : Timed) (pool : Nat) (job : Job) : Bool :=
  (timing pool job.position).duration.any fun duration =>
    timed.since pool job.position + duration ≤ timed.now

def hasNews (timed : Timed) : Bool :=
  timed.run.site.pools[timed.run.current]?.any fun pool =>
    !pool.channel.isEmpty || pool.closed

def timedOut (timed : Timed) : Bool :=
  match timed.run.stage with
  | .watching watch _ _ => watch.timedOut
  | _ => false

/-- Whether the clock is right for a step. Of two deadlines that have passed the first one is
looked at first. -/
def allows (timing : Timing) (timed : Timed) : Run.Label → Bool
  | .work index (.finish i succeeded) =>
    match timed.run.site.pools[index]?.bind (·.workers[i]?) with
    | some (.calling job) =>
      timed.isOver timing index job && succeeded == !(timing index job.position).fails
    | _ => false
  | .wake => timed.hasNews
  | .cancelDeadline => timed.cancelAt ≤ timed.now
  | .quitDeadline =>
    timed.quitAt ≤ timed.now && (timed.timedOut || timed.now < timed.cancelAt)
  | _ => true

def hasBegun (run next : Run) (pool position : Nat) : Bool :=
  (next.site.calls.drop run.site.calls.length).any fun call =>
    call.pool == pool && call.job.position == position

/-- The clock after a step. What is left of the time for the run is all that a phase has. -/
def after (timed : Timed) (label : Run.Label) (next : Run) : Timed :=
  let settings := timed.run.plan.settings
  let later := { timed with
    run := next
    since := fun pool position =>
      if hasBegun timed.run next pool position then timed.now else timed.since pool position }
  match label with
  | .begin => { later with
      cancelAt := timed.now + (settings.cancelTimeout.nanos - timed.now)
      quitAt := timed.now + (settings.quitTimeout.nanos - timed.now)
      begun := timed.begun ++ [timed.now] }
  | .conclude => { later with returnedAt := some timed.now }
  | _ => later

def attempts (index : Nat) (pool : Pool) : List Run.Label :=
  .work index .close :: (List.range pool.workers.length).flatMap fun i =>
    [.check i, .take i, .finish i true, .finish i false, .send i].map (.work index)

def candidates (run : Run) : List Run.Label :=
  [.begin, .receive, .seeEnd, .pass, .wake, .cancelDeadline, .quitDeadline, .conclude] ++
    [.call, .returned, .seeEnd, .drain].map .deliver ++
    run.site.pools.zipIdx.flatMap fun (pool, index) => attempts index pool

def isQuiet (timing : Timing) (timed : Timed) : Bool :=
  (candidates timed.run).all fun label =>
    !(timed.allows timing label && (timed.run.step label).isSome)

def step (timing : Timing) (timed : Timed) : Label → Option Timed
  | .act label =>
    if timed.allows timing label then (timed.run.step label).map (timed.after label) else none
  | .tick => if timed.isQuiet timing then some { timed with now := timed.now + 1 } else none

end Timed

end Rollout
