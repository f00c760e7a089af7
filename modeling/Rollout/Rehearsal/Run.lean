import Rollout.Rehearsal.Clock
import Rollout.Run

/-! A run on a clock.

Everything that can happen at one instant happens before the clock goes on: steps of workers
first, then those of the watcher, and deadlines last. Each change of the run is one of its
steps. -/

set_option autoImplicit false

namespace Rollout

structure RunRehearsal where
  run : Run
  clock : Clock := {}
  /-- The deadlines of the phase under way. -/
  cancelAt : Nat := 0
  quitAt : Nat := 0
  /-- The instant at which the run returned. -/
  returnedAt : Option Nat := none

namespace RunRehearsal

def perform (rehearsal : RunRehearsal) (label : Run.Label) : RunRehearsal :=
  { rehearsal with run := (rehearsal.run.step label).getD rehearsal.run }

def labelOf : Deed → Run.Label
  | .step pool label => .work pool label
  | .edit change => .edit change

def performDeeds (rehearsal : RunRehearsal) (deeds : List Deed) (clock : Clock) :
    RunRehearsal :=
  let rehearsal := deeds.foldl (fun rehearsal deed => rehearsal.perform (labelOf deed)) rehearsal
  { rehearsal with clock := clock.counting rehearsal.run.site }

/-- A phase begins. What is left of the time for the run is all that it has. -/
def beginPhase (rehearsal : RunRehearsal) : RunRehearsal :=
  let settings := rehearsal.run.plan.settings
  let now := rehearsal.clock.now
  { rehearsal.perform .begin with
    cancelAt := now + (settings.cancelTimeout.nanos - now)
    quitAt := now + (settings.quitTimeout.nanos - now) }

/-- The watcher's turn: statuses, the end of the channel, deadlines that have passed, and else
the instant at which something happens next. -/
def watch (rehearsal : RunRehearsal) (pool : Pool) (timedOut : Bool) : RunRehearsal :=
  let now := rehearsal.clock.now
  if !pool.channel.isEmpty then rehearsal.perform .receive
  else if pool.closed then rehearsal.perform .seeEnd
  else if !timedOut && rehearsal.cancelAt ≤ now then
    (rehearsal.perform .pass).perform .cancelDeadline
  else if rehearsal.quitAt ≤ now then (rehearsal.perform .pass).perform .quitDeadline
  else
    let deadline := if timedOut then rehearsal.quitAt else min rehearsal.cancelAt rehearsal.quitAt
    let instant := match rehearsal.clock.nextInstant? with
      | some instant => min instant deadline
      | none => deadline
    { rehearsal with clock := rehearsal.clock.advance instant }

def forward? (rehearsal : RunRehearsal) : Option RunRehearsal :=
  [Delivery.Label.call, .returned, .seeEnd, .drain].findSome? fun label =>
    (rehearsal.run.step (.deliver label)).map fun run => { rehearsal with run := run }

/-- The next thing that happens. After the run has returned, calls that hang are let go and
the workers come to their end. -/
def step (rehearsal : RunRehearsal) (script : Script) : Option RunRehearsal :=
  match rehearsal.clock.next script rehearsal.run.site with
  | some (deeds, clock) => some (rehearsal.performDeeds deeds clock)
  | none =>
    match rehearsal.run.stage with
    | .ready _ _ => some rehearsal.beginPhase
    | .watching watch _ _ =>
      match rehearsal.run.site.pools[rehearsal.run.current]? with
      | some pool => some (rehearsal.watch pool watch.timedOut)
      | none => none
    | .closing _ =>
      match rehearsal.forward? with
      | some next => some next
      | none =>
        some { rehearsal.perform .conclude with returnedAt := some rehearsal.clock.now }
    | .over _ =>
      if !rehearsal.clock.released then
        some { rehearsal with clock := { rehearsal.clock with released := true } }
      else match rehearsal.clock.nextInstant? with
        | some instant => some { rehearsal with clock := rehearsal.clock.advance instant }
        | none => none

def play (script : Script) : Nat → RunRehearsal → RunRehearsal
  | 0, rehearsal => rehearsal
  | fuel + 1, rehearsal =>
    match rehearsal.step script with
    | some next => play script fuel next
    | none => rehearsal

def stepBound (plan : Plan) : Nat :=
  20 * (plan.list.entries.length + plan.workers .installComponents) + 60

def ofPlan (script : Script) (plan : Plan) (source : OverridesSource) (directory : Directory)
    (observed : Bool) : RunRehearsal :=
  play script (stepBound plan) { run := Run.start plan source directory observed }

def result? (rehearsal : RunRehearsal) : Option (Except RunError Unit) :=
  match rehearsal.run.stage with
  | .over result => some result
  | _ => none

end RunRehearsal

end Rollout
