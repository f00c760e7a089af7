import Rollout.Phase
import Rollout.Rehearsal.Clock

/-! Greedy list schedules: tasks in a row, each for the worker that becomes free first.

A schedule follows from the durations of the tasks alone, and so does the end of a phase that
keeps to it. Of instants that may never come, `none` is the one that does not. -/

set_option autoImplicit false

namespace Rollout

namespace Schedule

structure Task where
  /-- How long the task takes, if it ever ends. -/
  duration : Option Nat
  fails : Bool
  deriving DecidableEq, Repr

/-- Workers that are free from the given instants on, when the first one that is free at
`instant` has got something to do until another. -/
def occupy (instant : Nat) (until? : Option Nat) : List (Option Nat) → List (Option Nat)
  | [] => []
  | free :: rest =>
    if free = some instant then until? :: rest else free :: occupy instant until? rest

/-- The starts of tasks, in order, for workers that are free from the given instants on. -/
def starts (free : List (Option Nat)) : List Task → List (Option Nat)
  | [] => []
  | task :: rest =>
    match (free.filterMap id).min? with
    | none => none :: starts free rest
    | some instant =>
      some instant :: starts (occupy instant (task.duration.map (instant + ·)) free) rest

def startedBefore (deadline : Nat) (free : List (Option Nat)) (tasks : List Task) :
    List (Task × Nat) :=
  (tasks.zip (starts free tasks)).filterMap fun (task, start) =>
    match start with
    | some instant => if instant < deadline then some (task, instant) else none
    | none => none

/-- The latest end of tasks with their starts, and no end before `instant`. -/
def lastEnd (instant : Nat) : List (Task × Nat) → Option Nat
  | [] => some instant
  | (task, start) :: rest => do
    return max (start + (← task.duration)) (← lastEnd instant rest)

/-- How a phase ends that begins at `start` and keeps to the schedule, and when. After the
first deadline no task is started, and after the second none is waited for. -/
def phaseEnd (workers start cancelDeadline quitDeadline : Nat) (tasks : List Task) :
    Option PhaseFailure × Nat :=
  let started := startedBefore cancelDeadline (List.replicate workers (some start)) tasks
  let failed := started.countP (·.1.fails)
  match lastEnd start started with
  | none => (some .forceQuit, quitDeadline)
  | some instant =>
    if quitDeadline < instant then (some .forceQuit, quitDeadline)
    else if 0 < failed then (some (.execution failed), instant)
    else if cancelDeadline < instant then (some .timeout, instant)
    else (none, instant)

end Schedule

def Behaviour.task (behaviour : Behaviour) : Schedule.Task where
  duration := if behaviour.hangs then none else some behaviour.delay
  fails := !behaviour.succeeds

end Rollout
