import Rollout.Component

/-! A pool of workers that handles the components of one phase.

The components wait in a queue. Each worker looks at the cancel signal, takes the next
component, calls helm for it and sends the component on with its final status, over and over
until it sees the signal, finds the queue empty, or finds nobody to send to. When all workers
are gone the channel of the statuses is closed. A helm call under way is never interrupted.

Workers, the receiver and whoever cancels take their steps in any order; `step` says which
steps are possible. -/

set_option autoImplicit false

namespace Rollout

structure Job where
  position : Nat
  component : Component
  deriving DecidableEq, Repr

inductive Worker where
  /-- About to look at the cancel signal. -/
  | checking
  /-- The signal was not set; about to take a job. -/
  | taking
  /-- A helm call is under way. -/
  | calling (job : Job)
  /-- The call has ended; about to send the component with its status. -/
  | sending (job : Job)
  | gone
  deriving DecidableEq, Repr

structure Pool where
  action : Action
  /-- How many jobs the queue can hold, and how many statuses the channel. -/
  capacity : Nat
  queue : List Job
  /-- Jobs for which the queue had no room. -/
  dismissed : List Job
  workers : List Worker
  /-- Statuses sent and not received. -/
  channel : List Job := []
  received : List Job := []
  /-- Statuses that nobody will receive. -/
  lost : List Job := []
  cancelled : Bool := false
  receiverGone : Bool := false
  closed : Bool := false
  /-- The jobs taken, in order. Each was the start of a helm call. -/
  taken : List Job := []
  /-- The jobs whose calls have ended, in order, with their final statuses. -/
  ended : List Job := []
  deriving DecidableEq, Repr

namespace Pool

def enqueue (pool : Pool) : List Job → Pool
  | [] => pool
  | job :: rest =>
    if pool.queue.length < pool.capacity then
      enqueue { pool with queue := pool.queue ++ [job] } rest
    else enqueue { pool with dismissed := pool.dismissed ++ [job] } rest

def jobs (components : List Component) : List Job :=
  components.mapIdx fun position component => ⟨position, component⟩

/-- A pool whose queue has just been filled. There is at least one worker. -/
def start (action : Action) (workers : Nat) (components : List Component) : Pool :=
  enqueue {
    action := action
    capacity := max components.length 1
    queue := []
    dismissed := []
    workers := List.replicate (max workers 1) .checking } (jobs components)

inductive Label where
  /-- A worker looks at the cancel signal. -/
  | check (worker : Nat)
  /-- A worker takes a job and calls helm, or finds the queue empty. -/
  | take (worker : Nat)
  /-- The helm call of a worker ends. -/
  | finish (worker : Nat) (succeeded : Bool)
  /-- A worker sends a status, or finds that nobody receives. -/
  | send (worker : Nat)
  /-- The channel is closed behind the workers. -/
  | close
  | receive
  | cancel
  /-- The receiver goes away. -/
  | drop
  deriving DecidableEq, Repr

def become (pool : Pool) (i : Nat) (worker : Worker) : Pool :=
  { pool with workers := pool.workers.set i worker }

def settle (action : Action) (job : Job) (succeeded : Bool) : Job :=
  { job with component := { job.component with status := action.outcome succeeded } }

def step (pool : Pool) : Label → Option Pool
  | .check i =>
    match pool.workers[i]? with
    | some .checking => some (pool.become i (if pool.cancelled then .gone else .taking))
    | _ => none
  | .take i =>
    match pool.workers[i]? with
    | some .taking =>
      match pool.queue with
      | [] => some (pool.become i .gone)
      | job :: rest =>
        some { pool.become i (.calling job) with queue := rest, taken := pool.taken ++ [job] }
    | _ => none
  | .finish i succeeded =>
    match pool.workers[i]? with
    | some (.calling job) =>
      let job := settle pool.action job succeeded
      some { pool.become i (.sending job) with ended := pool.ended ++ [job] }
    | _ => none
  | .send i =>
    match pool.workers[i]? with
    | some (.sending job) =>
      if pool.closed then some { pool.become i .gone with lost := pool.lost ++ [job] }
      else if pool.channel.length < pool.capacity then
        some { pool.become i .checking with channel := pool.channel ++ [job] }
      else none
    | _ => none
  | .close =>
    if pool.closed then none
    else if pool.workers.all (· == .gone) then some { pool with closed := true }
    else none
  | .receive =>
    if pool.receiverGone then none
    else match pool.channel with
      | [] => none
      | job :: rest => some { pool with channel := rest, received := pool.received ++ [job] }
  | .cancel => some { pool with cancelled := true }
  | .drop =>
    if pool.receiverGone then none
    else some { pool with
      receiverGone := true
      closed := true
      channel := []
      lost := pool.lost ++ pool.channel }

def underWay (pool : Pool) : Nat :=
  pool.workers.countP fun worker => match worker with
    | .calling _ => true
    | _ => false

end Pool

end Rollout
