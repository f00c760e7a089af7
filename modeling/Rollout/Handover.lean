import Rollout.Delivery
import Rollout.Signal

/-! Sending, forwarding and closing in small steps.

The task that runs and the task that forwards updates share a queue and a signal. Here the
forwarding task takes an update and calls the observer in two steps, and gives the signal in
two; whoever closes the queue waits for the signal as any task does. `step` says which steps
are possible, in any order of the two tasks. -/

set_option autoImplicit false

namespace Rollout

structure Handover where
  delivery : Delivery
  /-- The forwarding task has taken the first update of the queue, and has not called the
  observer with it. -/
  holding : Bool := false
  /-- Tells that the queue is drained. The task that has closed the queue is its only listener. -/
  signal : Signal := {}
  deriving DecidableEq, Repr

namespace Handover

/-- Without an observer the signal is given from the start. -/
def start (observed : Bool) : Handover where
  delivery := Delivery.start observed
  signal := if observed then {} else Signal.notify {}

inductive Label where
  | send (update : Update)
  /-- The queue is closed, and the waiting begins. -/
  | close
  | wait (label : Signal.Label)
  /-- The forwarding task takes an update. -/
  | receive
  /-- The forwarding task calls the observer. -/
  | call
  /-- The observer returns. -/
  | returned
  /-- The forwarding task finds the queue closed and empty. -/
  | seeEnd
  /-- The forwarding task sets the flag of the signal. -/
  | set
  /-- The forwarding task wakes the one that waits. -/
  | wake
  deriving DecidableEq, Repr

def isWait : Signal.Label → Bool
  | .look 0 | .register 0 | .lookAgain 0 | .awake 0 => true
  | _ => false

-- Closing takes the sending end away, so that nothing is sent or closed behind it.
def step (handover : Handover) : Label → Option Handover
  | .send update =>
    if handover.delivery.closed then none
    else some { handover with delivery := handover.delivery.send update }
  | .close =>
    if handover.delivery.closed then none
    else do return { handover with
      delivery := handover.delivery.close
      signal := ← handover.signal.step .listen }
  | .wait label =>
    if isWait label then do return { handover with signal := ← handover.signal.step label }
    else none
  | .receive =>
    match handover.delivery.forwarder, handover.delivery.queue, handover.holding with
    | .receiving, _ :: _, false => some { handover with holding := true }
    | _, _, _ => none
  | .call =>
    if handover.holding then do return { handover with
      delivery := ← handover.delivery.step .call
      holding := false }
    else none
  | .returned => do return { handover with delivery := ← handover.delivery.step .returned }
  | .seeEnd => do return { handover with delivery := ← handover.delivery.step .seeEnd }
  | .set => do return { handover with
      delivery := ← handover.delivery.step .drain
      signal := ← handover.signal.step .set }
  | .wake => do return { handover with signal := ← handover.signal.step .wake }

def hasReturned (handover : Handover) : Bool :=
  handover.signal.listeners[0]? == some .finished

end Handover

end Rollout
