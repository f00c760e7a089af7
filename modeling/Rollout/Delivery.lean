import Rollout.Update

/-! Handing updates to an observer.

A run sends updates into a queue without limit. A task of its own takes them out one by one
and calls the observer. The run ends with `close`, which waits until that task has said that
the queue is drained. -/

set_option autoImplicit false

namespace Rollout

inductive Forwarder where
  | receiving
  /-- The observer has been called and has not returned. -/
  | calling
  /-- The queue was closed and empty. -/
  | leaving
  | gone
  deriving DecidableEq, Repr

structure Delivery where
  observed : Bool
  queue : List Update := []
  /-- The updates that the observer was called with. -/
  delivered : List Update := []
  /-- All updates sent to an observer. -/
  sent : List Update := []
  closed : Bool := false
  forwarder : Forwarder := .receiving
  drained : Bool := false
  deriving DecidableEq, Repr

namespace Delivery

/-- The queue of a run with or without an observer. Without one there is nothing to wait
for at the end. -/
def start (observed : Bool) : Delivery :=
  if observed then { observed := true }
  else { observed := false, forwarder := .gone, drained := true }

/-- Sends an update, which never waits. It is dropped if nobody observes, or if the queue is
closed. -/
def send (delivery : Delivery) (update : Update) : Delivery :=
  if delivery.observed && !delivery.closed then
    { delivery with queue := delivery.queue ++ [update], sent := delivery.sent ++ [update] }
  else delivery

def sendAll (delivery : Delivery) (updates : List Update) : Delivery :=
  updates.foldl send delivery

def close (delivery : Delivery) : Delivery :=
  { delivery with closed := true }

inductive Label where
  /-- The forwarding task takes an update and calls the observer. -/
  | call
  /-- The observer returns. -/
  | returned
  /-- The forwarding task finds the queue closed and empty. -/
  | seeEnd
  /-- The forwarding task says that the queue is drained. -/
  | drain
  deriving DecidableEq, Repr

def step (delivery : Delivery) : Label → Option Delivery
  | .call =>
    match delivery.forwarder, delivery.queue with
    | .receiving, update :: rest =>
      some { delivery with
        queue := rest
        delivered := delivery.delivered ++ [update]
        forwarder := .calling }
    | _, _ => none
  | .returned =>
    match delivery.forwarder with
    | .calling => some { delivery with forwarder := .receiving }
    | _ => none
  | .seeEnd =>
    match delivery.forwarder, delivery.queue with
    | .receiving, [] =>
      if delivery.closed then some { delivery with forwarder := .leaving } else none
    | _, _ => none
  | .drain =>
    match delivery.forwarder with
    | .leaving => some { delivery with forwarder := .gone, drained := true }
    | _ => none

def isDone (delivery : Delivery) : Bool :=
  delivery.closed && delivery.drained

end Delivery

end Rollout
