import Rollout.Delivery

/-! The steps of the task that forwards updates, each with all that makes it possible and all
that it changes. -/

set_option autoImplicit false

namespace Rollout.Delivery

inductive Move (delivery : Delivery) : Label → Delivery → Prop where
  | call {update : Update} {rest : List Update} : delivery.forwarder = .receiving →
      delivery.queue = update :: rest →
      Move delivery .call { delivery with
        queue := rest
        delivered := delivery.delivered ++ [update]
        forwarder := .calling }
  | returned : delivery.forwarder = .calling →
      Move delivery .returned { delivery with forwarder := .receiving }
  | seeEnd : delivery.forwarder = .receiving → delivery.queue = [] → delivery.closed = true →
      Move delivery .seeEnd { delivery with forwarder := .leaving }
  | drain : delivery.forwarder = .leaving →
      Move delivery .drain { delivery with forwarder := .gone, drained := true }

variable {delivery next : Delivery} {label : Label}

theorem move_of_step (stepped : delivery.step label = some next) : Move delivery label next := by
  cases label with
  | call =>
    simp only [step] at stepped
    split at stepped <;> cases stepped
    exact .call ‹_› ‹_›
  | returned =>
    simp only [step] at stepped
    split at stepped <;> cases stepped
    exact .returned ‹_›
  | seeEnd =>
    simp only [step] at stepped
    split at stepped
    · split at stepped <;> cases stepped
      exact .seeEnd ‹_› ‹_› ‹_›
    · cases stepped
  | drain =>
    simp only [step] at stepped
    split at stepped <;> cases stepped
    exact .drain ‹_›

theorem step_of_move (move : Move delivery label next) : delivery.step label = some next := by
  cases move with
  | call receiving waiting => simp [step, receiving, waiting]
  | returned calling => simp [step, calling]
  | seeEnd receiving empty closed => simp [step, receiving, empty, closed]
  | drain leaving => simp [step, leaving]

end Rollout.Delivery
