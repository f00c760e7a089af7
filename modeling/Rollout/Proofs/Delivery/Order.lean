import Rollout.Proofs.Delivery.Moves

/-! Updates reach the observer in the order in which they were sent, and all of them have done
so when the forwarding task says that the queue is drained. -/

set_option autoImplicit false

namespace Rollout.Delivery

structure Orderly (delivery : Delivery) : Prop where
  sent : delivery.sent = delivery.delivered ++ delivery.queue
  leaving : delivery.forwarder = .leaving ∨ delivery.forwarder = .gone →
    delivery.queue = [] ∧ (delivery.observed = true → delivery.closed = true)
  drained : delivery.drained = true ↔ delivery.forwarder = .gone

variable {delivery next : Delivery} {label : Label}

theorem orderly_start (observed : Bool) : (start observed).Orderly := by
  cases observed with
  | false => exact ⟨rfl, fun _ => ⟨rfl, fun same => nomatch same⟩, by simp [start]⟩
  | true => exact ⟨rfl, fun left => by simp [start] at left, by simp [start]⟩

theorem Orderly.send (orderly : delivery.Orderly) (update : Update) :
    (delivery.send update).Orderly := by
  unfold Delivery.send
  split
  · rename_i listening
    simp only [Bool.and_eq_true, Bool.not_eq_true'] at listening
    refine ⟨by simp [orderly.sent], fun left => ?_, orderly.drained⟩
    -- the forwarding task does not leave before the queue is closed
    have closed := (orderly.leaving left).2 listening.1
    rw [listening.2] at closed
    cases closed
  · exact orderly

theorem Orderly.sendAll (orderly : delivery.Orderly) (updates : List Update) :
    (delivery.sendAll updates).Orderly := by
  unfold Delivery.sendAll
  induction updates generalizing delivery with
  | nil => exact orderly
  | cons update rest ih => exact ih (orderly.send update)

theorem Orderly.close (orderly : delivery.Orderly) : delivery.close.Orderly where
  sent := orderly.sent
  leaving left := ⟨(orderly.leaving left).1, fun _ => rfl⟩
  drained := orderly.drained

theorem Orderly.step (orderly : delivery.Orderly) (stepped : delivery.step label = some next) :
    next.Orderly := by
  have notDrained : delivery.forwarder ≠ .gone → delivery.drained ≠ true :=
    fun there => mt orderly.drained.mp there
  cases move_of_step stepped with
  | call receiving waiting =>
    refine ⟨?_, fun left => by simp at left, ?_⟩
    · simp [orderly.sent, waiting]
    · simpa using notDrained (by simp [receiving])
  | returned calling =>
    refine ⟨orderly.sent, fun left => by simp at left, ?_⟩
    simpa using notDrained (by simp [calling])
  | seeEnd receiving empty closed =>
    refine ⟨orderly.sent, fun _ => ⟨empty, fun _ => closed⟩, ?_⟩
    simpa using notDrained (by simp [receiving])
  | drain leaving => exact ⟨orderly.sent, fun _ => orderly.leaving (.inl leaving), by simp⟩

theorem step_frame (stepped : delivery.step label = some next) :
    next.sent = delivery.sent ∧ next.closed = delivery.closed ∧
      next.observed = delivery.observed := by
  cases move_of_step stepped <;> exact ⟨rfl, rfl, rfl⟩

theorem drained_of_step (stepped : delivery.step label = some next) (other : label ≠ .drain) :
    next.drained = delivery.drained := by
  cases move_of_step stepped with
  | drain => exact absurd rfl other
  | call | returned | seeEnd => rfl

theorem send_frame (delivery : Delivery) (update : Update) :
    (delivery.send update).closed = delivery.closed ∧
      (delivery.send update).observed = delivery.observed ∧
      (delivery.send update).drained = delivery.drained := by
  unfold send
  split <;> exact ⟨rfl, rfl, rfl⟩

theorem sendAll_sent (observed : delivery.observed = true) (opened : delivery.closed = false)
    (updates : List Update) :
    (delivery.sendAll updates).sent = delivery.sent ++ updates := by
  unfold sendAll
  induction updates generalizing delivery with
  | nil => simp
  | cons update rest ih =>
    have first : delivery.send update = { delivery with
        queue := delivery.queue ++ [update]
        sent := delivery.sent ++ [update] } := by simp [send, observed, opened]
    rw [List.foldl_cons, first, ih]
    · simp
    · exact observed
    · exact opened

theorem sendAll_frame (delivery : Delivery) (updates : List Update) :
    (delivery.sendAll updates).closed = delivery.closed ∧
      (delivery.sendAll updates).observed = delivery.observed := by
  unfold sendAll
  induction updates generalizing delivery with
  | nil => exact ⟨rfl, rfl⟩
  | cons update rest ih =>
    obtain ⟨closed, observed⟩ := ih (delivery.send update)
    obtain ⟨first, same, -⟩ := send_frame delivery update
    rw [List.foldl_cons]
    exact ⟨closed.trans first, observed.trans same⟩

theorem Orderly.delivered_of_done (orderly : delivery.Orderly) (done : delivery.isDone = true) :
    delivery.delivered = delivery.sent := by
  simp only [isDone, Bool.and_eq_true] at done
  have gone := orderly.drained.mp done.2
  rw [orderly.sent, (orderly.leaving (.inr gone)).1, List.append_nil]

theorem Orderly.still (orderly : delivery.Orderly) (done : delivery.isDone = true) :
    delivery.step label = none := by
  simp only [isDone, Bool.and_eq_true] at done
  have gone := orderly.drained.mp done.2
  cases label <;> simp [Delivery.step, gone]

end Rollout.Delivery
