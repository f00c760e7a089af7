import Rollout.Proofs.Delivery.Order
import Rollout.Proofs.Run.Stages

/-! Runs that are alike but for how far the forwarding of updates has got, and for whether the
watcher is idle. Workers can do the same in both, and the watcher as soon as it looks up. -/

set_option autoImplicit false

namespace Rollout

structure Delivery.Alike (delivery other : Delivery) : Prop where
  sent : other.sent = delivery.sent
  closed : other.closed = delivery.closed
  observed : other.observed = delivery.observed

namespace Delivery

variable {delivery other later : Delivery} {label : Label}

theorem Alike.send (alike : delivery.Alike other) (update : Update) :
    (delivery.send update).Alike (other.send update) := by
  unfold Delivery.send
  rw [alike.observed, alike.closed]
  split
  · exact ⟨congrArg (· ++ [update]) alike.sent, rfl, rfl⟩
  · exact alike

theorem Alike.sendAll (alike : delivery.Alike other) (updates : List Update) :
    (delivery.sendAll updates).Alike (other.sendAll updates) := by
  unfold Delivery.sendAll
  induction updates generalizing delivery other with
  | nil => exact alike
  | cons update rest ih => exact ih (alike.send update)

def closeIf (delivery : Delivery) (shut : Bool) : Delivery :=
  if shut then delivery.close else delivery

theorem Alike.closeIf (alike : delivery.Alike other) (shut : Bool) :
    (delivery.closeIf shut).Alike (other.closeIf shut) := by
  cases shut with
  | false => exact alike
  | true => exact ⟨alike.sent, rfl, alike.observed⟩

theorem Alike.step (alike : delivery.Alike other) (stepped : other.step label = some later) :
    delivery.Alike later := by
  obtain ⟨sent, closed, observed⟩ := step_frame stepped
  exact ⟨sent.trans alike.sent, closed.trans alike.closed, observed.trans alike.observed⟩

end Delivery

/-- The stage with a watcher that looks at the channel. -/
def Stage.awake : Stage → Stage
  | .watching watch _ last => .watching watch false last
  | .ready phase last => .ready phase last
  | .closing result => .closing result
  | .over result => .over result

structure Run.Alike (run other : Run) : Prop where
  plan : other.plan = run.plan
  site : other.site = run.site
  stage : other.stage.awake = run.stage.awake
  delivery : run.delivery.Alike other.delivery

namespace Run

variable {run other next : Run} {label : Label}

/-- A step that is not one of the forwarding task, nor the return, sends updates and may close the
queue. What has been sent or forwarded before plays no part in it. -/
theorem exists_told (stepped : run.step label = some next)
    (undelivered : ∀ forward, label ≠ .deliver forward) (going : label ≠ .conclude) :
    ∃ updates shut, ∀ delivery, step { run with delivery := delivery } label =
      some { next with delivery := (delivery.sendAll updates).closeIf shut } := by
  cases move_of_step stepped with
  | @opened phase last site ready opened =>
    exact ⟨[{ phase := phase, event := .start }], false,
      fun _ => step_of_move (.opened ready opened)⟩
  | @refused phase last error ready refused =>
    exact ⟨[{ phase := phase, event := .start }, Update.failed ⟨phase, .notStarted error⟩], true,
      fun _ => step_of_move (.refused ready refused)⟩
  | work work moved => exact ⟨[], false, fun _ => step_of_move (.work work moved)⟩
  | receive watching found waiting moved =>
    exact ⟨[_], false, fun _ => step_of_move (.receive watching found waiting moved)⟩
  | @seeEnd watch last pool watching found drained closed =>
    have ended (delivery : Delivery) : step { run with delivery := delivery } .seeEnd = _ :=
      step_of_move (.seeEnd watching found drained closed)
    generalize watch.verdict = outcome at ended ⊢
    cases outcome with
    | some failure => exact ⟨[_], true, ended⟩
    | none =>
      cases last with
      | true => exact ⟨[_], true, ended⟩
      | false => exact ⟨[_], false, ended⟩
  | pass watching found drained opened =>
    exact ⟨[], false, fun _ => step_of_move (.pass watching found drained opened)⟩
  | wake watching => exact ⟨[], false, fun _ => step_of_move (.wake watching)⟩
  | cancelDeadline watching early moved =>
    exact ⟨[], false, fun _ => step_of_move (.cancelDeadline watching early moved)⟩
  | quitDeadline watching first second =>
    exact ⟨[_], true, fun _ => step_of_move (.quitDeadline watching first second)⟩
  | deliver => exact absurd rfl (undelivered _)
  | edit => exact ⟨[], false, fun _ => step_of_move .edit⟩
  | conclude => exact absurd rfl going

theorem Alike.work {index : Nat} {label : Pool.Label} (alike : run.Alike other)
    (stepped : run.step (.work index label) = some next) :
    ∃ later, other.step (.work index label) = some later ∧ next.Alike later := by
  cases move_of_step stepped with
  | work work moved =>
    rw [← alike.site] at moved
    exact ⟨_, step_of_move (.work work moved), alike.plan, rfl, alike.stage, alike.delivery⟩

/-- Where the watchers are at the same the runs go on alike. -/
theorem Alike.step (alike : run.Alike other) (same : other.stage = run.stage)
    (stepped : run.step label = some next) (undelivered : ∀ forward, label ≠ .deliver forward)
    (going : label ≠ .conclude) :
    ∃ later, other.step label = some later ∧ next.Alike later := by
  obtain ⟨plan, site, stage, delivery⟩ := other
  obtain ⟨rfl, rfl, -, sent⟩ := alike
  cases same
  obtain ⟨updates, shut, told⟩ := exists_told stepped undelivered going
  have here : next.delivery = (run.delivery.sendAll updates).closeIf shut := by
    have again := stepped.symm.trans (told run.delivery)
    rw [Option.some.inj again]
  exact ⟨_, told delivery, rfl, rfl, rfl, here ▸ (sent.sendAll updates).closeIf shut⟩

end Run

end Rollout
