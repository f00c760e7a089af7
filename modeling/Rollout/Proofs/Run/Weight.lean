import Rollout.Proofs.Delivery.Moves
import Rollout.Proofs.Pool.Weight
import Rollout.Proofs.Run.Stages

/-! How much is left to do in a run. Every step but those of a watcher that waits and the
editing of files takes something off, so that no run goes on for ever. -/

set_option autoImplicit false

namespace Rollout

namespace Site

def weight (site : Site) : Nat :=
  (site.pools.map Pool.weight).sum

variable {site next : Site} {index : Nat} {label : Pool.Label}

theorem weight_step (stepped : site.step index label = some next) :
    ∃ pool after : Pool, pool.step label = some after ∧
      next.weight + pool.weight = site.weight + after.weight := by
  obtain ⟨pool, after, found, moved, rfl⟩ := step_inv stepped
  exact ⟨pool, after, moved, sum_set Pool.weight found after⟩

theorem weight_work (work : Run.isWork label = true)
    (stepped : site.step index label = some next) : next.weight < site.weight := by
  obtain ⟨pool, after, moved, same⟩ := weight_step stepped
  have less := Pool.weight_work work moved
  omega

theorem weight_receive (stepped : site.step index .receive = some next) :
    next.weight + 3 = site.weight := by
  obtain ⟨pool, after, moved, same⟩ := weight_step stepped
  have less := Pool.weight_receive moved
  omega

theorem weight_cancel (stepped : site.step index .cancel = some next) :
    next.weight = site.weight := by
  obtain ⟨pool, after, moved, same⟩ := weight_step stepped
  have unchanged := Pool.weight_cancel moved
  omega

theorem weight_drop (stepped : site.step index .drop = some next) :
    next.weight ≤ site.weight := by
  obtain ⟨pool, after, moved, same⟩ := weight_step stepped
  have less := Pool.weight_drop moved
  omega

end Site

def Forwarder.weight : Forwarder → Nat
  | .calling => 3
  | .receiving => 2
  | .leaving => 1
  | .gone => 0

namespace Delivery

def weight (delivery : Delivery) : Nat :=
  2 * delivery.queue.length + delivery.forwarder.weight

variable {delivery next : Delivery} {label : Label}

theorem weight_step (stepped : delivery.step label = some next) :
    next.weight < delivery.weight := by
  unfold weight
  cases move_of_step stepped with
  | call receiving waiting =>
    simp only [receiving, waiting, Forwarder.weight, List.length_cons]
    omega
  | returned there | seeEnd there | drain there =>
    simp only [there, Forwarder.weight]
    omega

theorem weight_send (delivery : Delivery) (update : Update) :
    (delivery.send update).weight ≤ delivery.weight + 2 := by
  unfold send
  split
  · simp only [weight, List.length_append, List.length_singleton]
    omega
  · omega

theorem weight_sendAll (delivery : Delivery) (updates : List Update) :
    (delivery.sendAll updates).weight ≤ delivery.weight + 2 * updates.length := by
  unfold sendAll
  induction updates generalizing delivery with
  | nil => exact Nat.le_refl _
  | cons update rest ih =>
    have first := weight_send delivery update
    have others := ih (delivery.send update)
    rw [List.foldl_cons, List.length_cons]
    omega

end Delivery

/-! ## Whole runs -/

def Plan.cost (plan : Plan) (phase : Phase) : Nat :=
  7 * (plan.components phase).length + 2 * max (plan.workers phase) 1 + 1

/-- What is still to come behind a stage, with the updates that will be sent. -/
def Stage.weight (plan : Plan) : Stage → Nat
  | .ready phase true => plan.cost phase + 8
  | .ready phase false => plan.cost phase + plan.cost plan.secondPhase + 15
  | .watching watch _ true => (!watch.timedOut).toNat + 4
  | .watching watch _ false => (!watch.timedOut).toNat + plan.cost plan.secondPhase + 11
  | .closing _ => 1
  | .over _ => 0

namespace Run

def weight (run : Run) : Nat :=
  run.stage.weight run.plan + run.site.weight + run.delivery.weight

/-- The labels of steps that are neither waiting nor done from outside. -/
def isBusy : Label → Bool
  | .pass | .wake | .edit _ => false
  | _ => true

variable {run next : Run} {label : Label}

theorem weight_at {stage : Stage} (here : run.stage = stage) :
    run.weight = stage.weight run.plan + run.site.weight + run.delivery.weight := by
  rw [weight, here]

theorem weight_close (run : Run) (result : Except RunError Unit) :
    (run.close result).weight = 1 + run.site.weight + run.delivery.weight := rfl

theorem weight_tell (run : Run) (updates : List Update) :
    (run.tell updates).delivery.weight ≤ run.delivery.weight + 2 * updates.length :=
  Delivery.weight_sendAll run.delivery updates

theorem weight_watching (plan : Plan) {watch later : Watch} (idle idle' last : Bool)
    (same : later.timedOut = watch.timedOut) :
    (Stage.watching later idle last).weight plan =
      (Stage.watching watch idle' last).weight plan := by
  cases last <;> simp only [Stage.weight, same]

theorem weight_overdue (plan : Plan) {watch : Watch} (idle idle' last : Bool)
    (early : watch.timedOut = false) :
    (Stage.watching watch.overdue idle last).weight plan + 1 =
      (Stage.watching watch idle' last).weight plan := by
  cases last <;>
    simp only [Stage.weight, Watch.overdue, early, Bool.not_true, Bool.not_false,
      Bool.toNat_true, Bool.toNat_false]
  all_goals omega

theorem weight_closing_le (plan : Plan) (watch : Watch) (idle last : Bool) :
    4 ≤ (Stage.watching watch idle last).weight plan := by
  cases last <;> simp only [Stage.weight] <;> omega

-- The second phase, or the end, costs less than the phase before it; what is left over pays
-- for the update that is sent then.
theorem weight_afterPhase (run : Run) (watch : Watch) (idle last : Bool)
    (outcome : Watch.Outcome) :
    (run.afterPhase watch.phase last outcome).weight + 3 ≤
      (Stage.watching watch idle last).weight run.plan + run.site.weight + run.delivery.weight := by
  have closing := weight_closing_le run.plan watch idle last
  rcases outcome with _ | failure
  · cases last with
    | true =>
      have closed : (run.afterPhase watch.phase true none).weight = _ := weight_close run (.ok ())
      omega
    | false =>
      have ready : (run.afterPhase watch.phase false none).weight =
          run.plan.cost run.plan.secondPhase + 8 + run.site.weight + run.delivery.weight := rfl
      simp only [Stage.weight]
      omega
  · have closed : (run.afterPhase watch.phase last (some failure)).weight = _ :=
      weight_close run (.error ⟨watch.phase, failure⟩)
    omega

theorem weight_ready (plan : Plan) (phase : Phase) (idle last : Bool) :
    (Stage.watching { phase := phase } idle last).weight plan + plan.cost phase + 3 ≤
      (Stage.ready phase last).weight plan := by
  cases last <;> simp only [Stage.weight, Bool.not_false, Bool.toNat_true]
  all_goals omega

theorem weight_openPool {site next : Site} {plan : Plan} {phase : Phase}
    (opened : site.openPool phase.action (plan.workers phase) (.ok (plan.components phase)) =
      .ok next) : next.weight = site.weight + plan.cost phase := by
  obtain ⟨source, rfl, -⟩ := Site.openPool_inv opened
  rw [Site.weight, List.map_append, List.sum_append, List.map_singleton, List.sum_singleton,
    Pool.weight_start]
  rfl

-- Each case collects what the parts spend and gain; the sums are linear.
theorem weight_step (stepped : run.step label = some next) :
    next.weight + (isBusy label).toNat ≤ run.weight := by
  cases move_of_step stepped with
  | @opened phase last site ready opened =>
    have told := weight_tell run [{ phase := phase, event := .start }]
    have less := weight_ready run.plan phase false last
    have pool := weight_openPool opened
    rw [weight_at ready]
    simp only [weight, isBusy, Bool.toNat_true, List.length_singleton, tell_plan] at told ⊢
    omega
  | @refused phase last error ready =>
    -- two updates are sent, and both phases fall away
    have started := weight_tell run [{ phase := phase, event := .start }]
    have told := weight_tell (run.tell [{ phase := phase, event := .start }])
      [Update.failed ⟨phase, .notStarted error⟩]
    have less := weight_ready run.plan phase false last
    have closing := weight_closing_le run.plan { phase := phase } false last
    rw [weight_at ready, weight_close]
    simp only [isBusy, Bool.toNat_true, List.length_singleton, tell_site, Plan.cost]
      at started told less ⊢
    omega
  | work work moved =>
    have less := Site.weight_work work moved
    simp only [weight, isBusy, Bool.toNat_true]
    omega
  | @receive watch last pool job rest site watching _ _ moved =>
    have told := weight_tell run [Update.processed watch.phase job.component]
    have less := Site.weight_receive moved
    have same := weight_watching run.plan false false last
      (Watch.noting_timedOut watch job.component)
    rw [weight_at watching, ← same]
    simp only [weight, isBusy, Bool.toNat_true, List.length_singleton, tell_plan] at told ⊢
    omega
  | @seeEnd watch last pool watching =>
    have told := weight_tell run [Watch.endUpdate watch.phase watch.verdict]
    have less := weight_afterPhase (run.tell [Watch.endUpdate watch.phase watch.verdict]) watch
      false last watch.verdict
    rw [weight_at watching]
    simp only [isBusy, Bool.toNat_true, List.length_singleton, tell_plan, tell_site]
      at told less ⊢
    omega
  | @pass watch last pool watching =>
    have same := weight_watching run.plan true false last (Eq.refl watch.timedOut)
    rw [weight_at watching, ← same]
    exact Nat.le_refl _
  | @wake watch last watching =>
    have same := weight_watching run.plan false true last (Eq.refl watch.timedOut)
    rw [weight_at watching, ← same]
    exact Nat.le_refl _
  | @cancelDeadline watch last site watching early moved =>
    have same := Site.weight_cancel moved
    have less := weight_overdue run.plan false true last early
    rw [weight_at watching]
    simp only [weight, isBusy, Bool.toNat_true]
    omega
  | @quitDeadline watch last middle site watching first second =>
    -- the workers go on behind the end, so the pool keeps its weight
    have same := Site.weight_cancel first
    have less := Site.weight_drop second
    have told := weight_tell { run with site := site }
      [Watch.endUpdate watch.phase (some .forceQuit)]
    have closing := weight_closing_le run.plan watch true last
    rw [weight_at watching, weight_close]
    simp only [isBusy, Bool.toNat_true, List.length_singleton, tell_site] at told ⊢
    omega
  | deliver moved =>
    have less := Delivery.weight_step moved
    simp only [weight, isBusy, Bool.toNat_true]
    omega
  | edit => exact Nat.le_refl _
  | conclude closing =>
    rw [weight_at closing]
    simp only [weight, Stage.weight, isBusy, Bool.toNat_true]
    omega

/-- No run takes more steps than it weighs at the start, apart from waiting and editing. -/
theorem countP_isBusy_le {guard : Run → Label → Bool} {labels : List Label} {final : Run}
    (walked : walk step guard labels run = some final) :
    labels.countP isBusy + final.weight ≤ run.weight := by
  induction labels generalizing run with
  | nil =>
    cases walked
    simp
  | cons label rest ih =>
    obtain ⟨next, -, stepped, walked⟩ := walk_cons walked
    have first := weight_step stepped
    have others := ih walked
    rw [List.countP_cons]
    cases busy : isBusy label <;> simp only [busy, Bool.toNat_true, Bool.toNat_false,
      Bool.false_eq_true, if_true, if_false] at first ⊢ <;> omega

end Run

end Rollout
