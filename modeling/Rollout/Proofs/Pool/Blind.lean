import Rollout.Proofs.Pool.Ledger

/-! A pool does not look at what its calls come to. With the statuses forgotten it takes the same
steps, so that a call that fails keeps no other one from being made. -/

set_option autoImplicit false

namespace Rollout

def Worker.unjudged (action : Action) : Worker → Worker
  | .sending job => .sending (Pool.settle action job true)
  | worker => worker

namespace Pool

def Label.unjudged : Label → Label
  | .finish i _ => .finish i true
  | label => label

/-- The pool with the statuses of all calls forgotten. -/
def unjudged (pool : Pool) : Pool :=
  let forget (job : Job) := settle pool.action job true
  { pool with
    workers := pool.workers.map (Worker.unjudged pool.action)
    channel := pool.channel.map forget
    received := pool.received.map forget
    lost := pool.lost.map forget
    ended := pool.ended.map forget }

theorem unjudged_workers (pool : Pool) (i : Nat) :
    pool.unjudged.workers[i]? = pool.workers[i]?.map (Worker.unjudged pool.action) :=
  List.getElem?_map

theorem unjudged_gone (pool : Pool) :
    pool.unjudged.workers.all (· == .gone) = pool.workers.all (· == .gone) := by
  have same (worker : Worker) : (worker.unjudged pool.action == .gone) = (worker == .gone) := by
    cases worker <;> rfl
  simp [unjudged, Function.comp_def, same]

/-- A pool without its statuses takes the steps of the pool. -/
theorem step_unjudged (pool : Pool) (label : Label) :
    pool.unjudged.step label.unjudged = (pool.step label).map unjudged := by
  cases label with
  | check i =>
    simp only [step, Label.unjudged, unjudged_workers]
    cases pool.workers[i]? with
    | none => rfl
    | some worker =>
      cases worker with
      | checking =>
        cases seen : pool.cancelled <;>
          simp [unjudged, become, seen, List.map_set, Worker.unjudged]
      | taking | calling | sending | gone => rfl
  | take i =>
    simp only [step, Label.unjudged, unjudged_workers]
    cases pool.workers[i]? with
    | none => rfl
    | some worker =>
      cases worker with
      | taking =>
        cases waiting : pool.queue with
        | nil => simp [unjudged, become, waiting, List.map_set, Worker.unjudged]
        | cons job rest => simp [unjudged, become, waiting, List.map_set, Worker.unjudged]
      | checking | calling | sending | gone => rfl
  | finish i succeeded =>
    simp only [step, Label.unjudged, unjudged_workers]
    cases pool.workers[i]? with
    | none => rfl
    | some worker =>
      cases worker with
      | calling job => simp [unjudged, become, List.map_set, Worker.unjudged]
      | checking | taking | sending | gone => rfl
  | send i =>
    simp only [step, Label.unjudged, unjudged_workers]
    cases pool.workers[i]? with
    | none => rfl
    | some worker =>
      cases worker with
      | sending job =>
        cases shut : pool.closed with
        | true => simp [unjudged, become, shut, List.map_set, Worker.unjudged]
        | false => simp [unjudged, become, shut, List.map_set, Worker.unjudged]
      | checking | taking | calling | gone => rfl
  | close =>
    simp only [step, Label.unjudged, unjudged_gone]
    cases pool.workers.all (· == .gone) <;> cases shut : pool.closed <;> simp [unjudged, shut]
  | receive =>
    cases waiting : pool.channel <;> cases listening : pool.receiverGone <;>
      simp [step, Label.unjudged, unjudged, waiting, listening]
  | cancel => rfl
  | drop =>
    cases listening : pool.receiverGone <;> simp [step, Label.unjudged, unjudged, listening]

theorem walk_unjudged (labels : List Label) (pool : Pool) :
    walk step anyStep (labels.map Label.unjudged) pool.unjudged =
      (walk step anyStep labels pool).map unjudged := by
  induction labels generalizing pool with
  | nil => rfl
  | cons label rest ih =>
    simp only [List.map_cons, walk, anyStep, if_true, step_unjudged]
    cases pool.step label with
    | none => rfl
    | some next => exact ih next

/-- Whatever calls come to, the same jobs are taken in the same steps. -/
theorem taken_unjudged {labels others : List Label} (pool : Pool)
    (same : labels.map Label.unjudged = others.map Label.unjudged) :
    (walk step anyStep labels pool).map taken = (walk step anyStep others pool).map taken := by
  have kept (labels : List Label) : (walk step anyStep labels pool).map taken =
      (walk step anyStep (labels.map Label.unjudged) pool.unjudged).map taken := by
    rw [walk_unjudged, Option.map_map]
    rfl
  rw [kept labels, same, ← kept others]

end Pool

end Rollout
