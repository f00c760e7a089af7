import Mathlib.Data.List.Forall2
import Rollout.Proofs.Pool.Ending
import Rollout.Proofs.Run.Moves
import Rollout.Proofs.Watch.Outcome

/-! What the stage of a run says of its pools. The phases behind the one under way ended with
everything handled, and the watcher has counted what it received. -/

set_option autoImplicit false

namespace Rollout

namespace Plan

variable (plan : Plan)

def phase (last : Bool) : Phase :=
  if last then plan.secondPhase else plan.firstPhase

def before (last : Bool) : List Phase :=
  if last then [plan.firstPhase] else []

def Ledger (phase : Phase) (pool : Pool) : Prop :=
  Pool.Ledger phase.action (plan.workers phase) (plan.components phase) pool

structure Finished (phase : Phase) (pool : Pool) : Prop where
  ledger : plan.Ledger phase pool
  closed : pool.closed = true
  drained : pool.channel = []
  listening : pool.receiverGone = false
  running : pool.cancelled = false
  clean : ∀ job ∈ pool.received, job.component.status ≠ .error

end Plan

/-- A watcher has the statuses and the signal of a pool before it. -/
structure Watch.Sees (watch : Watch) (pool : Pool) : Prop where
  failed : watch.failed = pool.received.countP (·.component.status == .error)
  timedOut : watch.timedOut = pool.cancelled
  listening : pool.receiverGone = false

structure Plan.Watching (plan : Plan) (watch : Watch) (last : Bool) (done : List Pool)
    (pool : Pool) : Prop where
  finished : List.Forall₂ plan.Finished (plan.before last) done
  phase : watch.phase = plan.phase last
  ledger : plan.Ledger (plan.phase last) pool
  sees : watch.Sees pool

/-- What a stage says of the pools that have been opened. -/
def Plan.Staged (plan : Plan) (stage : Stage) (pools : List Pool) : Prop :=
  match stage with
  | .ready phase last =>
    phase = plan.phase last ∧ List.Forall₂ plan.Finished (plan.before last) pools
  | .watching watch _ last =>
    ∃ done pool, pools = done ++ [pool] ∧ plan.Watching watch last done pool
  | .closing (.ok ()) | .over (.ok ()) =>
    List.Forall₂ plan.Finished [plan.firstPhase, plan.secondPhase] pools
  | .closing (.error _) | .over (.error _) => True

/-! ## Pools behind the phase under way -/

section Finished
variable {plan : Plan} {phase : Phase} {pool next : Pool} {label : Pool.Label}

theorem Plan.Finished.idle (finished : plan.Finished phase pool)
    (work : Run.isWork label = true) : pool.step label ≠ some next := by
  apply Pool.idle _ finished.closed work
  exact finished.ledger.all_gone finished.closed finished.listening

theorem Plan.exists_finished {phases : List Phase} {done : List Pool}
    (finished : List.Forall₂ plan.Finished phases done) (member : pool ∈ done) :
    ∃ phase, plan.Finished phase pool := by
  obtain ⟨place, bound, rfl⟩ := List.mem_iff_getElem.mp member
  have paired := List.forall₂_iff_get.mp finished
  exact ⟨_, paired.2 place (paired.1 ▸ bound) bound⟩

end Finished

namespace Site

variable {plan : Plan} {phases : List Phase} {site next : Site} {done : List Pool} {pool : Pool}
  {index : Nat} {label : Pool.Label}

theorem idle (finished : List.Forall₂ plan.Finished phases site.pools)
    (work : Run.isWork label = true) : site.step index label ≠ some next := by
  intro stepped
  obtain ⟨pool, after, found, moved, -⟩ := step_inv stepped
  obtain ⟨phase, ended⟩ := plan.exists_finished finished (List.mem_of_getElem? found)
  exact ended.idle work moved

theorem step_latest (pools : site.pools = done ++ [pool])
    (stepped : site.step done.length label = some next) :
    ∃ after, pool.step label = some after ∧ next.pools = done ++ [after] := by
  obtain ⟨found, after, same, moved, rfl⟩ := step_inv stepped
  rw [pools, List.getElem?_concat_length] at same
  cases same
  refine ⟨after, moved, ?_⟩
  rw [pools, List.set_append_right _ _ (Nat.le_refl _), Nat.sub_self, List.set_cons_zero]

-- Where the phases behind have ended well, work is done in the latest pool.
theorem work_latest (pools : site.pools = done ++ [pool])
    (finished : List.Forall₂ plan.Finished phases done) (work : Run.isWork label = true)
    (stepped : site.step index label = some next) : index = done.length := by
  obtain ⟨found, after, same, moved, -⟩ := step_inv stepped
  rcases Nat.lt_or_ge index done.length with early | late
  · -- an earlier pool is idle
    rw [pools, List.getElem?_append_left early] at same
    obtain ⟨phase, ended⟩ := plan.exists_finished finished (List.mem_of_getElem? same)
    exact absurd moved (ended.idle work)
  · obtain ⟨bound, -⟩ := List.getElem?_eq_some_iff.mp same
    rw [pools, List.length_append, List.length_singleton] at bound
    omega

end Site

/-! ## The pool of the phase under way -/

section Watching
variable {plan : Plan} {watch : Watch} {last : Bool} {done : List Pool} {pool after : Pool}
  {label : Pool.Label}

theorem Watch.Sees.work (sees : watch.Sees pool) (work : Run.isWork label = true)
    (moved : pool.step label = some after) : watch.Sees after := by
  obtain ⟨failed, timedOut, listening⟩ := sees
  cases Pool.move_of_step moved with
  | receive | cancel | drop => cases work
  | _ => exact ⟨failed, timedOut, listening⟩

theorem Watch.Sees.receive {job : Job} {rest : List Job} (sees : watch.Sees pool)
    (waiting : pool.channel = job :: rest) (moved : pool.step .receive = some after) :
    (watch.noting job.component).Sees after := by
  cases Pool.move_of_step moved with
  | receive listening front =>
    cases waiting.symm.trans front
    refine ⟨?_, (Watch.noting_timedOut _ _).trans sees.timedOut, listening⟩
    rw [List.countP_append, ← sees.failed, Watch.noting]
    by_cases error : job.component.status = .error
    · simp [error]
    · simp [error]

theorem Watch.Sees.cancel (sees : watch.Sees pool) (moved : pool.step .cancel = some after) :
    watch.overdue.Sees after := by
  cases Pool.move_of_step moved with
  | cancel => exact ⟨sees.failed, rfl, sees.listening⟩

theorem Plan.Watching.step {later : Watch} (watching : plan.Watching watch last done pool)
    (moved : pool.step label = some after) (same : later.phase = watch.phase)
    (sees : later.Sees after) : plan.Watching later last done after where
  finished := watching.finished
  phase := same.trans watching.phase
  ledger := watching.ledger.keep moved
  sees := sees

theorem Plan.Watching.finished_all (watching : plan.Watching watch last done pool)
    (finished : plan.Finished (plan.phase last) pool) :
    List.Forall₂ plan.Finished (plan.before last ++ [plan.phase last]) (done ++ [pool]) :=
  List.rel_append watching.finished (.cons finished .nil)

end Watching

/-! ## Every step keeps what the stage says -/

namespace Run

variable {run next : Run} {label : Label}

theorem current_eq {done : List Pool} {pool : Pool} (pools : run.site.pools = done ++ [pool]) :
    run.current = done.length := by
  rw [current, pools, List.length_append, List.length_singleton, Nat.add_sub_cancel]

theorem found_of_pools {done : List Pool} {pool : Pool} (pools : run.site.pools = done ++ [pool]) :
    run.site.pools[run.current]? = some pool := by
  rw [current_eq pools, pools, List.getElem?_concat_length]

theorem found_latest {done : List Pool} {pool found : Pool}
    (pools : run.site.pools = done ++ [pool]) (here : run.site.pools[run.current]? = some found) :
    found = pool := by
  rw [found_of_pools pools] at here
  exact (Option.some.inj here).symm

@[simp] theorem tell_plan (run : Run) (updates : List Update) :
    (run.tell updates).plan = run.plan := rfl
@[simp] theorem tell_site (run : Run) (updates : List Update) :
    (run.tell updates).site = run.site := rfl
@[simp] theorem close_plan (run : Run) (result : Except RunError Unit) :
    (run.close result).plan = run.plan := rfl
@[simp] theorem close_site (run : Run) (result : Except RunError Unit) :
    (run.close result).site = run.site := rfl
@[simp] theorem close_stage (run : Run) (result : Except RunError Unit) :
    (run.close result).stage = .closing result := rfl

@[simp] theorem afterPhase_plan (run : Run) (phase : Phase) (last : Bool)
    (outcome : Watch.Outcome) : (run.afterPhase phase last outcome).plan = run.plan := by
  rcases outcome with _ | failure <;> cases last <;> rfl

@[simp] theorem afterPhase_site (run : Run) (phase : Phase) (last : Bool)
    (outcome : Watch.Outcome) : (run.afterPhase phase last outcome).site = run.site := by
  rcases outcome with _ | failure <;> cases last <;> rfl

theorem plan_step (stepped : run.step label = some next) : next.plan = run.plan := by
  cases move_of_step stepped with
  | seeEnd => simp
  | _ => rfl

def Staged (run : Run) : Prop :=
  run.plan.Staged run.stage run.site.pools

theorem staged_start (plan : Plan) (source : OverridesSource) (directory : Directory)
    (observed : Bool) : (start plan source directory observed).Staged :=
  ⟨rfl, .nil⟩

theorem staged_opened {plan : Plan} {phase : Phase} {last : Bool} {pools : List Pool}
    (staged : plan.Staged (.ready phase last) pools) :
    plan.Staged (.watching { phase := phase } false last) (pools ++
      [Pool.start phase.action (plan.workers phase) (plan.components phase)]) := by
  obtain ⟨rfl, finished⟩ := staged
  refine ⟨pools, _, rfl, finished, rfl, Pool.ledger_start _ _ _, ?_⟩
  rw [Pool.start_eq]
  exact ⟨rfl, rfl, rfl⟩

-- A watcher that finds the channel closed and nothing amiss has seen its phase end well.
theorem finished_of_verdict {plan : Plan} {watch : Watch} {last : Bool} {done : List Pool}
    {pool : Pool} (watching : plan.Watching watch last done pool) (drained : pool.channel = [])
    (closed : pool.closed = true) (well : watch.verdict = none) :
    plan.Finished (plan.phase last) pool := by
  rw [Watch.verdict] at well
  split at well
  · cases well
  · split at well
    · cases well
    · rename_i none inTime
      have errors : pool.received.countP (·.component.status == .error) = 0 := by
        rw [← watching.sees.failed]
        omega
      exact {
        ledger := watching.ledger
        closed := closed
        drained := drained
        listening := watching.sees.listening
        running := by
          rw [← watching.sees.timedOut]
          simpa using inTime
        clean := by simpa using List.countP_eq_zero.mp errors }

theorem staged_work {plan : Plan} {stage : Stage} {site next : Site} {index : Nat}
    {label : Pool.Label} (staged : plan.Staged stage site.pools) (work : isWork label = true)
    (moved : site.step index label = some next) : plan.Staged stage next.pools := by
  rcases stage with ⟨phase, last⟩ | ⟨watch, idle, last⟩ | (_ | _) | (_ | _)
  -- before a phase and behind a good end all pools are idle
  · exact absurd moved (Site.idle staged.2 work)
  · obtain ⟨done, pool, pools, watching⟩ := staged
    cases Site.work_latest pools watching.finished work moved
    obtain ⟨after, moved, same⟩ := Site.step_latest pools moved
    exact ⟨done, after, same, watching.step moved rfl (watching.sees.work work moved)⟩
  · trivial
  · exact absurd moved (Site.idle staged work)
  · trivial
  · exact absurd moved (Site.idle staged work)

theorem staged_ended {plan : Plan} {watch : Watch} {last : Bool} {done : List Pool} {pool : Pool}
    (watching : plan.Watching watch last done pool) (drained : pool.channel = [])
    (closed : pool.closed = true) (run : Run) (same : run.plan = plan)
    (pools : run.site.pools = done ++ [pool]) :
    (run.afterPhase watch.phase last watch.verdict).Staged := by
  subst same
  cases outcome : watch.verdict with
  | some failure => trivial
  | none =>
    have finished := watching.finished_all (finished_of_verdict watching drained closed outcome)
    rw [← pools] at finished
    cases last with
    | false => exact ⟨rfl, finished⟩
    | true => exact finished

theorem Staged.keep (staged : run.Staged) (stepped : run.step label = some next) :
    next.Staged := by
  cases move_of_step stepped with
  | opened ready opened =>
    rw [Staged, ready] at staged
    obtain ⟨source, rfl, -⟩ := Site.openPool_inv opened
    exact staged_opened staged
  | refused => trivial
  | work work moved => exact staged_work staged work moved
  | receive watching found waiting moved =>
    rw [Staged, watching] at staged
    obtain ⟨done, pool, pools, watching⟩ := staged
    cases found_latest pools found
    rw [current_eq pools] at moved
    obtain ⟨after, moved, same⟩ := Site.step_latest pools moved
    exact ⟨done, after, same,
      watching.step moved (Watch.noting_phase _ _) (watching.sees.receive waiting moved)⟩
  | seeEnd watching found drained closed =>
    rw [Staged, watching] at staged
    obtain ⟨done, pool, pools, watching⟩ := staged
    cases found_latest pools found
    exact staged_ended watching drained closed (run.tell _) rfl pools
  | pass watching | wake watching => rwa [Staged, watching] at staged
  | cancelDeadline watching early moved =>
    rw [Staged, watching] at staged
    obtain ⟨done, pool, pools, watching⟩ := staged
    rw [current_eq pools] at moved
    obtain ⟨after, moved, same⟩ := Site.step_latest pools moved
    exact ⟨done, after, same, watching.step moved rfl (watching.sees.cancel moved)⟩
  | quitDeadline => trivial
  | deliver | edit => exact staged
  | @conclude result closing =>
    rw [Staged, closing] at staged
    cases result <;> exact staged

theorem staged_of_reaches {guard : Run → Label → Bool} {plan : Plan} {source : OverridesSource}
    {directory : Directory} {observed : Bool}
    (reached : Reaches step guard (start plan source directory observed) run) : run.Staged :=
  reached.invariant Staged (staged_start plan source directory observed) fun staged _ stepped =>
    staged.keep stepped

end Run

end Rollout
