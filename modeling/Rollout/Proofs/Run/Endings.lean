import Rollout.Proofs.Run.Stages

/-! How a run fails: the phase that failed, how it did, and what it left of its pool. The
phases before it ended well. -/

set_option autoImplicit false

namespace Rollout

/-- What the statuses received from a pool and its cancel signal say of its phase. -/
def Pool.verdict (pool : Pool) : Watch.Outcome :=
  let failed := pool.received.countP (·.component.status == .error)
  if 0 < failed then some (.execution failed)
  else if pool.cancelled then some .timeout
  else none

theorem Watch.Sees.verdict {watch : Watch} {pool : Pool} (sees : watch.Sees pool) :
    watch.verdict = pool.verdict := by
  rw [Watch.verdict, Pool.verdict, sees.failed, sees.timedOut]

/-- The watcher has seen the end of the channel of a pool. -/
structure Plan.Judged (plan : Plan) (phase : Phase) (outcome : Watch.Outcome) (pool : Pool) :
    Prop where
  ledger : plan.Ledger phase pool
  closed : pool.closed = true
  drained : pool.channel = []
  listening : pool.receiverGone = false
  verdict : pool.verdict = outcome

/-- The watcher has gone away, and workers may still be there. -/
structure Plan.GivenUp (plan : Plan) (phase : Phase) (pool : Pool) : Prop where
  ledger : plan.Ledger phase pool
  cancelled : pool.cancelled = true
  dropped : pool.receiverGone = true

inductive Plan.Failed (plan : Plan) : RunError → List Pool → Prop where
  | notStarted {last : Bool} {done : List Pool} {error : StartError} :
      List.Forall₂ plan.Finished (plan.before last) done →
      Failed plan ⟨plan.phase last, .notStarted error⟩ done
  | judged {last : Bool} {done : List Pool} {pool : Pool} {failure : PhaseFailure} :
      List.Forall₂ plan.Finished (plan.before last) done →
      plan.Judged (plan.phase last) (some failure) pool →
      Failed plan ⟨plan.phase last, failure⟩ (done ++ [pool])
  | givenUp {last : Bool} {done : List Pool} {pool : Pool} :
      List.Forall₂ plan.Finished (plan.before last) done →
      plan.GivenUp (plan.phase last) pool →
      Failed plan ⟨plan.phase last, .forceQuit⟩ (done ++ [pool])

def Stage.result? : Stage → Option (Except RunError Unit)
  | .closing result | .over result => some result
  | .ready _ _ | .watching _ _ _ => none

section
variable {plan : Plan} {phase : Phase} {outcome : Watch.Outcome} {pool next : Pool}
  {label : Pool.Label}

theorem Plan.Finished.judged (finished : plan.Finished phase pool) :
    plan.Judged phase none pool where
  ledger := finished.ledger
  closed := finished.closed
  drained := finished.drained
  listening := finished.listening
  verdict := by
    have none : pool.received.countP (·.component.status == .error) = 0 :=
      List.countP_eq_zero.mpr fun job member => by simpa using finished.clean job member
    simp [Pool.verdict, none, finished.running]

theorem Plan.Judged.all_gone (judged : plan.Judged phase outcome pool) :
    ∀ worker ∈ pool.workers, worker = .gone :=
  judged.ledger.all_gone judged.closed judged.listening

theorem Plan.Judged.idle (judged : plan.Judged phase outcome pool)
    (work : Run.isWork label = true) : pool.step label ≠ some next :=
  Pool.idle judged.all_gone judged.closed work

theorem Plan.GivenUp.work (givenUp : plan.GivenUp phase pool) (work : Run.isWork label = true)
    (moved : pool.step label = some next) : plan.GivenUp phase next := by
  have ledger := givenUp.ledger.keep moved
  cases Pool.move_of_step moved with
  | receive | cancel | drop => cases work
  | _ => exact ⟨ledger, givenUp.cancelled, givenUp.dropped⟩

-- Only the pool of a phase that was given up can go on.
theorem Plan.Failed.work {error : RunError} {site after : Site} {index : Nat}
    (failed : plan.Failed error site.pools) (work : Run.isWork label = true)
    (moved : site.step index label = some after) : plan.Failed error after.pools := by
  generalize same : site.pools = pools at failed
  cases failed with
  | notStarted finished =>
    rw [← same] at finished
    exact absurd moved (Site.idle finished work)
  | judged finished judged =>
    cases Site.work_latest same finished work moved
    obtain ⟨next, stepped, -⟩ := Site.step_latest same moved
    exact absurd stepped (judged.idle work)
  | givenUp finished givenUp =>
    cases Site.work_latest same finished work moved
    obtain ⟨next, stepped, pools⟩ := Site.step_latest same moved
    rw [pools]
    exact .givenUp finished (givenUp.work work stepped)

end

namespace Run

variable {run next : Run} {label : Label}

def Settled (run : Run) : Prop :=
  ∀ error, run.stage.result? = some (.error error) → run.plan.Failed error run.site.pools

theorem settled_refused {phase : Phase} {last : Bool} (staged : run.Staged)
    (ready : run.stage = .ready phase last) (error : StartError) :
    run.plan.Failed ⟨phase, .notStarted error⟩ run.site.pools := by
  rw [Staged, ready] at staged
  obtain ⟨rfl, finished⟩ := staged
  exact .notStarted finished

theorem settled_ended {watch : Watch} {last : Bool} {pool : Pool} {failure : PhaseFailure}
    (staged : run.Staged) (watching : run.stage = .watching watch false last)
    (found : run.site.pools[run.current]? = some pool) (drained : pool.channel = [])
    (closed : pool.closed = true) (verdict : watch.verdict = some failure) :
    run.plan.Failed ⟨watch.phase, failure⟩ run.site.pools := by
  rw [Staged, watching] at staged
  obtain ⟨done, latest, pools, watched⟩ := staged
  cases found_latest pools found
  rw [pools, watched.phase]
  exact .judged watched.finished {
    ledger := watched.ledger
    closed := closed
    drained := drained
    listening := watched.sees.listening
    verdict := watched.sees.verdict.symm.trans verdict }

theorem settled_quit {watch : Watch} {last : Bool} {middle site : Site} (staged : run.Staged)
    (watching : run.stage = .watching watch true last)
    (first : run.site.step run.current .cancel = some middle)
    (second : middle.step (middle.pools.length - 1) .drop = some site) :
    run.plan.Failed ⟨watch.phase, .forceQuit⟩ site.pools := by
  rw [Staged, watching] at staged
  obtain ⟨done, pool, pools, watched⟩ := staged
  rw [current_eq pools] at first
  obtain ⟨cancelled, moved, same⟩ := Site.step_latest pools first
  rw [same, List.length_append, List.length_singleton, Nat.add_sub_cancel] at second
  obtain ⟨dropped, left, final⟩ := Site.step_latest same second
  have ledger := (watched.ledger.keep moved).keep left
  rw [final, watched.phase]
  cases Pool.move_of_step moved with
  | cancel =>
    cases Pool.move_of_step left with
    | drop => exact .givenUp watched.finished ⟨ledger, rfl, rfl⟩

theorem Settled.keep (settled : run.Settled) (staged : run.Staged)
    (stepped : run.step label = some next) : next.Settled := by
  intro error failed
  cases move_of_step stepped with
  | opened | receive | pass | wake | cancelDeadline => cases failed
  | refused ready refused =>
    cases failed
    exact settled_refused staged ready _
  | work work moved => exact (settled error failed).work work moved
  | @seeEnd watch last pool watching found drained closed =>
    cases verdict : watch.verdict with
    | none =>
      rw [verdict] at failed
      cases last <;> cases failed
    | some failure =>
      rw [verdict] at failed
      cases failed
      have ended := settled_ended staged watching found drained closed verdict
      exact ended
  | quitDeadline watching first second =>
    cases failed
    have left := settled_quit staged watching first second
    exact left
  | deliver | edit => exact settled error failed
  | conclude closing =>
    refine settled error ?_
    rw [closing]
    exact failed

theorem settled_of_reaches {guard : Run → Label → Bool} {plan : Plan} {source : OverridesSource}
    {directory : Directory} {observed : Bool}
    (reached : Reaches step guard (start plan source directory observed) run) : run.Settled := by
  have both := reached.invariant (fun run => run.Staged ∧ run.Settled)
    ⟨staged_start plan source directory observed, fun error failed => nomatch failed⟩
    fun kept _ stepped => ⟨kept.1.keep stepped, kept.2.keep kept.1 stepped⟩
  exact both.2

/-- When the phases are over every pool has been seen to its end, save that of a phase that was
given up. -/
theorem judged_of_result {result : Except RunError Unit} {index : Nat} {pool : Pool}
    (staged : run.Staged) (settled : run.Settled) (ended : run.stage.result? = some result)
    (found : run.site.pools[index]? = some pool) :
    (∃ phase outcome, run.plan.Judged phase outcome pool) ∨
      ∃ phase, result = .error ⟨phase, .forceQuit⟩ ∧ run.plan.GivenUp phase pool ∧
        index + 1 = run.site.pools.length := by
  have early {phases : List Phase} {done : List Pool}
      (finished : List.Forall₂ run.plan.Finished phases done) (here : done[index]? = some pool) :
      ∃ phase outcome, run.plan.Judged phase outcome pool := by
    obtain ⟨phase, ended⟩ := run.plan.exists_finished finished (List.mem_of_getElem? here)
    exact ⟨phase, none, ended.judged⟩
  cases result with
  | ok =>
    have finished : List.Forall₂ run.plan.Finished [run.plan.firstPhase, run.plan.secondPhase]
        run.site.pools := by
      rw [Staged] at staged
      cases stage : run.stage with
      | ready | watching =>
        rw [stage] at ended
        cases ended
      | _ =>
        rw [stage] at ended staged
        cases ended
        exact staged
    exact .inl (early finished found)
  | error error =>
    have failed := settled error ended
    generalize run.site.pools = pools at failed found
    cases failed with
    | notStarted finished => exact .inl (early finished found)
    | @judged last done latest failure finished judged =>
      rcases List.mem_append.mp (List.mem_of_getElem? found) with before | latest
      · obtain ⟨phase, ended⟩ := run.plan.exists_finished finished before
        exact .inl ⟨phase, none, ended.judged⟩
      · rw [List.mem_singleton.mp latest]
        exact .inl ⟨_, _, judged⟩
    | @givenUp last done latest finished givenUp =>
      rcases Nat.lt_or_ge index done.length with before | behind
      · rw [List.getElem?_append_left before] at found
        exact .inl (early finished found)
      · rw [List.getElem?_append_right behind, List.getElem?_singleton] at found
        split at found <;> cases found
        refine .inr ⟨_, rfl, givenUp, ?_⟩
        rw [List.length_append, List.length_singleton]
        omega

end Run

end Rollout
