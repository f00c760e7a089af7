import Rollout.Proofs.Timed.Quiet

/-! The deadlines of a run are those of both its phases: no helm call begins behind the first,
and the run does not go on behind the second. -/

set_option autoImplicit false

namespace Rollout

/-- An instant is in the time for a run, and in that for a good end where `prompt` holds. -/
structure Plan.InTime (plan : Plan) (instant : Nat) (prompt : Prop) : Prop where
  quit : instant ≤ plan.settings.quitTimeout.nanos
  cancel : prompt → instant ≤ plan.settings.cancelTimeout.nanos

namespace Pool

structure Halted (pool : Pool) : Prop where
  stopped : pool.cancelled = true ∨ ∀ worker ∈ pool.workers, worker = .gone
  idle : pool.queue = [] ∨ .taking ∉ pool.workers

variable {pool next : Pool} {label : Label} {i : Nat}

theorem Halted.become (halted : pool.Halted) {worker : Worker}
    (found : pool.workers[i]? = some worker) (there : worker ≠ .gone) {other : Worker}
    (leaving : other ≠ .taking) : (pool.become i other).Halted where
  stopped := halted.stopped.imp_right fun gone =>
    absurd (gone worker (mem_of_found found)) there
  idle := halted.idle.imp_right fun none member => by
    rcases mem_become member with before | rfl
    · exact none before
    · exact leaving rfl

theorem Halted.step (halted : pool.Halted) (stepped : pool.step label = some next) :
    next.Halted ∧ next.taken = pool.taken := by
  cases move_of_step stepped with
  | leaveCancelled found | leaveEmpty found =>
    exact ⟨halted.become found (by simp) (by simp), rfl⟩
  | goOn found running =>
    rcases halted.stopped with cancelled | gone
    · rw [running] at cancelled
      cases cancelled
    · cases gone _ (mem_of_found found)
  | take found waiting =>
    rcases halted.idle with empty | none
    · rw [waiting] at empty
      cases empty
    · exact absurd (mem_of_found found) none
  | @finish i job succeeded found =>
    obtain ⟨stopped, idle⟩ := halted.become found (by simp)
      (Worker.noConfusion : Worker.sending (settle pool.action job succeeded) ≠ .taking)
    exact ⟨⟨stopped, idle⟩, rfl⟩
  | lose found =>
    obtain ⟨stopped, idle⟩ := halted.become found (by simp) (by simp : Worker.gone ≠ .taking)
    exact ⟨⟨stopped, idle⟩, rfl⟩
  | send found =>
    obtain ⟨stopped, idle⟩ := halted.become found (by simp) (by simp : Worker.checking ≠ .taking)
    exact ⟨⟨stopped, idle⟩, rfl⟩
  | close | receive | drop => exact ⟨⟨halted.stopped, halted.idle⟩, rfl⟩
  | cancel => exact ⟨⟨.inl rfl, halted.idle⟩, rfl⟩

end Pool

namespace Timed

def OnTime (timed : Timed) : Prop :=
  match timed.run.stage with
  | .ready _ _ => timed.run.plan.InTime timed.now True
  | .watching watch _ _ =>
    timed.cancelAt = timed.run.plan.settings.cancelTimeout.nanos ∧
      timed.quitAt = timed.run.plan.settings.quitTimeout.nanos ∧
      timed.run.plan.InTime timed.now (watch.timedOut = false)
  | .closing result => timed.run.plan.InTime timed.now (result = .ok ())
  | .over result =>
    ∃ instant, timed.returnedAt = some instant ∧ timed.run.plan.InTime instant (result = .ok ())

variable {timing : Timing} {timed next : Timed} {label : Label}

theorem onTime_start (plan : Plan) (source : OverridesSource) (directory : Directory)
    (observed : Bool) : (start plan source directory observed).OnTime :=
  ⟨Nat.zero_le _, fun _ => Nat.zero_le _⟩

theorem onTime_ended {watch : Watch} {last : Bool} (run : Run)
    (inTime : run.plan.InTime timed.now (watch.timedOut = false)) :
    (timed.after .seeEnd (run.afterPhase watch.phase last watch.verdict)).OnTime := by
  cases outcome : watch.verdict with
  | some failure => exact ⟨inTime.quit, fun same => nomatch same⟩
  | none =>
    have prompt : watch.timedOut = false := by
      rw [Watch.verdict] at outcome
      split at outcome
      · cases outcome
      · split at outcome
        · cases outcome
        · simpa using ‹¬ watch.timedOut = true›
    cases last with
    | false => exact ⟨inTime.quit, fun _ => inTime.cancel prompt⟩
    | true => exact ⟨inTime.quit, fun _ => inTime.cancel prompt⟩

theorem OnTime.act {label : Run.Label} {next : Run} (onTime : timed.OnTime)
    (stepped : timed.run.step label = some next) : (timed.after label next).OnTime := by
  rw [OnTime] at onTime
  cases Run.move_of_step stepped with
  | opened ready =>
    rw [ready] at onTime
    have cancel := onTime.cancel trivial
    have quit := onTime.quit
    exact ⟨Nat.add_sub_of_le cancel, Nat.add_sub_of_le quit, quit, fun _ => cancel⟩
  | refused ready =>
    rw [ready] at onTime
    exact ⟨onTime.quit, fun same => nomatch same⟩
  | work | deliver | edit => exact onTime
  | receive watching =>
    rw [watching] at onTime
    obtain ⟨cancelAt, quitAt, inTime⟩ := onTime
    refine ⟨cancelAt, quitAt, ?_⟩
    rw [Watch.noting_timedOut]
    exact inTime
  | seeEnd watching =>
    rw [watching] at onTime
    exact onTime_ended (timed.run.tell _) onTime.2.2
  | pass watching | wake watching =>
    rw [watching] at onTime
    exact onTime
  | cancelDeadline watching =>
    rw [watching] at onTime
    obtain ⟨cancelAt, quitAt, inTime⟩ := onTime
    exact ⟨cancelAt, quitAt, inTime.quit, fun same => nomatch same⟩
  | quitDeadline watching =>
    rw [watching] at onTime
    exact ⟨onTime.2.2.quit, fun same => nomatch same⟩
  | conclude closing =>
    rw [closing] at onTime
    exact ⟨timed.now, rfl, onTime⟩

theorem OnTime.tick (onTime : timed.OnTime) (staged : timed.run.Staged)
    (attended : timed.run.Attended) (quiet : timed.isQuiet timing = true) :
    ({ timed with now := timed.now + 1 } : Timed).OnTime := by
  rcases stage_of_quiet staged attended quiet with ⟨watch, last, watching⟩ | ⟨result, atEnd⟩
  · rw [OnTime, watching] at onTime
    rw [Run.Staged, watching] at staged
    obtain ⟨cancelAt, quitAt, -⟩ := onTime
    obtain ⟨done, pool, pools, watched⟩ := staged
    have waits := waits_of_quiet pools watched.sees.listening watching quiet
    simp only [OnTime, watching]
    refine ⟨cancelAt, quitAt, quitAt ▸ waits.going, fun prompt => cancelAt ▸ waits.early prompt⟩
  · rw [OnTime, atEnd] at onTime
    simpa only [OnTime, atEnd] using onTime

/-- Where nothing can happen behind the first deadline, no worker will take another job. -/
theorem halted_of_quiet (onTime : timed.OnTime) (staged : timed.run.Staged)
    (settled : timed.run.Settled) (attended : timed.run.Attended)
    (quiet : timed.isQuiet timing = true)
    (late : timed.run.plan.settings.cancelTimeout.nanos ≤ timed.now) :
    ∀ pool ∈ timed.run.site.pools, pool.Halted := by
  intro pool member
  have idle : Worker.taking ∉ pool.workers := by
    obtain ⟨index, found⟩ := List.mem_iff_getElem?.mp member
    exact fun taking => (worker_of_quiet quiet found taking).2.1 rfl
  refine ⟨?_, .inr idle⟩
  rcases stage_of_quiet staged attended quiet with ⟨watch, last, watching⟩ | ⟨result, atEnd⟩
  · rw [OnTime, watching] at onTime
    rw [Run.Staged, watching] at staged
    obtain ⟨cancelAt, quitAt, -⟩ := onTime
    obtain ⟨done, latest, pools, watched⟩ := staged
    have waits := waits_of_quiet pools watched.sees.listening watching quiet
    rw [pools] at member
    rcases List.mem_append.mp member with before | here
    · obtain ⟨phase, ended⟩ := timed.run.plan.exists_finished watched.finished before
      exact .inr ended.judged.all_gone
    · rw [List.mem_singleton.mp here, ← watched.sees.timedOut]
      left
      by_contra inTime
      have early := waits.early (by simpa using inTime)
      omega
  · obtain ⟨index, found⟩ := List.mem_iff_getElem?.mp member
    have ended : timed.run.stage.result? = some result := by rw [atEnd, Stage.result?]
    rcases Run.judged_of_result staged settled ended found with
      ⟨phase, outcome, judged⟩ | ⟨phase, -, givenUp, -⟩
    · exact .inr judged.all_gone
    · exact .inl givenUp.cancelled

structure Punctual (timed : Timed) : Prop where
  attended : timed.run.Attended
  onTime : timed.OnTime
  halted : timed.run.plan.settings.cancelTimeout.nanos < timed.now →
    ∀ pool ∈ timed.run.site.pools, pool.Halted
  early : ∀ call ∈ timed.run.site.calls,
    timed.since call.pool call.job.position ≤ timed.run.plan.settings.cancelTimeout.nanos

theorem punctual_start (plan : Plan) (source : OverridesSource) (directory : Directory)
    (observed : Bool) : (start plan source directory observed).Punctual where
  attended := Run.attended_start plan source directory observed
  onTime := onTime_start plan source directory observed
  halted _ _ member := nomatch member
  early _ member := nomatch member

theorem Punctual.halted_act {label : Run.Label} {next : Run} (punctual : timed.Punctual)
    (staged : timed.run.Staged) (stepped : timed.run.step label = some next)
    (late : timed.run.plan.settings.cancelTimeout.nanos < timed.now) :
    ∀ pool ∈ next.site.pools, pool.Halted := by
  intro pool member
  obtain ⟨index, found⟩ := List.mem_iff_getElem?.mp member
  rcases Run.pools_step staged stepped found with
    ⟨old, there, onward⟩ | ⟨phase, last, ready, -, -⟩
  · exact onward.invariant Pool.Halted (punctual.halted late old (List.mem_of_getElem? there))
      fun halted _ moved => (halted.step moved).1
  · -- no phase begins so late
    have onTime := punctual.onTime
    rw [OnTime, ready] at onTime
    exact absurd (onTime.cancel trivial) (Nat.not_le.mpr late)

theorem Punctual.early_act {label : Run.Label} {next : Run} (punctual : timed.Punctual)
    (stepped : timed.run.step label = some next) :
    ∀ call ∈ next.site.calls, (timed.after label next).since call.pool call.job.position ≤
      timed.run.plan.settings.cancelTimeout.nanos := by
  rcases since_step stepped with ⟨calls, since⟩ | ⟨call, calls, since⟩
  · rw [calls, since]
    exact punctual.early
  · have now : timed.now ≤ timed.run.plan.settings.cancelTimeout.nanos := by
      by_contra late
      have halted := punctual.halted (Nat.not_le.mp late)
      rcases Run.calls_step stepped with
        same | ⟨index, i, pool, job, rest, -, found, taking, waiting, -⟩
      · simp [same] at calls
      · rcases (halted pool (List.mem_of_getElem? found)).idle with empty | none
        · rw [waiting] at empty
          cases empty
        · exact none (Pool.mem_of_found taking)
    rw [calls]
    intro other member
    rw [since]
    split
    · exact now
    · rename_i different
      rcases List.mem_append.mp member with before | new
      · exact punctual.early other before
      · rw [List.mem_singleton.mp new] at different
        exact absurd ⟨rfl, rfl⟩ different

theorem Punctual.keep (punctual : timed.Punctual) (staged : timed.run.Staged)
    (settled : timed.run.Settled) (stepped : timed.step timing label = some next) :
    next.Punctual := by
  cases move_of_step stepped with
  | @act label next allowed moved =>
    have same := Run.plan_step moved
    constructor
    · rw [after_run]
      exact punctual.attended.keep moved
    · exact punctual.onTime.act moved
    · rw [after_run, after_now, same]
      exact punctual.halted_act staged moved
    · rw [after_run, same]
      exact punctual.early_act moved
  | tick quiet =>
    have attended := punctual.attended
    have halted (late : timed.run.plan.settings.cancelTimeout.nanos < timed.now + 1) :=
      halted_of_quiet punctual.onTime staged settled attended quiet (Nat.le_of_lt_succ late)
    exact ⟨attended, punctual.onTime.tick staged attended quiet, halted, punctual.early⟩

end Timed

end Rollout
