import Rollout.Proofs.Pool.Blind
import Rollout.Proofs.Run.Order

/-! Calls that fail. Every one of them is counted, by the time that its phase ends and whatever
else happens there, and none keeps another call from being made. -/

set_option autoImplicit false

namespace Rollout

/-! ## Calls that fail, in a pool and in a run -/

namespace Pool

def failures (pool : Pool) : Nat :=
  pool.ended.countP (·.component.status == .error)

def Label.fails : Label → Bool
  | .finish _ succeeded => !succeeded
  | _ => false

variable {pool next : Pool} {label : Label}

theorem settle_error (action : Action) (job : Job) (succeeded : Bool) :
    ((settle action job succeeded).component.status == .error) = !succeeded := by
  cases succeeded <;> cases action <;> rfl

theorem failures_step (stepped : pool.step label = some next) :
    next.failures = pool.failures + label.fails.toNat := by
  cases move_of_step stepped with
  | finish =>
    rw [failures, List.countP_append, List.countP_singleton, settle_error, failures, Label.fails]
    split <;> simp_all
  | _ => rfl

theorem cancelled_step (stepped : pool.step label = some next) :
    next.cancelled = pool.cancelled ∨ label = .cancel := by
  cases move_of_step stepped with
  | cancel => exact .inr rfl
  | _ => exact .inl rfl

end Pool

def Site.failures (site : Site) (index : Nat) : Nat :=
  site.pools[index]?.elim 0 Pool.failures

def Run.Label.fails (index : Nat) : Run.Label → Bool
  | .work place label => place == index && label.fails
  | _ => false

namespace Site

variable {site next : Site} {index place : Nat} {label : Pool.Label}

theorem failures_step (stepped : site.step place label = some next) (index : Nat) :
    next.failures index = site.failures index + (place == index && label.fails).toNat := by
  obtain ⟨pool, after, found, moved, rfl⟩ := step_inv stepped
  have bound := (List.getElem?_eq_some_iff.mp found).1
  by_cases same : place = index
  · subst same
    rw [failures, failures, List.getElem?_set_self bound, found]
    simpa using Pool.failures_step moved
  · simp [failures, same]

theorem failures_still (stepped : site.step place label = some next)
    (other : Run.isWork label = false) (index : Nat) : next.failures index = site.failures index := by
  rw [failures_step stepped]
  cases label with
  | receive | cancel | drop => simp [Pool.Label.fails]
  | check | take | finish | send | close => cases other

theorem cancelled_step {pool : Pool} (stepped : site.step place label = some next)
    (found : next.pools[index]? = some pool) (cancelled : pool.cancelled = true) :
    (∃ old, site.pools[index]? = some old ∧ old.cancelled = true) ∨
      place = index ∧ label = .cancel := by
  obtain ⟨old, there, rfl | ⟨here, moved⟩⟩ := found_step stepped found
  · exact .inl ⟨pool, there, cancelled⟩
  · rcases Pool.cancelled_step moved with same | given
    · exact .inl ⟨old, there, same ▸ cancelled⟩
    · exact .inr ⟨here, given⟩

theorem failures_opened (site : Site) (source : OverridesSource) (action : Action) (workers : Nat)
    (components : List Component) (index : Nat) :
    failures { site with
      source := source
      pools := site.pools ++ [Pool.start action workers components] } index =
      site.failures index := by
  rw [failures, failures, List.getElem?_append]
  split
  · rfl
  · rename_i behind
    rw [List.getElem?_eq_none (Nat.le_of_not_lt behind), List.getElem?_singleton]
    split
    · rw [Pool.start_eq]
      rfl
    · rfl

end Site

/-- How a phase ended, by the result of the run. A run that failed in its first phase has had no
second one. -/
def Plan.outcome? (plan : Plan) (last : Bool) : Except RunError Unit → Option Watch.Outcome
  | .ok () => some none
  | .error error =>
    if error.phase = plan.phase last then some (some error.failure)
    else if last then none
    else some none

structure Site.CallsEnded (site : Site) (index : Nat) (action : Action) (pool : Pool) : Prop where
  found : site.pools[index]? = some pool
  underWay : pool.underWay = 0
  ended : (pool.ended.map (Pool.settle action · true)).Perm
    ((site.calls.filter (·.pool == index)).map (Pool.settle action ·.job true))

namespace Plan.Judged

variable {plan : Plan} {phase : Phase} {outcome : Watch.Outcome} {pool : Pool}
  (judged : plan.Judged phase outcome pool)
include judged

theorem callsEnded {site : Site} {index : Nat} (logged : site.Logged)
    (found : site.pools[index]? = some pool) : site.CallsEnded index phase.action pool where
  found := found
  underWay := by
    rw [Pool.underWay_eq, (judged.ledger.no_hands judged.closed judged.listening).1]
    rfl
  ended := by
    have calls := judged.ledger.calls
    rw [(judged.ledger.no_hands judged.closed judged.listening).1, List.nil_append,
      ← logged.taken found, List.map_map] at calls
    exact calls

/-- The watcher has counted every call that failed, and no other. -/
theorem outcome_iff (failed : Nat) :
    outcome = some (.execution failed) ↔ 0 < failed ∧ failed = pool.failures := by
  have sent := judged.ledger.ended_sent judged.closed judged.listening
  rw [judged.drained, List.append_nil] at sent
  rw [← judged.verdict, Pool.verdict, ← sent.countP_eq, ← Pool.failures]
  split
  · simp only [Option.some.injEq, PhaseFailure.execution.injEq]
    omega
  · have none : ¬ (0 < failed ∧ failed = pool.failures) := by omega
    split <;> simp only [reduceCtorEq, Option.some.injEq, none]

end Plan.Judged

namespace Plan

variable {plan : Plan} {last : Bool} {outcome : Watch.Outcome}

theorem judged_behind {done rest : List Pool}
    (finished : List.Forall₂ plan.Finished (plan.before true) done) :
    ∃ pool, (done ++ rest)[0]? = some pool ∧ plan.Judged (plan.phase false) none pool := by
  obtain ⟨first, none, here, -, rfl⟩ := List.forall₂_cons_left_iff.mp finished
  exact ⟨first, rfl, here.judged⟩

theorem judged_of_ok {pools : List Pool}
    (finished : List.Forall₂ plan.Finished [plan.firstPhase, plan.secondPhase] pools)
    (last : Bool) :
    ∃ pool, pools[last.toNat]? = some pool ∧ plan.Judged (plan.phase last) none pool := by
  obtain ⟨first, rest, one, others, rfl⟩ := List.forall₂_cons_left_iff.mp finished
  obtain ⟨second, none, two, -, rfl⟩ := List.forall₂_cons_left_iff.mp others
  cases last with
  | false => exact ⟨first, rfl, one.judged⟩
  | true => exact ⟨second, rfl, two.judged⟩

-- A failure is that of one of the phases, and if that is the second one, the first ended well.
theorem judged_of_failed {error : RunError} {pools : List Pool}
    (failed : plan.Failed error pools) (ended : plan.outcome? last (.error error) = some outcome)
    (patient : outcome ≠ some .forceQuit) (began : ∀ error, outcome ≠ some (.notStarted error)) :
    ∃ pool, pools[last.toNat]? = some pool ∧ plan.Judged (plan.phase last) outcome pool := by
  rw [Plan.outcome?] at ended
  have other {second : Bool} {done rest : List Pool}
      (finished : List.Forall₂ plan.Finished (plan.before second) done)
      (differ : plan.phase second ≠ plan.phase last)
      (ended : (if last then none else some none) = some outcome) :
      ∃ pool, (done ++ rest)[last.toNat]? = some pool ∧
        plan.Judged (plan.phase last) outcome pool := by
    cases last with
    | true => cases ended
    | false =>
      cases second with
      | true =>
        cases ended
        exact judged_behind finished
      | false => exact absurd rfl differ
  cases failed with
  | @notStarted second _ error finished =>
    split at ended
    · cases ended
      exact absurd rfl (began error)
    · rw [← List.append_nil pools]
      exact other finished ‹_› ended
  | @judged second done pool failure finished judged =>
    split at ended
    · rename_i same
      cases plan.phase_injective same
      cases ended
      refine ⟨pool, ?_, judged⟩
      rw [← plan.length_before finished, List.getElem?_concat_length]
    · exact other finished ‹_› ended
  | @givenUp second done pool finished =>
    split at ended
    · cases ended
      exact absurd rfl patient
    · exact other finished ‹_› ended

end Plan

namespace Run

variable {run next : Run} {label : Label} {labels : List Label} {guard : Run → Label → Bool}
  {plan : Plan} {source : OverridesSource} {directory : Directory} {observed : Bool} {last : Bool}
  {outcome : Watch.Outcome} {pool : Pool}

theorem failures_step (stepped : run.step label = some next) (index : Nat) :
    next.site.failures index = run.site.failures index + (label.fails index).toNat := by
  cases move_of_step stepped with
  | opened _ opened =>
    obtain ⟨source, rfl, -⟩ := Site.openPool_inv opened
    exact Site.failures_opened run.site source _ _ _ index
  | work _ moved => exact Site.failures_step moved index
  | receive _ _ _ moved | cancelDeadline _ _ moved => exact Site.failures_still moved rfl index
  | quitDeadline _ first second =>
    exact (Site.failures_still second rfl index).trans (Site.failures_still first rfl index)
  | seeEnd =>
    rw [afterPhase_site]
    rfl
  | refused | pass | wake | deliver | edit | conclude => rfl

/-- As many calls of a pool have failed as there were steps in which one did. -/
theorem failures_walk (walked : walk step guard labels run = some next) (index : Nat) :
    next.site.failures index = run.site.failures index + labels.countP (Label.fails index) := by
  induction labels generalizing run with
  | nil =>
    cases walked
    rfl
  | cons label rest ih =>
    obtain ⟨middle, -, stepped, walked⟩ := walk_cons walked
    rw [ih walked, failures_step stepped, List.countP_cons, Nat.add_assoc,
      Nat.add_comm (List.countP _ _)]
    cases label.fails index <;> rfl

/-! ## How a phase ended -/

def outcome? (run : Run) (last : Bool) : Option Watch.Outcome :=
  match run.stage with
  | .ready _ second | .watching _ _ second => if second && !last then some none else none
  | .closing result | .over result => run.plan.outcome? last result

/-- A phase that did begin and was not given up has been watched to the end of its channel. -/
theorem judged_of_outcome (staged : run.Staged) (settled : run.Settled)
    (ended : run.outcome? last = some outcome) (patient : outcome ≠ some .forceQuit)
    (began : ∀ error, outcome ≠ some (.notStarted error)) :
    ∃ pool, run.site.pools[last.toNat]? = some pool ∧
      run.plan.Judged (run.plan.phase last) outcome pool := by
  rw [Staged] at staged
  rw [outcome?] at ended
  have behind {second : Bool} {done rest : List Pool}
      (finished : List.Forall₂ run.plan.Finished (run.plan.before second) done)
      (ended : (if (second && !last) = true then some none else none) = some outcome) :
      ∃ pool, (done ++ rest)[last.toNat]? = some pool ∧
        run.plan.Judged (run.plan.phase last) outcome pool := by
    cases second <;> cases last <;> cases ended
    exact Plan.judged_behind finished
  rcases stage : run.stage with ⟨phase, second⟩ | ⟨watch, idle, second⟩ |
    (error | _) | (error | _) <;> rw [stage] at staged ended
  · rw [← List.append_nil run.site.pools]
    exact behind staged.2 ended
  · obtain ⟨done, pool, pools, watching⟩ := staged
    rw [pools]
    exact behind watching.finished ended
  · exact Plan.judged_of_failed (settled error (by rw [stage]; rfl)) ended patient began
  · cases ended
    exact Plan.judged_of_ok staged last
  · exact Plan.judged_of_failed (settled error (by rw [stage]; rfl)) ended patient began
  · cases ended
    exact Plan.judged_of_ok staged last

theorem outcome_of_result {result : Except RunError Unit}
    (ended : run.stage.result? = some result) (last : Bool) :
    run.outcome? last = run.plan.outcome? last result := by
  rw [outcome?]
  cases stage : run.stage <;> rw [stage] at ended <;> cases ended <;> rfl

/-! ## Phases whose cancel timer did not fire -/

/-- The guard under which the cancel timer does not fire in a phase. -/
def inTime (last : Bool) (run : Run) : Label → Bool
  | .cancelDeadline =>
    match run.stage with
    | .watching _ _ second => second != last
    | _ => true
  | _ => true

/-- The pool of a phase has not been cancelled, unless the phase was given up. -/
def Uncancelled (last : Bool) (run : Run) : Prop :=
  ∀ pool, run.site.pools[last.toNat]? = some pool → pool.cancelled = true →
    run.stage.result? = some (.error ⟨run.plan.phase last, .forceQuit⟩)

theorem current_staged {watch : Watch} {idle second : Bool} (staged : run.Staged)
    (watching : run.stage = .watching watch idle second) :
    run.current = second.toNat ∧ watch.phase = run.plan.phase second := by
  rw [Staged, watching] at staged
  obtain ⟨done, pool, pools, watched⟩ := staged
  exact ⟨(current_eq pools).trans (run.plan.length_before watched.finished), watched.phase⟩

theorem Uncancelled.keep (uncancelled : run.Uncancelled last) (staged : run.Staged)
    (counted : inTime last run label = true) (stepped : run.step label = some next) :
    next.Uncancelled last := by
  intro pool found cancelled
  have early (going : run.stage.result? = none) {old : Pool}
      (there : run.site.pools[last.toNat]? = some old) (cancelled : old.cancelled = true) : False := by
    cases going.symm.trans (uncancelled old there cancelled)
  cases move_of_step stepped with
  | opened ready opened =>
    obtain ⟨source, rfl, -⟩ := Site.openPool_inv opened
    rw [List.getElem?_append] at found
    split at found
    · exact (early (by rw [ready]; rfl) found cancelled).elim
    · rw [List.getElem?_singleton] at found
      split at found <;> cases found
      rw [Pool.start_eq] at cancelled
      cases cancelled
  | refused ready => exact (early (by rw [ready]; rfl) found cancelled).elim
  | work work moved =>
    rcases Site.cancelled_step moved found cancelled with ⟨old, there, before⟩ | ⟨-, rfl⟩
    · exact uncancelled old there before
    · cases work
  | receive watching _ _ moved =>
    rcases Site.cancelled_step moved found cancelled with ⟨old, there, before⟩ | ⟨-, given⟩
    · exact (early (by rw [watching]; rfl) there before).elim
    · cases given
  | seeEnd watching =>
    rw [afterPhase_site] at found
    exact (early (by rw [watching]; rfl) found cancelled).elim
  | pass watching | wake watching =>
    exact (early (by rw [watching]; rfl) found cancelled).elim
  | cancelDeadline watching _ moved =>
    rcases Site.cancelled_step moved found cancelled with ⟨old, there, before⟩ | ⟨here, -⟩
    · exact (early (by rw [watching]; rfl) there before).elim
    · -- this is the pool of another phase
      rw [(current_staged staged watching).1] at here
      simp [inTime, watching, Plan.toNat_injective here] at counted
  | quitDeadline watching first second =>
    rcases Site.cancelled_step second found cancelled with ⟨middle, there, before⟩ | ⟨-, given⟩
    · rcases Site.cancelled_step first there before with ⟨old, there, before⟩ | ⟨here, -⟩
      · exact (early (by rw [watching]; rfl) there before).elim
      · obtain ⟨current, phase⟩ := current_staged staged watching
        cases Plan.toNat_injective (current.symm.trans here)
        change some (Except.error (RunError.mk _ .forceQuit)) = some (.error ⟨run.plan.phase _, _⟩)
        rw [phase]
    · cases given
  | deliver | edit => exact uncancelled pool found cancelled
  | conclude closing =>
    have ended := uncancelled pool found cancelled
    rwa [closing] at ended

theorem uncancelled_of_reaches
    (reached : Reaches step (inTime last) (start plan source directory observed) run) :
    run.Uncancelled last := by
  refine (reached.invariant (fun run => run.Staged ∧ run.Uncancelled last)
    ⟨staged_start plan source directory observed, fun pool found => nomatch found⟩ ?_).2
  exact fun kept counted stepped => ⟨kept.1.keep stepped, kept.2.keep kept.1 counted stepped⟩

/-! ## The count -/

/-- Where a phase ends that did begin, its calls have all ended, and those that failed have been
counted, unless the phase was given up. If its cancel timer did not fire, each of its components
was called once. What calls come to has no part in which others are made. -/
theorem failures_counted (plan : Plan) (source : OverridesSource) (directory : Directory)
    (observed : Bool) :
    (∀ labels run last outcome,
      walk step anyStep labels (start plan source directory observed) = some run →
      run.outcome? last = some outcome → outcome ≠ some .forceQuit →
      (∀ error, outcome ≠ some (.notStarted error)) →
      (∃ pool, run.site.CallsEnded last.toNat plan.action pool) ∧
      ∀ failed, outcome = some (.execution failed) ↔
        0 < failed ∧ failed = labels.countP (Label.fails last.toNat)) ∧
    (∀ run last outcome, Reaches step (inTime last) (start plan source directory observed) run →
      run.outcome? last = some outcome → outcome ≠ some .forceQuit →
      (∀ error, outcome ≠ some (.notStarted error)) →
      (run.site.calls.filter (·.pool == last.toNat)).map (·.job) =
        Pool.jobs (plan.components (plan.phase last))) ∧
    ∀ last labels others, labels.map Pool.Label.unjudged = others.map Pool.Label.unjudged →
      (walk Pool.step anyStep labels (plan.pool last)).map (·.taken) =
        (walk Pool.step anyStep others (plan.pool last)).map (·.taken) := by
  refine ⟨fun labels run last outcome walked ended patient began => ?counted,
    fun run last outcome reached ended patient began => ?attempted,
    fun last labels others => Pool.taken_unjudged (plan.pool last)⟩
  case counted =>
    have reached := reaches_of_walk walked
    obtain ⟨pool, found, judged⟩ := judged_of_outcome (staged_of_reaches reached)
      (settled_of_reaches reached) ended patient began
    rw [plan_of_reaches reached] at judged
    have counted : pool.failures = labels.countP (Label.fails last.toNat) := by
      have whole := failures_walk walked last.toNat
      rwa [Site.failures, found, Site.failures, start, List.getElem?_nil, Option.elim_none,
        Nat.zero_add] at whole
    refine ⟨⟨pool, ?_⟩, fun failed => counted ▸ judged.outcome_iff failed⟩
    exact plan.action_phase last ▸ judged.callsEnded (logged_of_reaches reached) found
  case attempted =>
    obtain ⟨pool, found, judged⟩ := judged_of_outcome (staged_of_reaches reached)
      (settled_of_reaches reached) ended patient began
    have running : pool.cancelled = false := by
      refine Bool.eq_false_iff.mpr fun cancelled => patient ?_
      have quit := uncancelled_of_reaches reached pool found cancelled
      rw [outcome_of_result quit last, Plan.outcome?, if_pos rfl] at ended
      exact (Option.some.inj ended).symm
    rw [plan_of_reaches reached] at judged
    rw [(logged_of_reaches reached).taken found]
    exact judged.ledger.taken_eq judged.closed judged.listening running

/-- Two calls fail, one on either side of the cancel timer; one fails of three where the timer does
not fire. -/
theorem failures_counted_two :
    let plan : Plan := {
      action := .install
      settings := { workers := 2 }
      list := {
        prerequisites := [{ name := "istio" }]
        components := [{ name := "dex" }, { name := "ory" }, { name := "kiali" }] } }
    let first := start plan (.fresh {} none) {} false
    (∃ run pool, Reaches step anyStep first run ∧
      run.outcome? true = some (some (.execution 2)) ∧ run.site.CallsEnded 1 .install pool) ∧
    (∃ run, Reaches step (inTime true) first run ∧
      run.outcome? true = some (some (.execution 1)) ∧
      (run.site.calls.filter (·.pool == 1)).map (·.job) =
        Pool.jobs (plan.components .installComponents)) ∧
    ∀ succeeded, (walk Pool.step anyStep [.check 1, .take 1, .finish 1 succeeded, .send 1, .check 1,
        .take 1] (plan.pool true)).map (·.taken) =
      (walk Pool.step anyStep [.check 1, .take 1, .finish 1 true, .send 1, .check 1, .take 1]
        (plan.pool true)).map (·.taken) := by
  intro plan first
  obtain ⟨counted, attempted, blind⟩ := failures_counted plan (.fresh {} none) {} false
  let front : List Label := [.begin, .work 0 (.check 0), .work 0 (.take 0), .work 0 (.finish 0 true),
    .work 0 (.send 0), .receive, .work 0 (.check 0), .work 0 (.take 0), .work 0 .close, .seeEnd,
    .begin, .work 1 (.check 0), .work 1 (.check 1), .work 1 (.take 0), .work 1 (.take 1),
    .work 1 (.finish 0 false), .work 1 (.send 0), .receive]
  refine ⟨?late, ?patient, fun succeeded => blind true _ _ rfl⟩
  case late =>
    let labels := front ++ [.pass, .cancelDeadline, .work 1 (.finish 1 false), .work 1 (.send 1),
      .work 1 (.check 0), .work 1 (.check 1), .work 1 .close, .receive, .seeEnd]
    have walked : (walk step anyStep labels first).map (·.outcome? true) =
        some (some (some (.execution 2))) := by decide +kernel
    obtain ⟨run, walked, ended⟩ := Option.map_eq_some_iff.mp walked
    obtain ⟨⟨pool, callsEnded⟩, -⟩ := counted labels run true _ walked ended (by simp) (by simp)
    exact ⟨run, pool, reaches_of_walk walked, ended, callsEnded⟩
  case patient =>
    let labels := front ++ [.work 1 (.check 0), .work 1 (.take 0), .work 1 (.finish 0 true),
      .work 1 (.finish 1 true), .work 1 (.send 1), .work 1 (.send 0), .receive, .receive,
      .work 1 (.check 0), .work 1 (.check 1), .work 1 (.take 0), .work 1 (.take 1), .work 1 .close,
      .seeEnd]
    have walked : (walk step (inTime true) labels first).map (·.outcome? true) =
        some (some (some (.execution 1))) := by decide +kernel
    obtain ⟨run, walked, ended⟩ := Option.map_eq_some_iff.mp walked
    exact ⟨run, reaches_of_walk walked, ended,
      attempted run true _ (reaches_of_walk walked) ended (by simp) (by simp)⟩

end Run

end Rollout
