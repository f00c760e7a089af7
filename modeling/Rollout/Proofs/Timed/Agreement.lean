import Rollout.Proofs.Timed.Forecast

/-! Runs agree with greedy schedules: what the schedules of both phases forecast for a run is
what every interleaving of it comes to. -/

set_option autoImplicit false

namespace Rollout

structure Forecast where
  result : Except RunError Unit
  returnedAt : Nat
  /-- The instants at which phases begin. -/
  begun : List Nat
  /-- The calls in order, each with its pool, its job and its start. -/
  calls : List (Nat × Job × Nat)

/-- The forecast for a run, by the schedules of its phases. The second one begins when the
first has ended well. -/
def Plan.forecast (plan : Plan) (timing : Timing) : Forecast :=
  let calls (last : Bool) (begin : Nat) :=
    (plan.scheduled timing last begin).map fun (job, start) => (last.toNat, job, start)
  match plan.phaseEnd timing false 0 with
  | (some failure, instant) => {
      result := .error ⟨plan.firstPhase, failure⟩
      returnedAt := instant
      begun := [0]
      calls := calls false 0 }
  | (none, instant) => {
      result := RunError.resultOf plan.secondPhase (plan.phaseEnd timing true instant).1
      returnedAt := (plan.phaseEnd timing true instant).2
      begun := [0, instant]
      calls := calls false 0 ++ calls true instant }

namespace Timed

variable {timing : Timing} {timed next : Timed} {label : Label} {plan : Plan}
  {source : OverridesSource} {directory : Directory} {observed : Bool}
  {guard : Timed → Label → Bool}

def calls (timed : Timed) : List (Nat × Job × Nat) :=
  timed.run.site.calls.map fun call =>
    (call.pool, call.job, timed.since call.pool call.job.position)

theorem agrees_of_reaches (valid : plan.settings.validate = .ok ())
    (clear : plan.AllClear timing)
    (reached : Reaches (step timing) readable (start plan source directory observed) timed) :
    timed.Agrees timing := by
  induction reached with
  | refl => exact ⟨rfl, rfl, rfl⟩
  | tail before follows ih =>
    obtain ⟨label, counted, stepped⟩ := follows
    have punctual := punctual_of_reaches before
    have staged := staged_of_reaches before
    rw [← plan_of_reaches before] at valid clear
    cases move_of_step stepped with
    | act allowed moved => exact ih.act valid clear staged punctual.onTime counted allowed moved
    | tick quiet => exact ih.tick staged punctual.attended quiet

/-- The calls of a phase are those of its schedule. -/
theorem calls_kept {begin ends : Nat} {outcome : Watch.Outcome} {pool : Pool}
    (logged : timed.run.site.Logged) (last : Bool)
    (found : timed.run.site.pools[last.toNat]? = some pool)
    (kept : plan.Kept timing timed.since last begin outcome ends pool) :
    (timed.run.site.calls.filter (·.pool == last.toNat)).map (fun call =>
      (call.pool, call.job, timed.since call.pool call.job.position)) =
      (plan.scheduled timing last begin).map fun (job, start) => (last.toNat, job, start) := by
  rw [← kept.taken, ← logged.taken found, List.map_map, List.map_map]
  refine List.map_congr_left fun call member => ?_
  have place : call.pool = last.toNat := by simpa using (List.mem_filter.mp member).2
  simp [place]

theorem came_forecast {result : Except RunError Unit} {ends : Nat}
    (logged : timed.run.site.Logged) (inOrder : plan.InOrder timed.run.site)
    (came : plan.Came timing timed.since timed.begun result ends timed.run.site.pools) :
    result = (plan.forecast timing).result ∧ ends = (plan.forecast timing).returnedAt ∧
      timed.begun = (plan.forecast timing).begun ∧
      timed.calls = (plan.forecast timing).calls := by
  obtain ⟨last, begin, outcome, front, done, pool, pools, begun, prior, kept, rfl, well⟩ := came
  have split := Run.calls_split inOrder.phases inOrder.known
  cases last with
  | false =>
    obtain ⟨rfl, rfl, rfl⟩ := prior
    cases outcome with
    | none => cases well rfl
    | some failure =>
      have none : timed.run.site.calls.filter (·.pool == 1) = [] := by
        refine List.filter_eq_nil_iff.mpr fun call member same => ?_
        have bound := logged.known call member
        rw [pools, beq_iff_eq.mp same] at bound
        simp at bound
      have first := calls_kept logged false (by rw [pools]; rfl) kept
      rw [none, List.append_nil] at split
      refine ⟨?_, ?_, ?_, ?_⟩
      all_goals rw [Plan.forecast, kept.ended]
      · rfl
      · exact begun
      · rw [calls, split]
        exact first
  | true =>
    obtain ⟨earlier, rfl, former, rfl⟩ := prior
    have first := calls_kept logged false (by rw [pools]; rfl) former
    have second := calls_kept logged true (by rw [pools]; rfl) kept
    refine ⟨?_, ?_, ?_, ?_⟩
    all_goals rw [Plan.forecast, former.ended]
    · simp only [kept.ended]
      rfl
    · simp only [kept.ended]
    · exact begun
    · rw [calls, split, List.map_append]
      exact congrArg₂ (· ++ ·) first second

/-! ## Whole runs -/

theorem readable_step (staged : timed.run.Staged) (inner : isInner label = true)
    (stepped : timed.step timing label = some next) (able : timed.run.readable = true) :
    next.run.readable = true := by
  cases move_of_step stepped with
  | tick => exact able
  | @act label next allowed moved =>
    rw [after_run]
    refine staged.readable_step moved ?_ able
    rintro change rfl
    cases inner

/-- A run that has not returned can be brought to its end, if overrides can be read. -/
theorem finishes
    (reached : Reaches (step timing) readable (start plan source directory observed) timed)
    (able : timed.run.readable = true) :
    ∃ final result, Reaches (step timing) readable timed final ∧
      final.run.stage = .over result := by
  induction measure : timed.measure using Nat.strongRecOn generalizing timed with
  | ind bound ih =>
    by_cases returned : ∃ result, timed.run.stage = .over result
    · obtain ⟨result, atEnd⟩ := returned
      exact ⟨timed, result, .refl, atEnd⟩
    · obtain ⟨label, next, inner, stepped⟩ := exists_step timing timed
      have staged := staged_of_reaches reached
      have less := measure_step (punctual_of_reaches reached) staged
        (fun result atEnd => returned ⟨result, atEnd⟩) inner stepped
      have counted : timed.readable label = true := by
        rcases label with (_ | _ | _ | _ | _ | _ | _ | _ | _ | _ | _) | _ <;>
          first | exact able | rfl
      have first : Reaches (step timing) readable timed next := .single ⟨label, counted, stepped⟩
      obtain ⟨final, result, onward, atEnd⟩ := ih next.measure (measure ▸ less)
        (reached.trans first) (readable_step staged inner stepped able) rfl
      exact ⟨final, result, first.trans onward, atEnd⟩

/-- With settings that are valid, and overrides that can be read whenever a phase begins, a run
returns what greedy schedules of its calls forecast, at the instant that they forecast. Its
phases begin, and its calls are made, when they say. Where no start and no end falls on a
deadline this is so in whatever order things happen, and the run does return. -/
theorem agrees_with_schedule (plan : Plan) (valid : plan.settings.validate = .ok ())
    (timing : Timing) (clear : plan.AllClear timing) (source : OverridesSource)
    (directory : Directory) (observed : Bool) :
    (∀ timed result, Reaches (step timing) readable (start plan source directory observed) timed →
      timed.run.stage = .over result →
      result = (plan.forecast timing).result ∧
      timed.returnedAt = some (plan.forecast timing).returnedAt ∧
      timed.begun = (plan.forecast timing).begun ∧
      timed.calls = (plan.forecast timing).calls) ∧
    (∀ timed, Reaches (step timing) readable (start plan source directory observed) timed →
      timed.run.readable = true →
      ∃ final result, Reaches (step timing) readable timed final ∧
        final.run.stage = .over result) ∧
    ∀ labels final, walk (step timing) readable labels (start plan source directory observed) =
        some final →
      (∀ result, final.run.stage ≠ .over result) →
      labels.countP isInner ≤ (start plan source directory observed).measure := by
  refine ⟨fun timed result reached atEnd => ?agrees, fun timed => finishes,
    fun labels final walked going => ?ends⟩
  case agrees =>
    have agrees := agrees_of_reaches valid clear reached
    have run := run_of_reaches reached
    rw [Agrees, atEnd, plan_of_reaches reached] at agrees
    obtain ⟨instant, returned, came⟩ := agrees
    obtain ⟨same, ends, begun, calls⟩ :=
      came_forecast (Run.logged_of_reaches run) (Run.inOrder_of_reaches run) came
    exact ⟨same, ends ▸ returned, begun, calls⟩
  case ends => exact Nat.le_trans (Nat.le_add_right _ _) (countP_isInner_le .refl walked going)

/-- Two workers have four components, of which the last would start behind the deadline. -/
theorem agrees_with_schedule_four :
    let span (nanos : Nat) (small : nanos < 100) : Duration := ⟨nanos, by
      rw [nanosPerSecond]
      omega⟩
    let plan : Plan := {
      action := .install
      settings := {
        workers := 2, cancelTimeout := span 6 (by decide), quitTimeout := span 20 (by decide) }
      list := {
        prerequisites := [{ name := "istio" }]
        components := [
          { name := "dex" }, { name := "ory" }, { name := "kiali" }, { name := "jaeger" }] } }
    let timing : Timing := fun pool position =>
      { duration := some (if pool = 0 then 2 else if position = 0 then 3 else 5), fails := false }
    ∃ timed, Reaches (step timing) readable (start plan (.fresh {} none) {} false) timed ∧
      timed.run.stage = .over (.error ⟨.installComponents, .timeout⟩) ∧
      timed.returnedAt = some 10 ∧ timed.begun = [0, 2] ∧
      timed.calls.map (·.2.2) = [0, 2, 2, 5] := by
  intro span plan timing
  have first : plan.Clear timing false 0 := by
    have starts : plan.starts timing false 0 = [some 0] := by decide +kernel
    have ends : Schedule.lastEnd 0 (Schedule.startedBefore plan.settings.cancelTimeout.nanos
      (List.replicate (plan.workers (plan.phase false)) (some 0)) (plan.tasks timing false)) =
        some 2 := by decide +kernel
    refine ⟨fun start member => ?_, fun instant ended => ?_⟩
    · rw [starts] at member
      simp only [List.mem_singleton, Option.some.injEq] at member
      subst member
      decide
    · rw [ends, Option.some.injEq] at ended
      subst ended
      decide
  have second : plan.Clear timing true 2 := by
    have starts : plan.starts timing true 2 = [some 2, some 2, some 5, some 7] := by decide +kernel
    have ends : Schedule.lastEnd 2 (Schedule.startedBefore plan.settings.cancelTimeout.nanos
      (List.replicate (plan.workers (plan.phase true)) (some 2)) (plan.tasks timing true)) =
        some 10 := by decide +kernel
    refine ⟨fun start member => ?_, fun instant ended => ?_⟩
    · rw [starts] at member
      simp only [List.mem_cons, List.not_mem_nil, Option.some.injEq, or_false] at member
      rcases member with rfl | rfl | rfl | rfl <;> decide
    · rw [ends, Option.some.injEq] at ended
      subst ended
      decide
  have clear : plan.AllClear timing := by
    refine ⟨first, fun instant ended => ?_⟩
    have here : plan.phaseEnd timing false 0 = (none, 2) := by decide +kernel
    cases here.symm.trans ended
    exact second
  let acts (labels : List Run.Label) : List Label := labels.map .act
  let enter (pool worker : Nat) : List Run.Label :=
    [.work pool (.check worker), .work pool (.take worker)]
  let report (pool worker : Nat) : List Run.Label :=
    [.work pool (.finish worker true), .work pool (.send worker), .wake, .receive,
      .work pool (.check worker)]
  let labels : List Label :=
    acts ([.begin] ++ enter 0 0 ++ [.pass]) ++ [.tick, .tick] ++
      acts (report 0 0 ++ [.work 0 (.take 0), .work 0 .close, .seeEnd, .begin] ++ enter 1 0 ++
        enter 1 1 ++ [.pass]) ++ [.tick, .tick, .tick] ++
      acts (report 1 0 ++ [.work 1 (.take 0), .pass]) ++ [.tick] ++ acts [.cancelDeadline, .pass] ++
      [.tick] ++ acts (report 1 1 ++ [.pass]) ++ [.tick, .tick, .tick] ++
      acts (report 1 0 ++ [.work 1 .close, .seeEnd, .conclude])
  have walked : (walk (step timing) readable labels (start plan (.fresh {} none) {} false)).map
      (·.run.stage) = some (.over (.error ⟨.installComponents, .timeout⟩)) := by decide +kernel
  obtain ⟨timed, walked, atEnd⟩ := Option.map_eq_some_iff.mp walked
  have reached := reaches_of_walk walked
  obtain ⟨agrees, -⟩ := agrees_with_schedule plan rfl timing clear (.fresh {} none) {} false
  obtain ⟨-, returned, begun, calls⟩ := agrees timed _ reached atEnd
  refine ⟨timed, reached, atEnd, returned.trans ?_, begun.trans ?_, (congrArg _ calls).trans ?_⟩
  all_goals decide +kernel

end Timed

end Rollout
