import Rollout.Proofs.Rehearsal.Shadow
import Rollout.Proofs.Rehearsal.Weight

/-! Rehearsals agree with greedy schedules: what is rehearsed returns when the schedules of its
phases say, with the result and the calls that they say. -/

set_option autoImplicit false

namespace Rollout

theorem Plan.Came.halted {plan : Plan} {timing : Timing} {since : Nat → Nat → Nat}
    {begun : List Nat} {result : Except RunError Unit} {ends : Nat} {pools : List Pool}
    (came : plan.Came timing since begun result ends pools) : ∀ pool ∈ pools, pool.Halted := by
  obtain ⟨last, begin, outcome, front, done, pool, rfl, -, prior, kept, -, -⟩ := came
  intro other member
  rcases List.mem_append.mp member with before | here
  · cases last with
    | false =>
      obtain ⟨rfl, -⟩ := prior
      cases before
    | true =>
      obtain ⟨first, rfl, former, -⟩ := prior
      rw [List.mem_singleton.mp before]
      exact former.halted
  · rw [List.mem_singleton.mp here]
    exact kept.halted

namespace RunRehearsal

variable {script : Script} {plan : Plan} {source : OverridesSource} {directory : Directory}
  {observed : Bool} {rehearsal next : RunRehearsal} {timed : Timed}

/-! ## Behind the end -/

structure Returned (rehearsal : RunRehearsal) (result : Except RunError Unit) (instant : Nat)
    (calls : List Call) (starts : List Nat) : Prop where
  atEnd : rehearsal.run.stage = .over result
  instant : rehearsal.returnedAt = some instant
  calls : rehearsal.run.site.calls = calls
  starts : rehearsal.clock.starts = starts
  halted : ∀ pool ∈ rehearsal.run.site.pools, pool.Halted

variable {result : Except RunError Unit} {instant : Nat} {calls : List Call} {starts : List Nat}

theorem Returned.turn {index : Nat} {pool : Pool} {deeds : List Deed} {clock : Clock}
    (returned : rehearsal.Returned result instant calls starts)
    (found : rehearsal.run.site.pools[index]? = some pool)
    (turn : Clock.Turn rehearsal.clock script index pool deeds clock) :
    (rehearsal.performDeeds deeds clock).Returned result instant calls starts := by
  have halted := returned.halted pool (List.mem_of_getElem? found)
  have still : clock.starts = rehearsal.clock.starts := by
    cases turn with
    | take taking waiting =>
      rcases halted.idle with empty | none
      · cases waiting.symm.trans empty
      · exact absurd (Pool.mem_of_found taking) none
    | _ => rfl
  rcases turn.deeds_cases with rfl | ⟨label, after, rfl, work, moved⟩
  · exact { returned with starts := still.trans returned.starts }
  · have stepped := Run.step_of_move (.work work (Site.step_of_pool found moved))
    rw [performDeeds_of_step stepped]
    obtain ⟨halted, taken⟩ := halted.step moved
    constructor
    case atEnd => exact returned.atEnd
    case instant => exact returned.instant
    case calls =>
      rcases Timed.newCall_cases rehearsal.run.site index moved with
        ⟨none, -⟩ | ⟨i, job, rest, -, -, -, rfl⟩
      · simpa [none] using returned.calls
      · simp at taken
    case starts => exact still.trans returned.starts
    case halted =>
      intro other member
      rcases List.mem_or_eq_of_mem_set member with before | rfl
      · exact returned.halted other before
      · exact halted

theorem Returned.step (plain : script.Plain)
    (returned : rehearsal.Returned result instant calls starts)
    (stepped : rehearsal.step script = some next) : next.Returned result instant calls starts := by
  unfold RunRehearsal.step at stepped
  split at stepped
  · rename_i deeds clock picked
    cases stepped
    obtain ⟨index, pool, found, turn⟩ := Clock.turn_of_next plain picked
    exact returned.turn found turn
  · rw [returned.atEnd] at stepped
    dsimp only at stepped
    split at stepped
    · cases stepped
      exact ⟨returned.atEnd, returned.instant, returned.calls, returned.starts, returned.halted⟩
    · split at stepped <;> cases stepped
      exact ⟨returned.atEnd, returned.instant, returned.calls, returned.starts, returned.halted⟩

theorem Returned.play (plain : script.Plain) (fuel : Nat)
    (returned : rehearsal.Returned result instant calls starts) :
    (play script fuel rehearsal).Returned result instant calls starts := by
  induction fuel generalizing rehearsal with
  | zero => exact returned
  | succ fuel ih =>
    rw [RunRehearsal.play]
    split
    · exact ih (returned.step plain ‹_›)
    · exact returned

/-! ## Up to the end -/

section
variable (reached : Reaches (Timed.step (script.timing plan)) Timed.readable
  (Timed.start plan source directory observed) timed)
include reached

theorem Shows.returned (valid : plan.settings.validate = .ok ())
    (clear : plan.AllClear (script.timing plan)) (shows : rehearsal.Shows script timed)
    (passed : rehearsal.run.stage = .over result) :
    ∃ instant, timed.run.stage = .over result ∧ timed.returnedAt = some instant ∧
      rehearsal.Returned result instant timed.run.site.calls (timed.calls.map (·.2.2)) := by
  have awake : rehearsal.run.stage.awake = rehearsal.run.stage := by
    rw [passed]
    rfl
  have atEnd : timed.run.stage = .over result := by
    rcases Stage.awake_cases shows.alike.stage awake with same | ⟨watch, last, watching, -⟩
    · exact same.trans passed
    · cases passed.symm.trans watching
  have agrees := Timed.agrees_of_reaches valid clear reached
  rw [Timed.Agrees, atEnd] at agrees
  obtain ⟨instant, returned, came⟩ := agrees
  refine ⟨instant, atEnd, returned, passed, shows.returnedAt ▸ returned, ?_, shows.clock.starts, ?_⟩
  · rw [shows.alike.site]
  · rw [← shows.alike.site]
    exact came.halted

theorem Shows.inTime (shows : rehearsal.Shows script timed) {watch : Watch} {idle last : Bool}
    (watching : rehearsal.run.stage = .watching watch idle last) :
    rehearsal.cancelAt = rehearsal.run.plan.settings.cancelTimeout.nanos ∧
      rehearsal.quitAt = rehearsal.run.plan.settings.quitTimeout.nanos := by
  have onTime := (Timed.punctual_of_reaches reached).onTime
  have same := shows.alike.stage
  rw [watching] at same
  rcases there : timed.run.stage with ⟨phase, last⟩ | ⟨watch, idle, last⟩ | result | result
  case watching =>
    rw [Timed.OnTime, there] at onTime
    rw [← shows.cancelAt, ← shows.quitAt, ← shows.alike.plan]
    exact ⟨onTime.1, onTime.2.1⟩
  all_goals
    rw [there] at same
    cases same

/-- Before a run has returned, something happens next, and leaves less to happen. -/
theorem Shows.exists_next (plain : script.Plain) (shows : rehearsal.Shows script timed)
    (sound : rehearsal.run.Sound) (going : ∀ result, rehearsal.run.stage ≠ .over result) :
    ∃ next later, rehearsal.step script = some next ∧
      Reaches (Timed.step (script.timing plan)) Timed.readable timed later ∧
      next.Shows script later ∧ next.run.Sound ∧
      left next.run next.clock < left rehearsal.run rehearsal.clock := by
  obtain ⟨next, stepped, happens⟩ := exists_happens plain sound going
  obtain ⟨later, onward, shown⟩ := shows.happens plain reached sound happens
  have few := Run.length_calls_le (Timed.run_of_reaches (reached.trans onward))
  rw [← Timed.plan_of_reaches (reached.trans onward), shown.alike.site, shown.alike.plan] at few
  have less := happens.left_lt few fun watch idle last watching => shows.inTime reached watching
  exact ⟨next, later, stepped, onward, shown, happens.sound sound, less⟩

end

/-- With enough steps a rehearsal returns, as the run that it shows. -/
theorem Shows.play (plain : script.Plain) (valid : plan.settings.validate = .ok ())
    (clear : plan.AllClear (script.timing plan))
    (reached : Reaches (Timed.step (script.timing plan)) Timed.readable
      (Timed.start plan source directory observed) timed)
    (shows : rehearsal.Shows script timed) (sound : rehearsal.run.Sound) (fuel : Nat)
    (enough : left rehearsal.run rehearsal.clock ≤ fuel) :
    ∃ final result instant, Reaches (Timed.step (script.timing plan)) Timed.readable
        (Timed.start plan source directory observed) final ∧ final.run.stage = .over result ∧
      final.returnedAt = some instant ∧ (RunRehearsal.play script fuel rehearsal).Returned result
        instant final.run.site.calls (final.calls.map (·.2.2)) := by
  induction fuel generalizing rehearsal timed with
  | zero =>
    by_cases passed : ∃ result, rehearsal.run.stage = .over result
    · obtain ⟨result, passed⟩ := passed
      obtain ⟨instant, atEnd, here, returned⟩ := shows.returned reached valid clear passed
      exact ⟨timed, result, instant, reached, atEnd, here, returned⟩
    · obtain ⟨next, later, -, -, -, -, less⟩ :=
        shows.exists_next reached plain sound fun result here => passed ⟨result, here⟩
      omega
  | succ fuel ih =>
    by_cases passed : ∃ result, rehearsal.run.stage = .over result
    · obtain ⟨result, passed⟩ := passed
      obtain ⟨instant, atEnd, here, returned⟩ := shows.returned reached valid clear passed
      exact ⟨timed, result, instant, reached, atEnd, here, returned.play plain (fuel + 1)⟩
    · obtain ⟨next, later, stepped, onward, shown, sound, less⟩ :=
        shows.exists_next reached plain sound fun result here => passed ⟨result, here⟩
      rw [RunRehearsal.play, stepped]
      exact ih (reached.trans onward) shown sound (by omega)

/-- What is rehearsed is what greedy schedules of the calls forecast: with settings that are
valid, overrides that can be read, and no start or end that falls on a deadline, the run returns
the result of the forecast at its instant, and makes its calls at the instants that it gives. -/
theorem ofPlan_forecast (script : Script) (plain : script.Plain) (plan : Plan)
    (valid : plan.settings.validate = .ok ()) (clear : plan.AllClear (script.timing plan))
    (source : OverridesSource) (directory : Directory) (observed : Bool)
    (able : (Run.start plan source directory observed).readable = true) :
    let rehearsal := ofPlan script plan source directory observed
    let forecast := plan.forecast (script.timing plan)
    rehearsal.result? = some forecast.result ∧
      rehearsal.returnedAt = some forecast.returnedAt ∧
      rehearsal.run.site.calls.map (fun call => (call.pool, call.job)) =
        forecast.calls.map (fun call => (call.1, call.2.1)) ∧
      rehearsal.clock.starts = forecast.calls.map (·.2.2) := by
  intro rehearsal forecast
  obtain ⟨final, result, instant, reached, atEnd, here, returned⟩ :=
    (shows_start script plan source directory observed).play plain valid clear .refl
      (Run.sound_start plan source directory observed able) (stepBound plan)
      (left_start plan source directory observed)
  change rehearsal.Returned result instant _ _ at returned
  have run := Timed.run_of_reaches reached
  have agrees := Timed.agrees_of_reaches valid clear reached
  rw [Timed.Agrees, atEnd, Timed.plan_of_reaches reached] at agrees
  obtain ⟨ends, there, came⟩ := agrees
  obtain ⟨same, instants, -, calls⟩ := Timed.came_forecast (Run.logged_of_reaches run)
    (Run.inOrder_of_reaches run) came
  cases here.symm.trans there
  refine ⟨?_, ?_, ?_, ?_⟩
  · rw [← same, result?, returned.atEnd]
  · rw [← instants]
    exact returned.instant
  · rw [returned.calls, ← calls, Timed.calls, List.map_map]
    rfl
  · rw [← calls]
    exact returned.starts

-- Two workers have four components, of which the last would start behind the deadline.
example :
    let span (nanos : Nat) (small : nanos < 100) : Duration := ⟨nanos, by
      rw [nanosPerSecond]
      omega⟩
    let plan : Plan := {
      action := .install
      settings := {
        workers := 2, cancelTimeout := span 6 (by decide), quitTimeout := span 20 (by decide) }
      list := {
        prerequisites := [{ name := "istio" }]
        components := [
          { name := "dex" }, { name := "ory" }, { name := "kiali" }, { name := "jaeger" }] } }
    let script : Script := { behaviour := fun pool job =>
      { delay := if pool = 0 then 2 else if job.position = 0 then 3 else 5 } }
    let rehearsal := ofPlan script plan (.fresh {} none) {} true
    (rehearsal.result?, rehearsal.returnedAt, rehearsal.clock.starts) =
      (some (.error ⟨.installComponents, .timeout⟩), some 10, [0, 2, 2, 5]) := by
  decide +kernel

end RunRehearsal

end Rollout
