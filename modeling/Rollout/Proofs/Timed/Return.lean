import Rollout.Proofs.Timed.Deadlines

/-! A run returns in time. As long as it has not returned something can happen or the clock goes
on, and only so much of either fits into the time for the run. -/

set_option autoImplicit false

namespace Rollout.Timed

variable {timing : Timing} {timed next : Timed} {label : Label}

def isInner : Label → Bool
  | .act (.edit _) => false
  | _ => true

/-- How often the watcher can still look at the channel before something else happens. -/
def looks (timed : Timed) : Nat :=
  match timed.run.stage with
  | .watching _ true _ => if timed.hasNews then 2 else 0
  | .watching _ false _ => 1
  | _ => 0

def measure (timed : Timed) : Nat :=
  3 * timed.run.weight + timed.looks +
    (timed.run.plan.settings.quitTimeout.nanos - timed.now)

theorem looks_le (timed : Timed) : timed.looks ≤ 2 := by
  unfold looks
  split
  · split <;> omega
  · omega
  · omega

theorem inner_candidates {run : Run} {label : Run.Label} (member : label ∈ candidates run) :
    isInner (.act label) = true := by
  cases label with
  | edit => simp [candidates, attempts] at member
  | _ => rfl

/-- Either something can happen at the present instant, or the clock goes on. -/
theorem exists_step (timing : Timing) (timed : Timed) :
    ∃ label next, isInner label = true ∧ timed.step timing label = some next := by
  cases quiet : timed.isQuiet timing with
  | true => exact ⟨.tick, _, rfl, step_of_move (.tick quiet)⟩
  | false =>
    obtain ⟨label, member, able⟩ := List.all_eq_false.mp quiet
    rw [Bool.not_eq_true, Bool.not_eq_false', Bool.and_eq_true, Option.isSome_iff_exists] at able
    obtain ⟨allowed, run, moved⟩ := able
    exact ⟨.act label, _, inner_candidates member, step_of_move (.act allowed moved)⟩

theorem looks_pass {watch : Watch} {last : Bool} {pool : Pool}
    (found : timed.run.site.pools[timed.run.current]? = some pool) (empty : pool.channel = [])
    (shut : pool.closed = false) :
    (timed.after .pass { timed.run with stage := .watching watch true last }).looks = 0 := by
  have silent : (timed.after .pass { timed.run with stage := .watching watch true last }).hasNews =
      false := by
    rw [hasNews, after_run]
    change (timed.run.site.pools[timed.run.current]?).any _ = false
    rw [found, Option.any_some, empty, shut]
    rfl
  simp only [looks, after_run]
  rw [silent]
  rfl

theorem measure_act {label : Run.Label} {next : Run} (inner : isInner (.act label) = true)
    (allowed : timed.allows timing label = true) (stepped : timed.run.step label = some next) :
    (timed.after label next).measure < timed.measure := by
  have weight := Run.weight_step stepped
  have few := looks_le (timed.after label next)
  simp only [measure, after_run, after_now, Run.plan_step stepped]
  cases busy : Run.isBusy label with
  | true =>
    rw [busy, Bool.toNat_true] at weight
    omega
  | false =>
    rw [busy, Bool.toNat_false, Nat.add_zero] at weight
    -- the watcher looks at the channel, or turns away from it
    cases Run.move_of_step stepped with
    | pass watching found empty shut =>
      have before : timed.looks = 1 := by rw [looks, watching]
      rw [looks_pass found empty shut]
      omega
    | @wake watch last watching =>
      have before : timed.looks = 2 := by
        have news : timed.hasNews = true := allowed
        simp [looks, watching, news]
      have later : (timed.after .wake
          { timed.run with stage := .watching watch false last }).looks = 1 := rfl
      rw [later, before]
      omega
    | edit => cases inner
    | _ => cases busy

theorem measure_step (punctual : timed.Punctual) (staged : timed.run.Staged)
    (going : ∀ result, timed.run.stage ≠ .over result) (inner : isInner label = true)
    (stepped : timed.step timing label = some next) : next.measure < timed.measure := by
  cases move_of_step stepped with
  | act allowed moved => exact measure_act inner allowed moved
  | tick quiet =>
    rcases stage_of_quiet staged punctual.attended quiet with
      ⟨watch, last, watching⟩ | ⟨result, atEnd⟩
    · have onTime := punctual.onTime
      rw [OnTime, watching] at onTime
      rw [Run.Staged, watching] at staged
      obtain ⟨done, pool, pools, watched⟩ := staged
      have waits := waits_of_quiet pools watched.sees.listening watching quiet
      have same : ({ timed with now := timed.now + 1 } : Timed).looks = timed.looks := rfl
      have going := onTime.2.1 ▸ waits.going
      simp only [measure, same]
      omega
    · exact absurd atEnd (going result)

-- The files are no part of what is left to do.
theorem measure_edit (outer : isInner label = false)
    (stepped : timed.step timing label = some next) : next.measure = timed.measure := by
  cases move_of_step stepped with
  | tick => cases outer
  | act allowed moved =>
    cases Run.move_of_step moved with
    | edit => rfl
    | _ => cases outer

theorem over_step {result : Except RunError Unit} (atEnd : timed.run.stage = .over result)
    (stepped : timed.step timing label = some next) : next.run.stage = .over result := by
  cases move_of_step stepped with
  | tick => exact atEnd
  | act allowed moved =>
    rw [after_run]
    cases Run.move_of_step moved with
    | work | deliver | edit => exact atEnd
    | opened here | refused here | receive here | seeEnd here | pass here | wake here
    | cancelDeadline here | quitDeadline here | conclude here =>
      rw [atEnd] at here
      cases here

/-! ## Whole runs -/

variable {guard : Timed → Label → Bool} {plan : Plan} {source : OverridesSource}
  {directory : Directory} {observed : Bool}

theorem staged_of_reaches
    (reached : Reaches (step timing) guard (start plan source directory observed) timed) :
    timed.run.Staged :=
  Run.staged_of_reaches (run_of_reaches reached)

theorem plan_of_reaches
    (reached : Reaches (step timing) guard (start plan source directory observed) timed) :
    timed.run.plan = plan :=
  Run.plan_of_reaches (run_of_reaches reached)

theorem punctual_of_reaches
    (reached : Reaches (step timing) guard (start plan source directory observed) timed) :
    timed.Punctual := by
  induction reached with
  | refl => exact punctual_start plan source directory observed
  | tail before follows ih =>
    obtain ⟨label, -, stepped⟩ := follows
    have settled := Run.settled_of_reaches (run_of_reaches before)
    exact ih.keep (staged_of_reaches before) settled stepped

theorem over_of_reaches {result : Except RunError Unit} (atEnd : timed.run.stage = .over result)
    (onward : Reaches (step timing) guard timed next) : next.run.stage = .over result :=
  onward.invariant (·.run.stage = .over result) atEnd fun atEnd _ stepped => over_step atEnd stepped

/-- Before a run has returned it takes no more steps than it measures. -/
theorem countP_isInner_le {labels : List Label} {final : Timed}
    (reached : Reaches (step timing) guard (start plan source directory observed) timed)
    (walked : walk (step timing) guard labels timed = some final)
    (going : ∀ result, final.run.stage ≠ .over result) :
    labels.countP isInner + final.measure ≤ timed.measure := by
  induction labels generalizing timed with
  | nil =>
    cases walked
    simp
  | cons label rest ih =>
    obtain ⟨next, counted, stepped, walked⟩ := walk_cons walked
    have first : Reaches (step timing) guard timed next := .single ⟨label, counted, stepped⟩
    have others := ih (reached.trans first) walked
    have unfinished : ∀ result, timed.run.stage ≠ .over result := fun result atEnd =>
      going result (over_of_reaches atEnd (first.trans (reaches_of_walk walked)))
    rw [List.countP_cons]
    cases inner : isInner label with
    | true =>
      have less := measure_step (punctual_of_reaches reached) (staged_of_reaches reached)
        unfinished inner stepped
      rw [if_pos rfl]
      omega
    | false =>
      have same := measure_edit inner stepped
      rw [if_neg Bool.false_ne_true]
      omega

/-- No helm call of a run begins behind its first deadline, and the run returns before the
second, or before the first if all went well; both phases have the same deadlines. A run cannot
go on for ever: as long as it has not returned there is a next step, and there are only so many. -/
theorem returns_in_time (plan : Plan) (timing : Timing) (source : OverridesSource)
    (directory : Directory) (observed : Bool) :
    (∀ timed, Reaches (step timing) anyStep (start plan source directory observed) timed →
      (∀ call ∈ timed.run.site.calls,
        timed.since call.pool call.job.position ≤ plan.settings.cancelTimeout.nanos) ∧
      (∀ watch idle last, timed.run.stage = .watching watch idle last →
        timed.cancelAt = plan.settings.cancelTimeout.nanos ∧
        timed.quitAt = plan.settings.quitTimeout.nanos) ∧
      (∀ result, timed.run.stage = .over result → ∃ instant, timed.returnedAt = some instant ∧
        instant ≤ plan.settings.quitTimeout.nanos ∧
        (result = .ok () → instant ≤ plan.settings.cancelTimeout.nanos)) ∧
      ((∀ result, timed.run.stage ≠ .over result) →
        timed.now ≤ plan.settings.quitTimeout.nanos ∧
        ∃ label next, isInner label = true ∧ timed.step timing label = some next)) ∧
    ∀ labels final, walk (step timing) anyStep labels (start plan source directory observed) =
        some final →
      (∀ result, final.run.stage ≠ .over result) →
      labels.countP isInner ≤ (start plan source directory observed).measure := by
  refine ⟨fun timed reached => ?safe, fun labels final walked going => ?ends⟩
  case safe =>
    have punctual := punctual_of_reaches reached
    have same := plan_of_reaches reached
    have onTime := punctual.onTime
    refine ⟨same ▸ punctual.early, fun watch idle last watching => ?_, fun result atEnd => ?_,
      fun going => ⟨?_, exists_step timing timed⟩⟩
    · rw [OnTime, watching, same] at onTime
      exact ⟨onTime.1, onTime.2.1⟩
    · rw [OnTime, atEnd, same] at onTime
      obtain ⟨instant, returned, inTime⟩ := onTime
      exact ⟨instant, returned, inTime.quit, inTime.cancel⟩
    · rw [OnTime, same] at onTime
      split at onTime
      · exact onTime.quit
      · exact onTime.2.2.quit
      · exact onTime.quit
      · exact absurd ‹_› (going _)
  case ends => exact Nat.le_trans (Nat.le_add_right _ _) (countP_isInner_le .refl walked going)

/-- Prerequisites that take two units of three leave one for the components: the second of them
is not started any more. -/
theorem returns_in_time_three :
    let span (nanos : Nat) (small : nanos < 10) : Duration := ⟨nanos, by
      rw [nanosPerSecond]
      omega⟩
    let plan : Plan := {
      action := .install
      settings := {
        workers := 1, cancelTimeout := span 3 (by decide), quitTimeout := span 5 (by decide) }
      list := {
        prerequisites := [{ name := "istio" }]
        components := [{ name := "dex" }, { name := "ory" }] } }
    let timing : Timing := fun _ _ => { duration := some 2, fails := false }
    ∃ timed, Reaches (step timing) anyStep (start plan (.fresh {} none) {} false) timed ∧
      timed.run.stage = .over (.error ⟨.installComponents, .timeout⟩) ∧
      timed.run.site.calls.map (fun call => timed.since call.pool call.job.position) = [0, 2] ∧
      (∀ call ∈ timed.run.site.calls, timed.since call.pool call.job.position ≤ 3) ∧
      ∃ instant, timed.returnedAt = some instant ∧ instant ≤ 5 := by
  intro span plan timing
  let enter (pool : Nat) : List Run.Label :=
    [.begin, .work pool (.check 0), .work pool (.take 0), .pass]
  let report (pool : Nat) : List Run.Label :=
    [.work pool (.finish 0 true), .work pool (.send 0), .wake, .receive, .work pool (.check 0)]
  let acts (labels : List Run.Label) : List Label := labels.map .act
  let labels : List Label :=
    acts (enter 0) ++ [.tick, .tick] ++
      acts (report 0 ++ [.work 0 (.take 0), .work 0 .close, .seeEnd] ++ enter 1) ++
      [.tick, .act .cancelDeadline, .act .pass, .tick] ++
      acts (report 1 ++ [.work 1 .close, .seeEnd, .conclude])
  have walked : (walk (step timing) anyStep labels (start plan (.fresh {} none) {} false)).map
      (fun timed => (timed.run.stage,
        timed.run.site.calls.map fun call => timed.since call.pool call.job.position)) =
      some (.over (.error ⟨.installComponents, .timeout⟩), [0, 2]) := by decide +kernel
  obtain ⟨timed, walked, seen⟩ := Option.map_eq_some_iff.mp walked
  obtain ⟨atEnd, starts⟩ := Prod.mk.inj seen
  have reached := reaches_of_walk walked
  obtain ⟨safe, -⟩ := returns_in_time plan timing (.fresh {} none) {} false
  obtain ⟨early, -, returned, -⟩ := safe timed reached
  obtain ⟨instant, here, inTime, -⟩ := returned _ atEnd
  exact ⟨timed, reached, atEnd, starts, early, instant, here, inTime⟩

end Rollout.Timed
