import Mathlib.Algebra.Order.BigOperators.Group.List
import Mathlib.Algebra.Order.Ring.Nat
import Rollout.Proofs.Rehearsal.Clocks
import Rollout.Proofs.Rehearsal.Steps

/-! Rehearsals come to an end. Before a run has returned, each thing that happens takes something
off a measure: work that is left, calls not yet made, calls that go on, and deadlines to come. -/

set_option autoImplicit false

namespace Rollout

/-- How often the clock still has to be looked at for a call. -/
def CallStage.weight (now : Nat) : CallStage → Nat
  | .gathering => 2
  | .underWay ends => if now < ends then 1 else 0

theorem CallStage.weight_later {now later : Nat} (behind : now ≤ later) (stage : CallStage) :
    stage.weight later ≤ stage.weight now := by
  cases stage with
  | gathering => exact Nat.le_refl _
  | underWay ends =>
    simp only [weight]
    split
    · rw [if_pos (by omega)]
    · exact Nat.zero_le _

namespace Clock

def load (now : Nat) (stages : List ((Nat × Nat) × CallStage)) : Nat :=
  (stages.map fun entry => entry.2.weight now).sum

def weight (clock : Clock) : Nat :=
  load clock.now clock.stages

variable {clock : Clock} {index i instant : Nat} {stage : CallStage}

theorem load_filter_le (now : Nat) (stages : List ((Nat × Nat) × CallStage)) (key : Nat × Nat) :
    load now (stages.filter (·.1 != key)) ≤ load now stages :=
  (List.filter_sublist.map _).sum_le_sum fun _ _ => Nat.zero_le _

-- The entry that is looked up is one of those that are left out.
theorem load_filter {key : Nat × Nat} {stages : List ((Nat × Nat) × CallStage)}
    (found : stages.lookup key = some stage) (now : Nat) :
    load now (stages.filter (·.1 != key)) + stage.weight now ≤ load now stages := by
  induction stages with
  | nil => cases found
  | cons entry rest ih =>
    obtain ⟨place, other⟩ := entry
    have whole : load now ((place, other) :: rest) = other.weight now + load now rest := by
      rw [load, List.map_cons, List.sum_cons]
      rfl
    rw [whole]
    by_cases here : place = key
    · subst here
      rw [List.lookup_cons_self, Option.some.injEq] at found
      subst found
      have fewer := load_filter_le now rest place
      rw [List.filter_cons_of_neg (by simp)]
      omega
    · rw [List.lookup_cons, beq_eq_false_iff_ne.mpr (Ne.symm here)] at found
      have tail := ih found
      have kept : load now ((place, other) :: rest.filter (·.1 != key)) =
          other.weight now + load now (rest.filter (·.1 != key)) := by
        rw [load, List.map_cons, List.sum_cons]
        rfl
      rw [List.filter_cons_of_pos (by simpa using here), kept]
      omega

theorem weight_withoutStage_le (clock : Clock) (index i : Nat) :
    (clock.withoutStage index i).weight ≤ clock.weight :=
  load_filter_le clock.now clock.stages (index, i)

theorem weight_withStage (clock : Clock) (index i : Nat) (stage : CallStage) :
    (clock.withStage index i stage).weight =
      stage.weight clock.now + (clock.withoutStage index i).weight := by
  rw [weight, load, withStage, List.map_cons, List.sum_cons]
  rfl

theorem weight_advance_le (clock : Clock) (instant : Nat) :
    (clock.advance instant).weight ≤ clock.weight :=
  List.sum_le_sum fun entry _ => entry.2.weight_later (Nat.le_max_left _ _)

theorem weight_advance_lt (pending : clock.Pending instant) :
    (clock.advance instant).weight < clock.weight := by
  obtain ⟨later, place, member⟩ := pending
  refine List.sum_lt_sum _ _ (fun entry _ => entry.2.weight_later (Nat.le_max_left _ _))
    ⟨_, member, ?_⟩
  simp [CallStage.weight, advance, later]

theorem weight_gather (gathering : clock.stage? index i = some .gathering) (ends : Nat) :
    (clock.withStage index i (.underWay ends)).weight < clock.weight := by
  have less : (clock.withoutStage index i).weight + 2 ≤ clock.weight :=
    load_filter gathering clock.now
  rw [weight_withStage, CallStage.weight]
  split <;> omega

theorem weight_begin (clock : Clock) (index i : Nat) :
    (clock.withStage index i .gathering).weight ≤ clock.weight + 2 := by
  have fewer := weight_withoutStage_le clock index i
  rw [weight_withStage, CallStage.weight]
  omega

end Clock

/-! ## Calls to come -/

namespace Plan

def size (plan : Plan) : Nat :=
  (plan.components (plan.phase false)).length + (plan.components (plan.phase true)).length

theorem length_components (plan : Plan) (phase : Phase) :
    (plan.components phase).length = (plan.list.group phase.group).length := by
  simp only [components, ComponentList.charted, ComponentList.resolve]
  split <;> simp

theorem size_eq (plan : Plan) : plan.size = plan.list.entries.length := by
  have same : (plan.list.group .prerequisites).length + (plan.list.group .components).length =
      plan.list.entries.length := by
    rw [ComponentList.entries, List.length_append]
    rfl
  rw [size, length_components, length_components, ← same, Plan.phase, Plan.phase, firstPhase,
    secondPhase]
  cases plan.action with
  | install => rfl
  | uninstall => exact Nat.add_comm _ _

theorem workers_add (plan : Plan) :
    plan.workers plan.firstPhase + plan.workers plan.secondPhase =
      plan.workers .installComponents + 1 := by
  rw [firstPhase, secondPhase]
  cases plan.action with
  | install => exact Nat.add_comm _ _
  | uninstall => rfl

end Plan

namespace Run

variable {run : Run} {plan : Plan} {source : OverridesSource} {directory : Directory}
  {observed : Bool}
  (reached : Reaches step anyStep (start plan source directory observed) run)
include reached

theorem length_filter_calls (last : Bool) :
    (run.site.calls.filter (·.pool == last.toNat)).length ≤
      (plan.components (plan.phase last)).length := by
  have logged := logged_of_reaches reached
  cases found : run.site.pools[last.toNat]? with
  | none =>
    have none : run.site.calls.filter (·.pool == last.toNat) = [] := by
      refine List.filter_eq_nil_iff.mpr fun call member same => ?_
      have bound := logged.known call member
      rw [beq_iff_eq.mp same] at bound
      exact absurd bound (Nat.not_lt.mpr (List.getElem?_eq_none_iff.mp found))
    rw [none]
    exact Nat.zero_le _
  | some pool =>
    have onward := pool_of_phase reached found
    have listed := congrArg List.length (Pool.ledger_of_reaches onward).listed
    rw [List.length_append, Pool.jobs, List.length_mapIdx] at listed
    rw [← logged.taken found, List.length_map] at listed
    omega

/-- No more calls are made than there are components. -/
theorem length_calls_le : run.site.calls.length ≤ plan.size := by
  have inOrder := inOrder_of_reaches reached
  have first := length_filter_calls reached false
  have second := length_filter_calls reached true
  rw [calls_split inOrder.phases inOrder.known, List.length_append, Plan.size]
  exact Nat.add_le_add first second

end Run

namespace RunRehearsal

/-- Whether a deadline is still to come, as a number. -/
def ahead (now deadline : Nat) : Nat :=
  if now < deadline then 1 else 0

theorem ahead_le {now later : Nat} (behind : now ≤ later) (deadline : Nat) :
    ahead later deadline ≤ ahead now deadline := by
  unfold ahead
  split
  · rw [if_pos (by omega)]
  · exact Nat.zero_le _

def left (run : Run) (clock : Clock) : Nat :=
  2 * run.weight + (run.plan.size - run.site.calls.length) + clock.weight +
    ahead clock.now run.plan.settings.cancelTimeout.nanos +
    ahead clock.now run.plan.settings.quitTimeout.nanos

section
variable {script : Script} {run next : Run} {clock later : Clock} {label : Run.Label}

theorem length_calls_step (stepped : run.step label = some next) :
    run.site.calls.length ≤ next.site.calls.length := by
  rcases Run.calls_step stepped with same | ⟨index, i, pool, job, rest, -, -, -, -, began⟩
  · rw [same]
  · rw [began, List.length_append]
    exact Nat.le_add_right _ _

theorem left_step (stepped : run.step label = some next) (busy : Run.isBusy label = true)
    (now : later.now = clock.now) (fewer : later.weight ≤ clock.weight) :
    left next later < left run clock := by
  have less := Run.weight_step stepped
  have calls := length_calls_step stepped
  rw [busy, Bool.toNat_true] at less
  simp only [left, now, Run.plan_step stepped]
  omega

/-- The clock of a call costs no more than making the call takes off. -/
theorem left_take {index i : Nat} {pool : Pool} {job : Job} {rest : List Job}
    (stepped : run.step (.work index (.take i)) = some next)
    (found : run.site.pools[index]? = some pool) (taking : pool.workers[i]? = some .taking)
    (waiting : pool.queue = job :: rest) (now : later.now = clock.now)
    (more : later.weight ≤ clock.weight + 2)
    (bound : next.site.calls.length ≤ next.plan.size) : left next later < left run clock := by
  have less := Run.weight_step stepped
  have calls := congrArg List.length (Run.step_take found taking waiting stepped).1
  rw [List.length_append, List.length_singleton] at calls
  rw [Run.plan_step stepped] at bound
  have busy : Run.isBusy (.work index (.take i)) = true := rfl
  rw [busy, Bool.toNat_true] at less
  simp only [left, now, Run.plan_step stepped]
  omega

theorem left_turn {rehearsal : RunRehearsal} {index : Nat} {pool : Pool} {deeds : List Deed}
    (found : rehearsal.run.site.pools[index]? = some pool)
    (turn : Clock.Turn rehearsal.clock script index pool deeds later)
    (bound : (rehearsal.performDeeds deeds later).run.site.calls.length ≤
      (rehearsal.performDeeds deeds later).run.plan.size) :
    left (rehearsal.performDeeds deeds later).run (rehearsal.performDeeds deeds later).clock <
      left rehearsal.run rehearsal.clock := by
  rcases turn.deeds_cases with rfl | ⟨label, after, rfl, work, moved⟩
  · cases turn with
    | gather here gathering =>
      have less := Clock.weight_gather gathering
      exact Nat.add_lt_add_right (Nat.add_lt_add_right (Nat.add_lt_add_left (less _) _) _) _
  · have stepped := Run.step_of_move (.work work (Site.step_of_pool found moved))
    rw [performDeeds_of_step stepped] at bound ⊢
    cases turn with
    | check | leave | send | close => exact left_step stepped rfl rfl (Nat.le_refl _)
    | finish =>
      exact left_step stepped rfl rfl (Clock.weight_withoutStage_le rehearsal.clock index _)
    | take taking waiting =>
      exact left_take stepped found taking waiting rfl
        (Clock.weight_begin rehearsal.clock index _) bound

theorem left_wait {rehearsal : RunRehearsal} {timedOut : Bool} {instant : Nat}
    (upcoming : rehearsal.Upcoming timedOut instant)
    (cancelAt : rehearsal.cancelAt = rehearsal.run.plan.settings.cancelTimeout.nanos)
    (quitAt : rehearsal.quitAt = rehearsal.run.plan.settings.quitTimeout.nanos) :
    left rehearsal.run (rehearsal.clock.advance instant) < left rehearsal.run rehearsal.clock := by
  have later := upcoming.later
  have fewer := Clock.weight_advance_le rehearsal.clock instant
  have now : (rehearsal.clock.advance instant).now = instant := Nat.max_eq_right later.le
  have cancel := ahead_le later.le rehearsal.run.plan.settings.cancelTimeout.nanos
  have quit := ahead_le later.le rehearsal.run.plan.settings.quitTimeout.nanos
  have reached (deadline : Nat) (here : instant = deadline) :
      ahead instant deadline < ahead rehearsal.clock.now deadline := by
    rw [ahead, ahead, if_neg (by omega), if_pos (by omega)]
    exact Nat.zero_lt_one
  simp only [left, now]
  rcases upcoming.reason with pending | ⟨-, here⟩ | here
  · have less := Clock.weight_advance_lt pending
    omega
  · have less := reached _ (here.trans cancelAt)
    omega
  · have less := reached _ (here.trans quitAt)
    omega

end

variable {script : Script} {rehearsal next : RunRehearsal}

/-- Whatever happens leaves less to happen. -/
theorem Happens.left_lt (happens : Happens script rehearsal next)
    (bound : next.run.site.calls.length ≤ next.run.plan.size)
    (inTime : ∀ watch idle last, rehearsal.run.stage = .watching watch idle last →
      rehearsal.cancelAt = rehearsal.run.plan.settings.cancelTimeout.nanos ∧
      rehearsal.quitAt = rehearsal.run.plan.settings.quitTimeout.nanos) :
    left next.run next.clock < left rehearsal.run rehearsal.clock := by
  cases happens with
  | turn found turn => exact left_turn found turn bound
  | begin stepped | deliver stepped | conclude _ stepped =>
    exact left_step stepped rfl rfl (Nat.le_refl _)
  | look which stepped =>
    refine left_step stepped ?_ rfl (Nat.le_refl _)
    rcases which with rfl | rfl <;> rfl
  | @deadline watch last pool label next waits due stepped =>
    -- turning to the deadlines costs nothing
    have less : (rehearsal.run.resting watch last).weight ≤ rehearsal.run.weight :=
      Run.weight_step waits.pass
    have rested : left (rehearsal.run.resting watch last) rehearsal.clock ≤
        left rehearsal.run rehearsal.clock := by
      unfold left
      rw [Run.resting_plan, Run.resting_site]
      omega
    have busy : Run.isBusy label = true := by
      cases due with
      | cancel | quit => rfl
    exact Nat.lt_of_lt_of_le (left_step stepped busy rfl (Nat.le_refl _)) rested
  | wait waits none early going =>
    obtain ⟨cancelAt, quitAt⟩ := inTime _ _ _ waits.watching
    have less := left_wait (upcoming_nextInstant early going) cancelAt quitAt
    exact less

/-! ## The start -/

theorem left_start (plan : Plan) (source : OverridesSource) (directory : Directory)
    (observed : Bool) :
    left (Run.start plan source directory observed) {} ≤ stepBound plan := by
  have size := plan.size_eq
  have workers := plan.workers_add
  have weight : (Run.start plan source directory observed).weight ≤
      plan.cost plan.firstPhase + plan.cost plan.secondPhase + 15 + 0 + 2 := by
    have forwarding : (Delivery.start observed).weight ≤ 2 := by
      cases observed <;> decide
    exact Nat.add_le_add_left forwarding _
  have before (deadline : Nat) : ahead 0 deadline ≤ 1 := by
    unfold ahead
    split <;> omega
  have cancel := before plan.settings.cancelTimeout.nanos
  have quit := before plan.settings.quitTimeout.nanos
  simp only [Plan.size, Plan.phase, if_true, Bool.false_eq_true, if_false] at size
  simp only [Plan.cost] at weight
  change 2 * _ + (plan.size - 0) + 0 + ahead 0 plan.settings.cancelTimeout.nanos +
    ahead 0 plan.settings.quitTimeout.nanos ≤ _
  rw [stepBound, Plan.size]
  simp only [Plan.phase, if_true, Bool.false_eq_true, if_false]
  omega

end RunRehearsal

end Rollout
