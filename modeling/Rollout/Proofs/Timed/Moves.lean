import Rollout.Proofs.Run.Order
import Rollout.Timed

/-! The steps of runs with a clock, and what holds where nothing can happen at an instant. -/

set_option autoImplicit false

namespace Rollout.Timed

inductive Move (timing : Timing) (timed : Timed) : Label → Timed → Prop where
  | act {label : Run.Label} {next : Run} : timed.allows timing label = true →
      timed.run.step label = some next → Move timing timed (.act label) (timed.after label next)
  | tick : timed.isQuiet timing = true →
      Move timing timed .tick { timed with now := timed.now + 1 }

variable {timing : Timing} {timed next : Timed} {label : Label}

theorem move_of_step (stepped : timed.step timing label = some next) :
    Move timing timed label next := by
  cases label with
  | act label =>
    rw [step] at stepped
    split at stepped
    · obtain ⟨run, moved, rfl⟩ := Option.map_eq_some_iff.mp stepped
      exact .act ‹_› moved
    · cases stepped
  | tick =>
    rw [step] at stepped
    split at stepped <;> cases stepped
    exact .tick ‹_›

theorem step_of_move (move : Move timing timed label next) :
    timed.step timing label = some next := by
  cases move with
  | act allowed moved => simp [step, allowed, moved]
  | tick quiet => simp [step, quiet]

/-! ## A step of the run on the clock -/

section
variable (timed : Timed) (label : Run.Label) (next : Run)

@[simp] theorem after_run : (timed.after label next).run = next := by
  cases label <;> rfl

@[simp] theorem after_now : (timed.after label next).now = timed.now := by
  cases label <;> rfl

theorem after_since (pool position : Nat) : (timed.after label next).since pool position =
    if hasBegun timed.run next pool position then timed.now else timed.since pool position := by
  cases label <;> rfl

end

/-- The start of a call is noted when it begins, and stays as it is. -/
theorem since_step {label : Run.Label} {next : Run} (stepped : timed.run.step label = some next) :
    next.site.calls = timed.run.site.calls ∧ (timed.after label next).since = timed.since ∨
      ∃ call, next.site.calls = timed.run.site.calls ++ [call] ∧
        ∀ pool position, (timed.after label next).since pool position =
          if call.pool = pool ∧ call.job.position = position then timed.now
          else timed.since pool position := by
  rcases Run.calls_step stepped with same | ⟨index, i, pool, job, rest, -, -, -, -, began⟩
  · refine .inl ⟨same, ?_⟩
    funext pool position
    simp [after_since, hasBegun, same]
  · refine .inr ⟨_, began, fun pool position => ?_⟩
    simp [after_since, hasBegun, began]

theorem run_of_reaches {guard : Timed → Label → Bool} {plan : Plan} {source : OverridesSource}
    {directory : Directory} {observed : Bool}
    (reached : Reaches (step timing) guard (start plan source directory observed) timed) :
    Reaches Run.step anyStep (Run.start plan source directory observed) timed.run := by
  induction reached with
  | refl => exact .refl
  | tail _ follows ih =>
    obtain ⟨label, -, stepped⟩ := follows
    cases move_of_step stepped with
    | act _ moved =>
      rw [after_run]
      exact ih.tail ⟨_, rfl, moved⟩
    | tick => exact ih

/-! ## Where nothing can happen -/

theorem mem_candidates {run next : Run} {label : Run.Label}
    (stepped : run.step label = some next) (inside : ∀ change, label ≠ .edit change) :
    label ∈ candidates run := by
  cases Run.move_of_step stepped with
  | @work index label site work moved =>
    obtain ⟨pool, after, found, moved, -⟩ := Site.step_inv moved
    have member : .work index label ∈ attempts index pool := by
      have bound {i : Nat} {worker : Worker} (here : pool.workers[i]? = some worker) :
          i < pool.workers.length := (List.getElem?_eq_some_iff.mp here).1
      cases Pool.move_of_step moved with
      | leaveCancelled here | goOn here | leaveEmpty here | take here | lose here | send here =>
        simp [attempts, bound here]
      | @finish i job succeeded here => cases succeeded <;> simp [attempts, bound here]
      | close => simp [attempts]
      | receive | cancel | drop => cases work
    refine List.mem_append_right _ (List.mem_flatMap.mpr ⟨(pool, index), ?_, member⟩)
    exact List.mk_mem_zipIdx_iff_getElem?.mpr found
  | @deliver label => cases label <;> simp [candidates]
  | edit => exact absurd rfl (inside _)
  | _ => simp [candidates]

theorem still_of_quiet (quiet : timed.isQuiet timing = true) {label : Run.Label}
    (inside : ∀ change, label ≠ .edit change) (allowed : timed.allows timing label = true) :
    timed.run.step label = none := by
  cases stepped : timed.run.step label with
  | none => rfl
  | some next =>
    have silent := List.all_eq_true.mp quiet label (mem_candidates stepped inside)
    simp [allowed, stepped] at silent

end Rollout.Timed
