import Rollout.Proofs.Rehearsal.Turns
import Rollout.Proofs.Run.Alike
import Rollout.Proofs.Run.Progress
import Rollout.Rehearsal.Run

/-! What happens next in a rehearsal, with all that makes it possible. Whatever happens is a step
of the run, or the clock going on. -/

set_option autoImplicit false

namespace Rollout

namespace RunRehearsal

variable {script : Script} {rehearsal next : RunRehearsal}

/-! ## Rehearsals are runs -/

theorem reaches_perform (rehearsal : RunRehearsal) (label : Run.Label) :
    Reaches Run.step anyStep rehearsal.run (rehearsal.perform label).run := by
  rw [perform]
  cases stepped : rehearsal.run.step label with
  | none => exact .refl
  | some next => exact .single ⟨label, rfl, stepped⟩

theorem reaches_performDeeds (rehearsal : RunRehearsal) (deeds : List Deed) (clock : Clock) :
    Reaches Run.step anyStep rehearsal.run (rehearsal.performDeeds deeds clock).run := by
  change Reaches Run.step anyStep rehearsal.run
    (deeds.foldl (fun rehearsal deed => rehearsal.perform (labelOf deed)) rehearsal).run
  induction deeds generalizing rehearsal with
  | nil => exact .refl
  | cons deed rest ih => exact (reaches_perform rehearsal (labelOf deed)).trans (ih _)

def nextDeadline (rehearsal : RunRehearsal) (timedOut : Bool) : Nat :=
  if timedOut then rehearsal.quitAt else min rehearsal.cancelAt rehearsal.quitAt

def nextInstant (rehearsal : RunRehearsal) (timedOut : Bool) : Nat :=
  match rehearsal.clock.nextInstant? with
  | some instant => min instant (rehearsal.nextDeadline timedOut)
  | none => rehearsal.nextDeadline timedOut

theorem watch_eq (rehearsal : RunRehearsal) (pool : Pool) (timedOut : Bool) :
    rehearsal.watch pool timedOut =
      if !pool.channel.isEmpty then rehearsal.perform .receive
      else if pool.closed then rehearsal.perform .seeEnd
      else if !timedOut && rehearsal.cancelAt ≤ rehearsal.clock.now then
        (rehearsal.perform .pass).perform .cancelDeadline
      else if rehearsal.quitAt ≤ rehearsal.clock.now then
        (rehearsal.perform .pass).perform .quitDeadline
      else { rehearsal with clock := rehearsal.clock.advance (rehearsal.nextInstant timedOut) } :=
  rfl

theorem reaches_watch (rehearsal : RunRehearsal) (pool : Pool) (timedOut : Bool) :
    Reaches Run.step anyStep rehearsal.run (rehearsal.watch pool timedOut).run := by
  rw [watch_eq]
  split
  · exact reaches_perform rehearsal .receive
  · split
    · exact reaches_perform rehearsal .seeEnd
    · split
      · exact (reaches_perform rehearsal .pass).trans (reaches_perform _ .cancelDeadline)
      · split
        · exact (reaches_perform rehearsal .pass).trans (reaches_perform _ .quitDeadline)
        · exact .refl

theorem reaches_step (stepped : rehearsal.step script = some next) :
    Reaches Run.step anyStep rehearsal.run next.run := by
  unfold step at stepped
  split at stepped
  · cases stepped
    exact reaches_performDeeds rehearsal _ _
  · split at stepped
    · cases stepped
      exact reaches_perform rehearsal .begin
    · split at stepped <;> cases stepped
      exact reaches_watch rehearsal _ _
    · split at stepped <;> cases stepped
      · obtain ⟨label, -, moved⟩ := List.exists_of_findSome?_eq_some ‹_›
        obtain ⟨run, stepped, rfl⟩ := Option.map_eq_some_iff.mp moved
        exact .single ⟨.deliver label, rfl, stepped⟩
      · exact reaches_perform rehearsal .conclude
    · split at stepped
      · cases stepped
        exact .refl
      · split at stepped <;> cases stepped
        exact .refl

theorem reaches_play (script : Script) (fuel : Nat) (rehearsal : RunRehearsal) :
    Reaches Run.step anyStep rehearsal.run (play script fuel rehearsal).run := by
  induction fuel generalizing rehearsal with
  | zero => exact .refl
  | succ fuel ih =>
    rw [play]
    split
    · rename_i next stepped
      exact (reaches_step stepped).trans (ih next)
    · exact .refl

/-- What is rehearsed is one of the runs that there can be. -/
theorem reaches_ofPlan (script : Script) (plan : Plan) (source : OverridesSource)
    (directory : Directory) (observed : Bool) :
    Reaches Run.step anyStep (Run.start plan source directory observed)
      (ofPlan script plan source directory observed).run :=
  reaches_play script (stepBound plan) { run := Run.start plan source directory observed }

end RunRehearsal

/-! ## The next thing to happen -/

namespace Run

variable {run next : Run} {label : Label}

structure Sound (run : Run) : Prop where
  staged : run.Staged
  attended : run.Attended
  readable : run.readable = true
  awake : run.stage.awake = run.stage

theorem sound_start (plan : Plan) (source : OverridesSource) (directory : Directory)
    (observed : Bool) (able : (start plan source directory observed).readable = true) :
    (start plan source directory observed).Sound where
  staged := staged_start plan source directory observed
  attended := attended_start plan source directory observed
  readable := able
  awake := rfl

theorem awake_afterPhase (run : Run) (phase : Phase) (last : Bool) (outcome : Watch.Outcome) :
    (run.afterPhase phase last outcome).stage.awake =
      (run.afterPhase phase last outcome).stage := by
  rcases outcome with _ | failure <;> cases last <;> rfl

theorem awake_step (stepped : run.step label = some next) (passing : label ≠ .pass)
    (awake : run.stage.awake = run.stage ∨ label = .cancelDeadline ∨ label = .quitDeadline) :
    next.stage.awake = next.stage := by
  cases move_of_step stepped with
  | seeEnd => exact awake_afterPhase _ _ _ _
  | pass => exact absurd rfl passing
  | work | deliver | edit => exact awake.resolve_right (by simp)
  | opened | refused | receive | wake | cancelDeadline | quitDeadline | conclude => rfl

theorem Sound.keep (sound : run.Sound) (stepped : run.step label = some next)
    (inside : ∀ change, label ≠ .edit change) (passing : label ≠ .pass) : next.Sound where
  staged := sound.staged.keep stepped
  attended := sound.attended.keep stepped
  readable := sound.staged.readable_step stepped inside sound.readable
  awake := awake_step stepped passing (.inl sound.awake)

/-- The watcher looks at the channel of the latest pool and finds nothing. -/
structure Waits (run : Run) (watch : Watch) (last : Bool) (pool : Pool) : Prop where
  watching : run.stage = .watching watch false last
  found : run.site.pools[run.current]? = some pool
  empty : pool.channel = []
  opened : pool.closed = false

def resting (run : Run) (watch : Watch) (last : Bool) : Run :=
  { run with stage := .watching watch true last }

@[simp] theorem resting_plan (run : Run) (watch : Watch) (last : Bool) :
    (run.resting watch last).plan = run.plan := rfl
@[simp] theorem resting_site (run : Run) (watch : Watch) (last : Bool) :
    (run.resting watch last).site = run.site := rfl

theorem Waits.pass {watch : Watch} {last : Bool} {pool : Pool} (waits : run.Waits watch last pool) :
    run.step .pass = some (run.resting watch last) :=
  step_of_move (.pass waits.watching waits.found waits.empty waits.opened)

theorem Sound.deadline {watch : Watch} {last : Bool} {pool : Pool} (sound : run.Sound)
    (waits : run.Waits watch last pool) (stepped : (run.resting watch last).step label = some next)
    (which : label = .cancelDeadline ∨ label = .quitDeadline) : next.Sound := by
  have inside (change : Directory → Directory) : label ≠ .edit change := by
    rcases which with rfl | rfl <;> simp
  have passing : label ≠ .pass := by
    rcases which with rfl | rfl <;> simp
  exact {
    staged := (sound.staged.keep waits.pass).keep stepped
    attended := (sound.attended.keep waits.pass).keep stepped
    readable := (sound.staged.keep waits.pass).readable_step stepped inside
      (sound.staged.readable_step waits.pass (by simp) sound.readable)
    awake := awake_step stepped passing (.inr which) }

end Run

namespace RunRehearsal

structure Upcoming (rehearsal : RunRehearsal) (timedOut : Bool) (instant : Nat) : Prop where
  later : rehearsal.clock.now < instant
  pending : ∀ ends, rehearsal.clock.Pending ends → instant ≤ ends
  cancel : timedOut = false → instant ≤ rehearsal.cancelAt
  quit : instant ≤ rehearsal.quitAt
  reason : rehearsal.clock.Pending instant ∨ timedOut = false ∧ instant = rehearsal.cancelAt ∨
    instant = rehearsal.quitAt

/-- A deadline that has passed is looked at, the first one before the second. -/
inductive Due (rehearsal : RunRehearsal) (watch : Watch) : Run.Label → Prop where
  | cancel : watch.timedOut = false → rehearsal.cancelAt ≤ rehearsal.clock.now →
      Due rehearsal watch .cancelDeadline
  | quit : (watch.timedOut = false → rehearsal.clock.now < rehearsal.cancelAt) →
      rehearsal.quitAt ≤ rehearsal.clock.now → Due rehearsal watch .quitDeadline

inductive Happens (script : Script) (rehearsal : RunRehearsal) : RunRehearsal → Prop where
  | turn {index : Nat} {pool : Pool} {deeds : List Deed} {clock : Clock} :
      rehearsal.run.site.pools[index]? = some pool →
      Clock.Turn rehearsal.clock script index pool deeds clock →
      Happens script rehearsal (rehearsal.performDeeds deeds clock)
  | begin {next : Run} : rehearsal.run.step .begin = some next →
      Happens script rehearsal { rehearsal with
        run := next
        cancelAt := rehearsal.clock.now +
          (rehearsal.run.plan.settings.cancelTimeout.nanos - rehearsal.clock.now)
        quitAt := rehearsal.clock.now +
          (rehearsal.run.plan.settings.quitTimeout.nanos - rehearsal.clock.now) }
  | look {label : Run.Label} {next : Run} : label = .receive ∨ label = .seeEnd →
      rehearsal.run.step label = some next → Happens script rehearsal { rehearsal with run := next }
  | deadline {watch : Watch} {last : Bool} {pool : Pool} {label : Run.Label} {next : Run} :
      rehearsal.run.Waits watch last pool → rehearsal.Due watch label →
      (rehearsal.run.resting watch last).step label = some next →
      Happens script rehearsal { rehearsal with run := next }
  | wait {watch : Watch} {last : Bool} {pool : Pool} : rehearsal.run.Waits watch last pool →
      rehearsal.clock.next script rehearsal.run.site = none →
      (watch.timedOut = false → rehearsal.clock.now < rehearsal.cancelAt) →
      rehearsal.clock.now < rehearsal.quitAt →
      Happens script rehearsal { rehearsal with
        clock := rehearsal.clock.advance (rehearsal.nextInstant watch.timedOut) }
  | deliver {label : Delivery.Label} {next : Run} :
      rehearsal.run.step (.deliver label) = some next →
      Happens script rehearsal { rehearsal with run := next }
  | conclude {result : Except RunError Unit} {next : Run} :
      rehearsal.run.stage = .closing result → rehearsal.run.step .conclude = some next →
      Happens script rehearsal { rehearsal with
        run := next, returnedAt := some rehearsal.clock.now }

variable {script : Script} {rehearsal next : RunRehearsal}

theorem upcoming_nextInstant {timedOut : Bool}
    (early : timedOut = false → rehearsal.clock.now < rehearsal.cancelAt)
    (going : rehearsal.clock.now < rehearsal.quitAt) :
    rehearsal.Upcoming timedOut (rehearsal.nextInstant timedOut) := by
  obtain ⟨deadline, same, later, cancel, quit, reason⟩ : ∃ deadline,
      rehearsal.nextDeadline timedOut = deadline ∧ rehearsal.clock.now < deadline ∧
      (timedOut = false → deadline ≤ rehearsal.cancelAt) ∧ deadline ≤ rehearsal.quitAt ∧
      (timedOut = false ∧ deadline = rehearsal.cancelAt ∨ deadline = rehearsal.quitAt) := by
    refine ⟨_, rfl, ?_⟩
    cases timedOut with
    | true => simpa [nextDeadline] using going
    | false =>
      have early := early rfl
      simp only [nextDeadline, Bool.false_eq_true, if_false, true_and, forall_const]
      omega
  cases first : rehearsal.clock.nextInstant? with
  | none =>
    have here : rehearsal.nextInstant timedOut = deadline := by rw [nextInstant, first, same]
    rw [here]
    exact ⟨later, fun ends pending => absurd pending (Clock.not_pending_of_nextInstant first),
      cancel, quit, .inr reason⟩
  | some instant =>
    obtain ⟨pending, least⟩ := Clock.pending_of_nextInstant first
    have here : rehearsal.nextInstant timedOut = min instant deadline := by
      rw [nextInstant, first, same]
    rw [here]
    constructor
    case later => exact Nat.lt_min.mpr ⟨pending.1, later⟩
    case pending =>
      intro ends pending
      exact Nat.le_trans (Nat.min_le_left _ _) (least ends pending)
    case cancel =>
      intro prompt
      exact Nat.le_trans (Nat.min_le_right _ _) (cancel prompt)
    case quit => exact Nat.le_trans (Nat.min_le_right _ _) quit
    case reason =>
      rcases Nat.le_total instant deadline with before | behind
      · rw [Nat.min_eq_left before]
        exact .inl pending
      · rw [Nat.min_eq_right behind]
        exact .inr reason

theorem perform_of_step {label : Run.Label} {next : Run}
    (stepped : rehearsal.run.step label = some next) :
    rehearsal.perform label = { rehearsal with run := next } := by
  rw [perform, stepped, Option.getD_some]

theorem performDeeds_of_step {deed : Deed} {clock : Clock} {next : Run}
    (stepped : rehearsal.run.step (labelOf deed) = some next) :
    rehearsal.performDeeds [deed] clock =
      { rehearsal with run := next, clock := clock.counting next.site } := by
  rw [performDeeds, List.foldl_cons, List.foldl_nil, perform_of_step stepped]

theorem happens_of_watch {watch : Watch} {last : Bool} (sound : rehearsal.run.Sound)
    (watching : rehearsal.run.stage = .watching watch false last)
    (none : rehearsal.clock.next script rehearsal.run.site = none) :
    ∃ pool, rehearsal.run.site.pools[rehearsal.run.current]? = some pool ∧
      Happens script rehearsal (rehearsal.watch pool watch.timedOut) := by
  have staged := sound.staged
  rw [Run.Staged, watching] at staged
  obtain ⟨done, pool, pools, watched⟩ := staged
  have found : rehearsal.run.site.pools[rehearsal.run.current]? = some pool := by
    rw [Run.current_eq pools, pools, List.getElem?_concat_length]
  refine ⟨pool, found, ?_⟩
  rw [watch_eq]
  cases waiting : pool.channel with
  | cons job rest =>
    have moved := Site.step_of_pool found
      (Pool.step_of_move (.receive watched.sees.listening waiting))
    have received := Run.step_of_move (.receive watching found waiting moved)
    rw [if_pos (by simp), perform_of_step received]
    exact .look (.inl rfl) received
  | nil =>
    rw [if_neg (by simp)]
    cases shut : pool.closed with
    | true =>
      have ended := Run.step_of_move (.seeEnd watching found waiting shut)
      rw [if_pos rfl, perform_of_step ended]
      exact .look (.inr rfl) ended
    | false =>
      rw [if_neg Bool.false_ne_true]
      have waits : rehearsal.run.Waits watch last pool := ⟨watching, found, waiting, shut⟩
      have resting : (rehearsal.run.resting watch last).stage = .watching watch true last := rfl
      rw [perform_of_step waits.pass]
      split
      · rename_i due
        simp only [Bool.and_eq_true, Bool.not_eq_true', decide_eq_true_eq] at due
        obtain ⟨next, stepped⟩ := Run.exists_cancel resting due.1 found
        rw [perform_of_step stepped]
        exact .deadline waits (.cancel due.1 due.2) stepped
      · rename_i early
        simp only [Bool.and_eq_true, Bool.not_eq_true', decide_eq_true_eq, not_and,
          Nat.not_le] at early
        split
        · rename_i late
          obtain ⟨next, stepped⟩ := Run.exists_quit resting watched.sees.listening found
          rw [perform_of_step stepped]
          exact .deadline waits (.quit early late) stepped
        · exact .wait waits none early (Nat.not_le.mp ‹_›)

theorem happens_of_closing (script : Script) {result : Except RunError Unit}
    (sound : rehearsal.run.Sound) (closing : rehearsal.run.stage = .closing result) :
    (∃ next, rehearsal.forward? = some next ∧ Happens script rehearsal next) ∨
      rehearsal.forward? = none ∧ Happens script rehearsal
        { rehearsal.perform .conclude with returnedAt := some rehearsal.clock.now } := by
  cases forwarded : rehearsal.forward? with
  | some next =>
    obtain ⟨label, -, moved⟩ := List.exists_of_findSome?_eq_some forwarded
    obtain ⟨run, stepped, rfl⟩ := Option.map_eq_some_iff.mp moved
    exact .inl ⟨_, rfl, .deliver stepped⟩
  | none =>
    refine .inr ⟨rfl, ?_⟩
    obtain ⟨label, next, ⟨forward, rfl⟩ | rfl, stepped⟩ :=
      sound.attended.exists_closing_step closing
    · have silent := List.findSome?_eq_none_iff.mp forwarded forward (by cases forward <;> simp)
      rw [stepped] at silent
      cases silent
    · rw [perform_of_step stepped]
      exact .conclude closing stepped

/-- Before a run has returned, something happens next. -/
theorem exists_happens (plain : script.Plain) (sound : rehearsal.run.Sound)
    (going : ∀ result, rehearsal.run.stage ≠ .over result) :
    ∃ next, rehearsal.step script = some next ∧ Happens script rehearsal next := by
  unfold step
  cases picked : rehearsal.clock.next script rehearsal.run.site with
  | some picked' =>
    obtain ⟨deeds, clock⟩ := picked'
    obtain ⟨index, pool, found, turn⟩ := Clock.turn_of_next plain picked
    exact ⟨_, rfl, .turn found turn⟩
  | none =>
    rcases stage : rehearsal.run.stage with ⟨phase, last⟩ | ⟨watch, idle, last⟩ | result | result
    · have begun : rehearsal.run.step .begin = some (rehearsal.run.beginPhase phase last) := by
        rw [Run.step, stage]
      refine ⟨_, rfl, ?_⟩
      rw [beginPhase, perform_of_step begun]
      exact .begin begun
    · have awake := sound.awake
      rw [stage] at awake
      cases awake
      obtain ⟨pool, found, happens⟩ := happens_of_watch sound stage picked
      rw [found]
      exact ⟨_, rfl, happens⟩
    · rcases happens_of_closing script sound stage with
        ⟨next, forwarded, happens⟩ | ⟨silent, happens⟩
      · rw [forwarded]
        exact ⟨next, rfl, happens⟩
      · rw [silent]
        exact ⟨_, rfl, happens⟩
    · exact absurd stage (going result)

theorem sound_turn {index : Nat} {pool : Pool} {deeds : List Deed} {clock : Clock}
    (sound : rehearsal.run.Sound) (found : rehearsal.run.site.pools[index]? = some pool)
    (turn : Clock.Turn rehearsal.clock script index pool deeds clock) :
    (rehearsal.performDeeds deeds clock).run.Sound := by
  rcases turn.deeds_cases with rfl | ⟨label, after, rfl, work, moved⟩
  · exact sound
  · have stepped := Run.step_of_move (.work work (Site.step_of_pool found moved))
    rw [performDeeds_of_step stepped]
    exact sound.keep stepped (by simp) (by simp)

theorem Happens.sound (sound : rehearsal.run.Sound) (happens : Happens script rehearsal next) :
    next.run.Sound := by
  cases happens with
  | turn found turn => exact sound_turn sound found turn
  | begin stepped | deliver stepped | conclude _ stepped =>
    exact sound.keep stepped (by simp) (by simp)
  | look which stepped =>
    refine sound.keep stepped ?_ ?_
    all_goals rcases which with rfl | rfl <;> simp
  | deadline waits due stepped =>
    refine sound.deadline waits stepped ?_
    cases due with
    | cancel => exact .inl rfl
    | quit => exact .inr rfl
  | wait => exact sound

end RunRehearsal

end Rollout
