import Rollout.Proofs.Delivery.Handover
import Rollout.Proofs.Run.Alike
import Rollout.Proofs.Run.Progress

/-! What an observer hears of a run, and that it changes nothing: no other task waits for it
before the run is at its end, and then only until everything has been forwarded. -/

set_option autoImplicit false

namespace Rollout

namespace Run

def isOwn : Label → Bool
  | .deliver _ => false
  | _ => true

/-- The same, but for what has been sent and forwarded. -/
structure Likewise (run other : Run) : Prop where
  plan : other.plan = run.plan
  site : other.site = run.site
  stage : other.stage = run.stage

variable {run other next : Run} {label : Label} {labels : List Label}
  {guard : Run → Label → Bool}

theorem Likewise.step (likewise : run.Likewise other) (stepped : run.step label = some next)
    (undelivered : ∀ forward, label ≠ .deliver forward) (going : label ≠ .conclude) :
    ∃ later, other.step label = some later ∧ next.Likewise later := by
  obtain ⟨plan, site, stage, delivery⟩ := other
  obtain ⟨rfl, rfl, rfl⟩ := likewise
  obtain ⟨updates, shut, told⟩ := exists_told stepped undelivered going
  exact ⟨_, told delivery, rfl, rfl, rfl⟩

theorem likewise_deliver {forward : Delivery.Label}
    (stepped : run.step (.deliver forward) = some next) : run.Likewise next := by
  cases move_of_step stepped
  exact ⟨rfl, rfl, rfl⟩

/-- A run whose phases are over returns when its forwarding task has come to its end. -/
theorem Attended.concludes {result : Except RunError Unit} (attended : run.Attended)
    (closing : run.stage = .closing result) :
    ∃ labels later, walk step anyStep labels run = some later ∧
      labels.filter isOwn = [.conclude] ∧ later.plan = run.plan ∧ later.site = run.site ∧
      later.stage = .over result := by
  -- by induction on what is left to forward
  induction weight : run.delivery.weight using Nat.strongRecOn generalizing run with
  | ind bound ih =>
    obtain ⟨label, next, ⟨forward, rfl⟩ | rfl, stepped⟩ := attended.exists_closing_step closing
    · have kept := attended.keep stepped
      cases move_of_step stepped with
      | deliver moved =>
        have less := Delivery.weight_step moved
        obtain ⟨labels, later, walked, own, there⟩ := ih _ (weight ▸ less) kept closing rfl
        exact ⟨_ :: labels, later, walk_trans (walk_one stepped) walked, own, there⟩
    · refine ⟨[.conclude], next, walk_one stepped, rfl, ?_⟩
      cases move_of_step stepped with
      | conclude there =>
        cases closing.symm.trans there
        exact ⟨rfl, rfl, rfl⟩

/-- Runs that differ in their observers can take the same steps but for the forwarding. -/
theorem Likewise.exists_walk {final : Run} (likewise : run.Likewise other)
    (attended : other.Attended) (walked : walk Run.step guard labels run = some final) :
    ∃ answer later, walk Run.step anyStep answer other = some later ∧
      answer.filter isOwn = labels.filter isOwn ∧ final.Likewise later := by
  induction labels generalizing run other with
  | nil =>
    cases walked
    exact ⟨[], other, rfl, rfl, likewise⟩
  | cons label rest ih =>
    obtain ⟨next, -, stepped, walked⟩ := walk_cons walked
    -- what answers the first step
    have first : ∃ front middle, walk Run.step anyStep front other = some middle ∧
        front.filter isOwn = [label].filter isOwn ∧ next.Likewise middle := by
      cases label with
      | deliver forward =>
        obtain ⟨plan, site, stage⟩ := likewise_deliver stepped
        exact ⟨[], other, rfl, rfl, likewise.plan.trans plan.symm, likewise.site.trans site.symm,
          likewise.stage.trans stage.symm⟩
      | conclude =>
        cases move_of_step stepped with
        | conclude closing =>
          obtain ⟨front, middle, answered, own, plan, site, stage⟩ :=
            attended.concludes (likewise.stage.trans closing)
          exact ⟨front, middle, answered, own, plan.trans likewise.plan,
            site.trans likewise.site, stage⟩
      | _ =>
        obtain ⟨middle, answered, likewise⟩ :=
          likewise.step stepped (fun _ => Label.noConfusion) Label.noConfusion
        exact ⟨[_], middle, walk_one answered, rfl, likewise⟩
    obtain ⟨front, middle, answered, own, likewise⟩ := first
    have attended : middle.Attended := (reaches_of_walk answered).invariant Attended attended
      fun attended _ stepped => attended.keep stepped
    obtain ⟨answer, later, onward, same, there⟩ := ih likewise attended walked
    refine ⟨front ++ answer, later, walk_trans answered onward, ?_, there⟩
    rw [List.filter_append, own, same, ← List.filter_append]
    rfl

/-- The observer is called with the updates in the order in which they are sent. Sending is
possible at any time before the queue is closed, whatever the observer does. Whoever closes the
queue goes on when the observer has been called with everything, and it is not called again. That
comes about however the tasks take turns, and without an observer at once. With an observer and
without, a run can take the same steps to the same result and the same helm calls. -/
theorem observer_hears_all (plan : Plan) (source : OverridesSource) (directory : Directory)
    (observed : Bool) :
    (∀ labels handover,
      walk Handover.step anyStep labels (Handover.start observed) = some handover →
      handover.delivery.delivered <+: labels.filterMap Handover.sentBy ∧
      (handover.delivery.closed = false → ∀ update, handover.step (.send update) =
        some { handover with delivery := handover.delivery.send update }) ∧
      (handover.hasReturned = true → handover.delivery.isDone = true ∧
        (observed = true → handover.delivery.delivered = labels.filterMap Handover.sentBy) ∧
        ∀ later, Reaches Handover.step anyStep handover later →
          later.delivery.delivered = handover.delivery.delivered) ∧
      (handover.delivery.closed = true →
        (∀ rest later, walk Handover.step anyStep rest handover = some later →
          rest.length ≤ handover.weight) ∧
        (handover.hasReturned = false → ∃ label next, handover.step label = some next) ∧
        (observed = false → handover.hasReturned = false →
          (handover.signal.poll 0).2 = .ready))) ∧
    ∀ labels run, walk step anyStep labels (start plan source directory observed) = some run →
      ∃ answer other, walk step anyStep answer (start plan source directory !observed) =
          some other ∧
        answer.filter isOwn = labels.filter isOwn ∧ other.stage = run.stage ∧
        other.site = run.site := by
  refine ⟨fun labels handover walked => ?handover, fun labels run walked => ?alike⟩
  case handover =>
    have reached := reaches_of_walk walked
    have sound := Handover.sound_of_reaches reached
    have sent := Handover.sent_of_walk walked
    refine ⟨?order, fun opened update => Handover.step_of_move (.send opened),
      fun returned => ⟨sound.isDone returned, fun observing => ?all, fun later onward => ?last⟩,
      fun closed => ⟨fun rest later onward => ?bound, sound.exists_step closed,
        fun alone => sound.ready closed ((Handover.observed_of_reaches reached).trans alone)⟩⟩
    case order =>
      rw [sound.orderly.sent] at sent
      cases observed with
      | true => exact ⟨handover.delivery.queue, sent⟩
      | false =>
        rw [(List.append_eq_nil_iff.mp sent).1]
        exact List.nil_prefix
    case all =>
      rw [observing] at sent
      exact (sound.orderly.delivered_of_done (sound.isDone returned)).trans sent
    case last =>
      have kept := onward.invariant (fun later => later.Sound ∧ later.hasReturned = true ∧
        later.delivery = handover.delivery) ⟨sound, returned, rfl⟩ ?_
      · rw [kept.2.2]
      · rintro s t label ⟨sound, returned, same⟩ - stepped
        obtain ⟨ended, still⟩ := sound.returned_step returned stepped
        exact ⟨sound.step stepped, ended, still.trans same⟩
    case bound =>
      have less := Handover.length_walk closed onward
      omega
  case alike =>
    have likewise : (start plan source directory observed).Likewise
        (start plan source directory !observed) := ⟨rfl, rfl, rfl⟩
    obtain ⟨answer, other, walked, own, -, site, stage⟩ :=
      likewise.exists_walk (attended_start plan source directory !observed) walked
    exact ⟨answer, other, walked, own, stage, site⟩

/-- The queue is closed while the observer is still in its first call, and the task that closed it
falls asleep until it is woken behind the second call. A run that cannot read its overrides fails
with an observer, who hears of it, as it does without one. -/
theorem observer_hears_all_late :
    let first : Update := { phase := .installPrerequisites, event := .start }
    let second := Update.failed ⟨.installPrerequisites, .notStarted (.overrides (.refused "shut"))⟩
    let result := Except.error ⟨.installPrerequisites, .notStarted (.overrides (.refused "shut"))⟩
    (∃ handover, walk Handover.step anyStep [.send first, .receive, .call, .send second, .close,
        .wait (.look 0), .wait (.register 0), .wait (.lookAgain 0), .returned, .receive, .call,
        .returned, .seeEnd, .set, .wake, .wait (.awake 0)] (Handover.start true) = some handover ∧
      handover.hasReturned = true ∧ handover.delivery.delivered = [first, second]) ∧
    ∃ answer other, walk step anyStep answer
        (start ⟨.install, {}, {}⟩ (.broken "shut") {} false) = some other ∧
      answer.filter isOwn = [.begin, .conclude] ∧ other.stage = .over result := by
  intro first second result
  obtain ⟨heard, alike⟩ := observer_hears_all ⟨.install, {}, {}⟩ (.broken "shut") {} true
  constructor
  · have walked : (walk Handover.step anyStep [.send first, .receive, .call, .send second, .close,
        .wait (.look 0), .wait (.register 0), .wait (.lookAgain 0), .returned, .receive, .call,
        .returned, .seeEnd, .set, .wake, .wait (.awake 0)] (Handover.start true)).map
        (·.hasReturned) = some true := by decide +kernel
    obtain ⟨handover, walked, ended⟩ := Option.map_eq_some_iff.mp walked
    obtain ⟨-, -, returned, -⟩ := heard _ handover walked
    exact ⟨handover, walked, ended, (returned ended).2.1 rfl⟩
  · let labels : List Label := [.begin, .deliver .call, .deliver .returned, .deliver .call,
      .deliver .returned, .deliver .seeEnd, .deliver .drain, .conclude]
    have walked : (walk step anyStep labels
        (start ⟨.install, {}, {}⟩ (.broken "shut") {} true)).map (·.stage) =
        some (.over result) := by decide +kernel
    obtain ⟨run, walked, ended⟩ := Option.map_eq_some_iff.mp walked
    obtain ⟨answer, other, answered, own, same, -⟩ := alike labels run walked
    exact ⟨answer, other, answered, own, same.trans ended⟩

end Run

end Rollout
