import Rollout.Proofs.Run.Progress

/-! A run reports success for nothing less than all of its components, and does so wherever
nothing goes wrong. -/

set_option autoImplicit false

namespace Rollout.Run

variable {guard : Run → Label → Bool} {plan : Plan} {source : OverridesSource}
  {directory : Directory} {observed : Bool} {run : Run}

theorem plan_of_reaches (reached : Reaches step guard (start plan source directory observed) run) :
    run.plan = plan :=
  reached.invariant (·.plan = plan) rfl fun same _ stepped => (plan_step stepped).trans same

theorem logged_of_reaches
    (reached : Reaches step guard (start plan source directory observed) run) :
    run.site.Logged :=
  reached.invariant (·.site.Logged) (logged_start plan source directory observed)
    fun logged _ stepped => logged_step logged stepped

/-- The pools of both phases, where a run has come to a good end. -/
theorem finished_of_ok (reached : Reaches step guard (start plan source directory observed) run)
    (ok : run.stage = .closing (.ok ()) ∨ run.stage = .over (.ok ())) :
    ∃ first second, run.site.pools = [first, second] ∧
      plan.Finished plan.firstPhase first ∧ plan.Finished plan.secondPhase second := by
  have staged := staged_of_reaches reached
  rw [Staged, plan_of_reaches reached] at staged
  have finished : List.Forall₂ plan.Finished [plan.firstPhase, plan.secondPhase]
      run.site.pools := by
    rcases ok with here | here <;> rwa [here] at staged
  obtain ⟨first, rest, one, others, pools⟩ := List.forall₂_cons_left_iff.mp finished
  obtain ⟨second, none, two, nothing, same⟩ := List.forall₂_cons_left_iff.mp others
  rw [List.forall₂_nil_left_iff.mp nothing] at same
  exact ⟨first, second, by rw [pools, same], one, two⟩

/-- A run that reports success has handled every component of both groups. Where nothing goes
wrong it reports nothing else: it can go on to its end from every state, and apart from waiting
and changes of the files no run takes more steps than it weighs at the start. -/
theorem success_complete (plan : Plan) (source : OverridesSource) (directory : Directory)
    (observed : Bool) :
    (∀ run, Reaches step anyStep (start plan source directory observed) run →
      run.stage = .closing (.ok ()) ∨ run.stage = .over (.ok ()) →
      (∀ call ∈ run.site.calls, call.pool < 2) ∧
      ∀ group, ∃ last pool, (plan.phase last).group = group ∧
        ((plan.components (plan.phase last)).map fun component =>
          (component.name, component.releaseNamespace)).Perm (plan.list.resolve group) ∧
        run.site.Handled last.toNat plan.action (plan.components (plan.phase last)) pool) ∧
    (∀ run, Reaches step smooth (start plan source directory observed) run →
      (∀ result, run.stage = .closing result ∨ run.stage = .over result → result = .ok ()) ∧
      (run.readable = true →
        ∃ final, Reaches step smooth run final ∧ final.stage = .over (.ok ()))) ∧
    (∀ labels final, walk step anyStep labels (start plan source directory observed) = some final →
      labels.countP isBusy ≤ (start plan source directory observed).weight) := by
  refine ⟨fun run reached ok => ?complete, fun run reached => ?smooth,
    fun labels final walked => ?bound⟩
  case complete =>
    obtain ⟨first, second, pools, finished⟩ := finished_of_ok reached ok
    have logged := logged_of_reaches reached
    refine ⟨fun call member => by simpa [pools] using logged.known call member, fun group => ?_⟩
    obtain ⟨last, same⟩ := plan.exists_group group
    have names := plan.components_perm (plan.phase last)
    rw [same] at names
    have handled : ∃ pool, run.site.Handled last.toNat (plan.phase last).action
        (plan.components (plan.phase last)) pool := by
      cases last with
      | false => exact ⟨first, finished.1.handled logged (by rw [pools]; rfl)⟩
      | true => exact ⟨second, finished.2.handled logged (by rw [pools]; rfl)⟩
    rw [plan.action_phase] at handled
    obtain ⟨pool, handled⟩ := handled
    exact ⟨last, pool, same, names, handled⟩
  case smooth =>
    have calm := calm_of_reaches reached
    refine ⟨fun result here => ?_, calm.finishes⟩
    cases result with
    | ok => rfl
    | error error => exact absurd here (not_or.mpr (calm.well error))
  case bound => exact Nat.le_trans (Nat.le_add_right _ _) (countP_isBusy_le walked)

/-- One prerequisite and twice the same component, handled by two workers at a time. -/
theorem success_complete_three :
    let plan : Plan := {
      action := .install
      settings := { workers := 2 }
      list := {
        prerequisites := [{ name := "istio" }]
        components := [{ name := "dex" }, { name := "dex", releaseNamespace := some "auth" }] } }
    ∃ run, Reaches step smooth (start plan (.fresh {} none) {} true) run ∧
      run.stage = .over (.ok ()) ∧
      ∃ pool, run.site.Handled 1 .install (plan.components .installComponents) pool := by
  intro plan
  let enter (pool worker : Nat) : List Label :=
    [.work pool (.check worker), .work pool (.take worker)]
  let report (pool worker : Nat) : List Label :=
    [.work pool (.finish worker true), .work pool (.send worker), .receive]
  let tell : List Label := [.deliver .call, .deliver .returned]
  let labels : List Label :=
    [.begin] ++ enter 0 0 ++ report 0 0 ++ enter 0 0 ++ [.pass, .work 0 .close, .wake, .seeEnd] ++
      tell ++ [.begin] ++ enter 1 0 ++ enter 1 1 ++ report 1 1 ++ enter 1 1 ++ report 1 0 ++
      enter 1 0 ++ [.work 1 .close, .seeEnd] ++ tell ++ tell ++ tell ++ tell ++ tell ++ tell ++
      [.deliver .seeEnd, .deliver .drain, .conclude]
  have walked : (walk step smooth labels (start plan (.fresh {} none) {} true)).map (·.stage) =
      some (.over (.ok ())) := by decide +kernel
  obtain ⟨run, walked, returned⟩ := Option.map_eq_some_iff.mp walked
  have reached := reaches_of_walk walked
  obtain ⟨complete, -⟩ := success_complete plan (.fresh {} none) {} true
  obtain ⟨-, handled⟩ := complete run reached.anyStep (.inr returned)
  obtain ⟨last, pool, group, -, handled⟩ := handled .components
  cases last with
  | false => cases group
  | true => exact ⟨run, reached, returned, pool, handled⟩

end Rollout.Run
