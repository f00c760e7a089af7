import Rollout.Proofs.Components.Names
import Rollout.Proofs.Run.Order

/-! The releases that a run calls helm for. They are among those of its list, each at most once
for each time that it is listed, so that with an accepted list none is called for twice. -/

set_option autoImplicit false

namespace Rollout

open Text

namespace Plan

variable (plan : Plan)

theorem names_phase (last : Bool) : ((plan.components (plan.phase last)).map (·.name)).Perm
    ((plan.list.group (plan.phase last).group).map (·.name)) := by
  have whole := (plan.components_perm (plan.phase last)).map Prod.fst
  rwa [List.map_map, ComponentList.resolve, List.map_map] at whole

/-- The names of both phases are those of the list. -/
theorem names_perm : ((plan.components (plan.phase false) ++
    plan.components (plan.phase true)).map (·.name)).Perm plan.list.names := by
  rw [List.map_append]
  refine ((plan.names_phase false).append (plan.names_phase true)).trans ?_
  rw [ComponentList.names, ComponentList.entries, List.map_append]
  cases action : plan.action with
  | install => simp [phase, firstPhase, secondPhase, action, Phase.group, ComponentList.group]
  | uninstall =>
    simpa [phase, firstPhase, secondPhase, action, Phase.group, ComponentList.group] using
      List.perm_append_comm

end Plan

namespace Run

variable {run : Run} {guard : Run → Label → Bool} {plan : Plan} {source : OverridesSource}
  {directory : Directory} {observed : Bool}

def called (run : Run) : List String :=
  run.site.calls.map (·.job.component.name)

theorem called_sublist
    (reached : Reaches step guard (start plan source directory observed) run) :
    run.called.Sublist ((plan.components (plan.phase false) ++
      plan.components (plan.phase true)).map (·.name)) := by
  have inOrder := inOrder_of_reaches reached
  have listed (last : Bool) : ((run.site.calls.filter (·.pool == last.toNat)).map
      (·.job.component.name)).Sublist ((plan.components (plan.phase last)).map (·.name)) := by
    have names := (inOrder.listed last).sublist.map (·.component.name)
    rwa [List.map_map, Pool.map_component_jobs (·.name)] at names
  rw [called, calls_split inOrder.phases inOrder.known, List.map_append, List.map_append]
  exact (listed false).append (listed true)

theorem called_nodup (distinct : plan.list.names.Nodup)
    (reached : Reaches step guard (start plan source directory observed) run) :
    run.called.Nodup :=
  (plan.names_perm.nodup_iff.mpr distinct).sublist (called_sublist reached)

end Run

namespace ComponentList

/-- A list is accepted if no name in it is blank or there twice; otherwise the first name that
is tells the fault. No run with a list that was loaded calls helm twice for one release, however
often the client tries the command of a call. -/
theorem accepted_iff_distinct (list : ComponentList) :
    (list.validate = .ok () ↔
      (∀ name ∈ list.names, ∃ c ∈ name.toList, isBlank c = false) ∧ list.names.Nodup) ∧
    (∀ error, list.validate = .error error ↔ ∃ i name, FirstFault list.names i name ∧
      error = if allBlank name then .emptyName else .duplicate name) ∧
    ∀ directory path, load directory path = .ok list →
      ∀ action settings source files observed run,
        Reaches Run.step anyStep (Run.start ⟨action, settings, list⟩ source files observed) run →
        run.called.Nodup := by
  refine ⟨validate_eq_ok_iff.trans faultless_iff, fun _ => validate_eq_error_iff, ?_⟩
  intro directory path loaded action settings source files observed run reached
  have distinct := faultless_iff.mp (validate_eq_ok_iff.mp (validate_of_load loaded))
  exact Run.called_nodup distinct.2 reached

/-- Two names that differ in a blank at the end, removed together with a prerequisite. -/
theorem accepted_iff_distinct_blank :
    let list : ComponentList :=
      { prerequisites := [{ name := "istio" }], components := [{ name := "a" }, { name := "a " }] }
    let directory : Directory := ({} : Directory).put "c.yaml"
      "prerequisites:\n- name: istio\ncomponents:\n- name: a\n- name: 'a '\n".toUTF8.toList
    load directory "c.yaml" = .ok list ∧
    ∃ run,
      Reaches Run.step anyStep
        (Run.start ⟨.uninstall, { workers := 1 }, list⟩ (.fresh {} none) {} false) run ∧
      run.called = ["a ", "a", "istio"] ∧ run.called.Nodup := by
  intro list directory
  have loaded : load directory "c.yaml" = .ok list := by decide +kernel
  refine ⟨loaded, ?_⟩
  let handle (pool : Nat) : List Run.Label :=
    [.work pool (.check 0), .work pool (.take 0), .work pool (.finish 0 true),
      .work pool (.send 0), .receive]
  let labels : List Run.Label :=
    [.begin] ++ handle 0 ++ handle 0 ++
      [.work 0 (.check 0), .work 0 (.take 0), .work 0 .close, .seeEnd, .begin] ++ handle 1
  have walked : (walk Run.step anyStep labels
      (Run.start ⟨.uninstall, { workers := 1 }, list⟩ (.fresh {} none) {} false)).map (·.called) =
      some ["a ", "a", "istio"] := by decide +kernel
  obtain ⟨run, walked, called⟩ := Option.map_eq_some_iff.mp walked
  have reached := reaches_of_walk walked
  obtain ⟨-, -, once⟩ := accepted_iff_distinct list
  exact ⟨run, reached, called, once directory "c.yaml" loaded _ _ _ _ _ run reached⟩

end ComponentList

end Rollout
