import Rollout.Proofs.Run.Stages

/-! What the success of a run says: every component of both groups has been handled, by one
helm call each, and nothing was left out or cut short. -/

set_option autoImplicit false

namespace Rollout

namespace Site

/-- The calls on record are those of the pools. -/
structure Logged (site : Site) : Prop where
  known : ∀ call ∈ site.calls, call.pool < site.pools.length
  taken : ∀ {index : Nat} {pool : Pool}, site.pools[index]? = some pool →
    (site.calls.filter (·.pool == index)).map (·.job) = pool.taken
  kind : ∀ {call : Call} {pool : Pool}, call ∈ site.calls → site.pools[call.pool]? = some pool →
    (call.values.isSome = true ↔ pool.action = .install)

variable {site next : Site} {index : Nat} {label : Pool.Label} {pool after : Pool}

theorem of_newCall {call : Call} (called : site.newCall? index pool label = some call) :
    call.pool = index ∧ (call.values.isSome = true ↔ pool.action = .install) := by
  unfold newCall? at called
  split at called
  · split at called <;> cases called
    refine ⟨rfl, ?_⟩
    cases same : pool.action <;> simp [callFor, same]
  · cases called

theorem taken_newCall (site : Site) (index : Nat) (moved : pool.step label = some after) :
    after.taken = pool.taken ++ (site.newCall? index pool label).toList.map (·.job) := by
  cases Pool.move_of_step moved with
  | take found waiting => simp [newCall?, found, waiting, callFor]
  | leaveEmpty found empty => simp [newCall?, found, empty]
  | _ => simp [newCall?]

-- A call is recorded with the job that is taken, and in no other step.
theorem Logged.step (logged : site.Logged) (stepped : site.step index label = some next) :
    next.Logged := by
  obtain ⟨pool, after, found, moved, rfl⟩ := step_inv stepped
  have sameAction := (Pool.frame_step moved).1
  obtain ⟨bound, -⟩ := List.getElem?_eq_some_iff.mp found
  constructor
  case known =>
    intro call member
    rw [List.length_set]
    rcases List.mem_append.mp member with old | new
    · exact logged.known call old
    · rw [(of_newCall (Option.mem_toList.mp new)).1]
      exact bound
  case taken =>
    intro other otherPool there
    rw [List.filter_append, List.map_append]
    by_cases same : index = other
    · subst same
      rw [List.getElem?_set_self bound] at there
      cases there
      have mine : (site.newCall? index pool label).toList.filter (·.pool == index) =
          (site.newCall? index pool label).toList := by
        refine List.filter_eq_self.mpr fun call member => beq_iff_eq.mpr ?_
        exact (of_newCall (Option.mem_toList.mp member)).1
      rw [logged.taken found, mine, taken_newCall site index moved]
    · rw [List.getElem?_set_ne same] at there
      have others : (site.newCall? index pool label).toList.filter (·.pool == other) = [] := by
        refine List.filter_eq_nil_iff.mpr fun call member => ?_
        rw [(of_newCall (Option.mem_toList.mp member)).1, beq_iff_eq]
        exact same
      rw [logged.taken there, others, List.map_nil, List.append_nil]
  case kind =>
    intro call otherPool member there
    rcases List.mem_append.mp member with old | new
    · by_cases same : index = call.pool
      · rw [← same, List.getElem?_set_self bound] at there
        cases there
        rw [sameAction]
        exact logged.kind old (same ▸ found)
      · rw [List.getElem?_set_ne same] at there
        exact logged.kind old there
    · obtain ⟨mine, kind⟩ := of_newCall (Option.mem_toList.mp new)
      rw [mine, List.getElem?_set_self bound] at there
      cases there
      rw [sameAction]
      exact kind

theorem Logged.openPool {action : Action} {workers : Nat} {components : List Component}
    (logged : site.Logged) (opened : site.openPool action workers (.ok components) = .ok next) :
    next.Logged := by
  obtain ⟨source, rfl, -⟩ := openPool_inv opened
  constructor
  case known =>
    intro call member
    have known := logged.known call member
    rw [List.length_append, List.length_singleton]
    omega
  case taken =>
    intro index pool there
    rcases Nat.lt_or_ge index site.pools.length with old | new
    · rw [List.getElem?_append_left old] at there
      exact logged.taken there
    · obtain ⟨bound, rfl⟩ := List.getElem?_eq_some_iff.mp there
      rw [List.length_append, List.length_singleton] at bound
      obtain rfl : index = site.pools.length := by omega
      have none : site.calls.filter (·.pool == site.pools.length) = [] := by
        refine List.filter_eq_nil_iff.mpr fun call member => ?_
        rw [beq_iff_eq]
        exact Nat.ne_of_lt (logged.known call member)
      simp [none, Pool.start_eq]
  case kind =>
    intro call pool member there
    rw [List.getElem?_append_left (logged.known call member)] at there
    exact logged.kind member there

theorem Logged.edit (logged : site.Logged) (change : Directory → Directory) :
    (site.edit change).Logged where
  known := logged.known
  taken := logged.taken
  kind := logged.kind

end Site

theorem Run.logged_start (plan : Plan) (source : OverridesSource) (directory : Directory)
    (observed : Bool) : (Run.start plan source directory observed).site.Logged := by
  constructor <;> simp [start]

theorem Run.logged_step {run next : Run} {label : Label} (logged : run.site.Logged)
    (stepped : run.step label = some next) : next.site.Logged := by
  cases move_of_step stepped with
  | opened _ opened => exact logged.openPool opened
  | work _ moved => exact logged.step moved
  | receive _ _ _ moved => exact logged.step moved
  | seeEnd => simpa using logged
  | cancelDeadline _ _ moved => exact logged.step moved
  | quitDeadline _ first second => exact (logged.step first).step second
  | edit => exact logged.edit _
  | refused | pass | wake | deliver | conclude => exact logged

/-! ## What is behind a phase that ended well -/

/-- A list of components has been handled by a pool, whose index tells its calls apart. -/
structure Site.Handled (site : Site) (index : Nat) (action : Action)
    (components : List Component) (pool : Pool) : Prop where
  found : site.pools[index]? = some pool
  /-- One call for each place in the list. -/
  calls : (site.calls.filter (·.pool == index)).map (·.job) = Pool.jobs components
  kind : ∀ call ∈ site.calls, call.pool = index →
    (call.values.isSome = true ↔ action = .install)
  /-- All of them have ended, and well. -/
  underWay : pool.underWay = 0
  ended : pool.ended.Perm ((Pool.jobs components).map (Pool.settle action · true))
  received : pool.received.Perm ((Pool.jobs components).map (Pool.settle action · true))
  running : pool.cancelled = false

namespace Plan.Finished

variable {plan : Plan} {phase : Phase} {pool : Pool} (finished : plan.Finished phase pool)
include finished

theorem taken : pool.taken = Pool.jobs (plan.components phase) :=
  finished.ledger.taken_eq finished.closed finished.listening finished.running

theorem ended_received : pool.ended.Perm pool.received := by
  have sent := finished.ledger.ended_sent finished.closed finished.listening
  rwa [finished.drained, List.append_nil] at sent

-- The watcher has seen the status of every job, and none of them was an error.
theorem ended_well : pool.ended.map (Pool.settle phase.action · true) = pool.ended := by
  refine (List.map_congr_left fun job member => ?_).trans (List.map_id _)
  obtain ⟨succeeded, status⟩ := finished.ledger.ended_status job member
  have well := finished.clean job (finished.ended_received.mem_iff.mp member)
  cases succeeded with
  | false => exact absurd status well
  | true => rw [Pool.settle, ← status, id]

theorem ended : pool.ended.Perm
    ((Pool.jobs (plan.components phase)).map (Pool.settle phase.action · true)) := by
  have calls := finished.ledger.calls
  rwa [(finished.ledger.no_hands finished.closed finished.listening).1, List.nil_append,
    finished.ended_well, finished.taken] at calls

theorem underWay : pool.underWay = 0 := by
  refine List.countP_eq_zero.mpr fun worker member => ?_
  rw [finished.ledger.all_gone finished.closed finished.listening worker member]
  exact Bool.false_ne_true

theorem handled {site : Site} {index : Nat} (logged : site.Logged)
    (found : site.pools[index]? = some pool) :
    site.Handled index phase.action (plan.components phase) pool where
  found := found
  calls := (logged.taken found).trans finished.taken
  kind call member mine := by
    rw [← finished.ledger.action_eq]
    exact logged.kind member (mine ▸ found)
  underWay := finished.underWay
  ended := finished.ended
  received := finished.ended_received.symm.trans finished.ended
  running := finished.running

end Plan.Finished

namespace Plan

variable (plan : Plan)

@[simp] theorem action_phase (last : Bool) : (plan.phase last).action = plan.action := by
  cases last <;> cases same : plan.action <;> simp [phase, firstPhase, secondPhase, same] <;> rfl

theorem exists_group (group : Group) : ∃ last, (plan.phase last).group = group := by
  cases same : plan.action <;> cases group
  case install.prerequisites | uninstall.components =>
    exact ⟨false, by simp [phase, firstPhase, same, Phase.group]⟩
  case install.components | uninstall.prerequisites =>
    exact ⟨true, by simp [phase, secondPhase, same, Phase.group]⟩

theorem components_perm (phase : Phase) :
    ((plan.components phase).map fun component => (component.name, component.releaseNamespace)).Perm
      (plan.list.resolve phase.group) := by
  rw [components, ComponentList.charted]
  split
  · rw [List.map_reverse]
    exact (List.reverse_perm _).trans (by simp [List.map_map, Function.comp_def])
  · simp [List.map_map, Function.comp_def]

end Plan

end Rollout
