import Rollout.Proofs.Pool.Serial
import Rollout.Proofs.Run.Endings
import Rollout.Proofs.Run.Success

/-! The order of helm calls. The phases of a run do not overlap, and the second one begins when
all of the first has been done. -/

set_option autoImplicit false

namespace Rollout

def Job.release (job : Job) : String × String :=
  (job.component.name, job.component.releaseNamespace)

namespace Plan

variable (plan : Plan)

def pool (last : Bool) : Pool :=
  Pool.start (plan.phase last).action (plan.workers (plan.phase last))
    (plan.components (plan.phase last))

/-- All pools of a run but the latest belong to phases that ended well. -/
inductive Opened : List Pool → Prop where
  | behind {last : Bool} {done : List Pool} :
      List.Forall₂ plan.Finished (plan.before last) done → Opened done
  | latest {last : Bool} {done : List Pool} {pool : Pool} :
      List.Forall₂ plan.Finished (plan.before last) done → Opened (done ++ [pool])

/-- The components of a phase are those of its group, in order or in reverse. -/
theorem components_listed (last : Bool) :
    (Pool.jobs (plan.components (plan.phase last))).map Job.release =
    match plan.action with
    | .install => plan.list.resolve (plan.phase last).group
    | .uninstall => (plan.list.resolve (plan.phase last).group).reverse := by
  have names (components : List Component) : (Pool.jobs components).map Job.release =
      components.map fun component => (component.name, component.releaseNamespace) :=
    Pool.map_component_jobs (fun component => (component.name, component.releaseNamespace)) _
  rw [names, components, ComponentList.charted, plan.action_phase]
  cases plan.action <;> simp [List.map_map, Function.comp_def]

def releases : List (String × String) :=
  (Pool.jobs (plan.components (plan.phase false))).map Job.release ++
    (Pool.jobs (plan.components (plan.phase true))).map Job.release

theorem releases_reverse :
    ({ plan with action := .uninstall } : Plan).releases =
      ({ plan with action := .install } : Plan).releases.reverse := by
  simp only [releases, components_listed, List.reverse_append]
  rfl

theorem toNat_injective {last other : Bool} (same : last.toNat = other.toNat) : last = other := by
  cases last <;> cases other <;> first | rfl | cases same

theorem phase_injective {last other : Bool} (same : plan.phase last = plan.phase other) :
    last = other := by
  cases last <;> cases other <;> first
    | rfl
    | cases action : plan.action <;> simp [phase, firstPhase, secondPhase, action] at same

theorem length_before {last : Bool} {done : List Pool}
    (finished : List.Forall₂ plan.Finished (plan.before last) done) :
    done.length = last.toNat := by
  rw [← finished.length_eq]
  cases last <;> rfl

end Plan

/-! ## Where calls are made -/

namespace Site

variable {plan : Plan} {site next : Site} {index : Nat} {label : Pool.Label}

/-- A call begins when a worker takes a job, and in no other step. -/
theorem calls_step (stepped : site.step index label = some next) :
    next.calls = site.calls ∨ ∃ i pool job rest, label = .take i ∧
      site.pools[index]? = some pool ∧ pool.workers[i]? = some .taking ∧
      pool.queue = job :: rest ∧ next.calls = site.calls ++ [site.callFor index pool job] := by
  obtain ⟨pool, after, found, moved, rfl⟩ := step_inv stepped
  cases Pool.move_of_step moved with
  | @take i job rest taking waiting =>
    refine .inr ⟨i, pool, job, rest, rfl, found, taking, waiting, ?_⟩
    simp [newCall?, taking, waiting]
  | leaveEmpty taking empty =>
    left
    simp [newCall?, taking, empty]
  | _ => exact .inl (List.append_nil _)

theorem calls_still (stepped : site.step index label = some next)
    (other : Run.isWork label = false) : next.calls = site.calls := by
  rcases calls_step stepped with same | ⟨i, pool, job, rest, rfl, -⟩
  · exact same
  · cases other

theorem pools_step (stepped : site.step index label = some next) {place : Nat} {pool : Pool}
    (found : next.pools[place]? = some pool) :
    ∃ old, site.pools[place]? = some old ∧ Reaches Pool.step anyStep old pool := by
  obtain ⟨old, there, rfl | ⟨-, moved⟩⟩ := found_step stepped found
  · exact ⟨pool, there, .refl⟩
  · exact ⟨old, there, .single ⟨label, rfl, moved⟩⟩

theorem work_opened (opened : plan.Opened site.pools) (work : Run.isWork label = true)
    (stepped : site.step index label = some next) :
    ∃ last done pool, site.pools = done ++ [pool] ∧
      List.Forall₂ plan.Finished (plan.before last) done ∧ index = last.toNat := by
  generalize same : site.pools = pools at opened
  cases opened with
  | behind finished => exact absurd stepped (Site.idle (same ▸ finished) work)
  | @latest last done pool finished =>
    refine ⟨last, done, pool, rfl, finished, ?_⟩
    rw [work_latest same finished work stepped, plan.length_before finished]

end Site

namespace Run

variable {run next : Run} {label : Label} {guard : Run → Label → Bool} {plan : Plan}
  {source : OverridesSource} {directory : Directory} {observed : Bool}

theorem opened (staged : run.Staged) (settled : run.Settled) :
    run.plan.Opened run.site.pools := by
  rw [Staged] at staged
  have ended {result : Except RunError Unit} (here : run.stage.result? = some result)
      (well : result = .ok () → List.Forall₂ run.plan.Finished
        [run.plan.firstPhase, run.plan.secondPhase] run.site.pools) :
      run.plan.Opened run.site.pools := by
    cases result with
    | ok =>
      obtain ⟨first, rest, one, others, pools⟩ := List.forall₂_cons_left_iff.mp (well rfl)
      obtain ⟨second, none, two, nothing, same⟩ := List.forall₂_cons_left_iff.mp others
      rw [List.forall₂_nil_left_iff.mp nothing] at same
      rw [pools, same]
      exact @Plan.Opened.latest _ true [first] second (.cons one .nil)
    | error error =>
      have failed := settled error here
      generalize run.site.pools = pools at failed
      cases failed with
      | notStarted finished => exact .behind finished
      | judged finished | givenUp finished => exact .latest finished
  rcases stage : run.stage with ⟨phase, last⟩ | ⟨watch, idle, last⟩ | result | result
  · rw [stage] at staged
    exact .behind staged.2
  · rw [stage] at staged
    obtain ⟨done, pool, pools, watched⟩ := staged
    rw [pools]
    exact .latest watched.finished
  all_goals
    apply ended (by rw [stage]; rfl)
    rintro rfl
    rw [stage] at staged
    exact staged

theorem opened_of_reaches
    (reached : Reaches step guard (start plan source directory observed) run) :
    plan.Opened run.site.pools := by
  rw [← plan_of_reaches reached]
  exact opened (staged_of_reaches reached) (settled_of_reaches reached)

/-- A helm call begins when a worker takes a job, and in no other step. -/
theorem calls_step (stepped : run.step label = some next) :
    next.site.calls = run.site.calls ∨ ∃ index i pool job rest, label = .work index (.take i) ∧
      run.site.pools[index]? = some pool ∧ pool.workers[i]? = some .taking ∧
      pool.queue = job :: rest ∧
      next.site.calls = run.site.calls ++ [run.site.callFor index pool job] := by
  cases move_of_step stepped with
  | opened _ opened =>
    obtain ⟨source, rfl, -⟩ := Site.openPool_inv opened
    exact .inl rfl
  | @work index _ _ _ moved =>
    exact (Site.calls_step moved).imp_right fun ⟨i, pool, job, rest, taking, began⟩ =>
      ⟨index, i, pool, job, rest, by rw [taking], began⟩
  | receive _ _ _ moved | cancelDeadline _ _ moved => exact .inl (Site.calls_still moved rfl)
  | quitDeadline _ first second =>
    exact .inl ((Site.calls_still second rfl).trans (Site.calls_still first rfl))
  | seeEnd => simp
  | refused | pass | wake | deliver | edit | conclude => exact .inl rfl

/-! ## The pools of each phase -/

theorem pools_step (staged : run.Staged) (stepped : run.step label = some next) {index : Nat}
    {pool : Pool} (found : next.site.pools[index]? = some pool) :
    (∃ old, run.site.pools[index]? = some old ∧ Reaches Pool.step anyStep old pool) ∨
      ∃ phase last, run.stage = .ready phase last ∧ index = last.toNat ∧
        pool = run.plan.pool last := by
  cases move_of_step stepped with
  | @opened phase last site ready opened =>
    obtain ⟨source, rfl, -⟩ := Site.openPool_inv opened
    rw [Staged, ready] at staged
    obtain ⟨rfl, finished⟩ := staged
    rcases Nat.lt_or_ge index run.site.pools.length with before | behind
    · rw [List.getElem?_append_left before] at found
      exact .inl ⟨pool, found, .refl⟩
    · rw [List.getElem?_append_right behind, List.getElem?_singleton] at found
      split at found <;> cases found
      have length := run.plan.length_before finished
      exact .inr ⟨_, last, ready, by omega, rfl⟩
  | work _ moved | receive _ _ _ moved | cancelDeadline _ _ moved =>
    exact .inl (Site.pools_step moved found)
  | quitDeadline _ first second =>
    obtain ⟨middle, there, latter⟩ := Site.pools_step second found
    obtain ⟨old, here, former⟩ := Site.pools_step first there
    exact .inl ⟨old, here, former.trans latter⟩
  | seeEnd => exact .inl ⟨pool, by simpa using found, .refl⟩
  | refused | pass | wake | deliver | edit | conclude => exact .inl ⟨pool, found, .refl⟩

/-- The pools of a run have come from those with which its phases began. -/
theorem pool_of_reaches
    (reached : Reaches step guard (start plan source directory observed) run) {index : Nat}
    {pool : Pool} (found : run.site.pools[index]? = some pool) :
    ∃ last, index = last.toNat ∧ Reaches Pool.step anyStep (plan.pool last) pool := by
  induction reached generalizing index pool with
  | refl => cases found
  | tail before follows ih =>
    obtain ⟨label, -, stepped⟩ := follows
    rcases pools_step (staged_of_reaches before) stepped found with
      ⟨old, there, onward⟩ | ⟨-, last, -, rfl, rfl⟩
    · obtain ⟨last, same, reached⟩ := ih there
      exact ⟨last, same, reached.trans onward⟩
    · rw [plan_of_reaches before]
      exact ⟨last, rfl, .refl⟩

theorem pool_of_phase
    (reached : Reaches step guard (start plan source directory observed) run) {last : Bool}
    {pool : Pool} (found : run.site.pools[last.toNat]? = some pool) :
    Reaches Pool.step anyStep (plan.pool last) pool := by
  obtain ⟨other, same, onward⟩ := pool_of_reaches reached found
  exact Plan.toNat_injective same ▸ onward

/-- A call is made in the latest phase, and those before it have ended well. -/
theorem call_begins (reached : Reaches step guard (start plan source directory observed) run)
    (stepped : run.step label = some next) {call : Call}
    (began : next.site.calls = run.site.calls ++ [call]) :
    ∃ (last : Bool) (done : List Pool) (pool : Pool) (i : Nat),
      run.site.pools = done ++ [pool] ∧
      List.Forall₂ plan.Finished (plan.before last) done ∧ call.pool = last.toNat ∧
      Reaches Pool.step anyStep (plan.pool last) pool ∧ pool.workers[i]? = some .taking := by
  rcases calls_step stepped with same | ⟨index, i, pool, job, rest, rfl, found, taking, -, calls⟩
  · simp [same] at began
  · rw [began, List.append_cancel_left_eq, List.singleton_inj] at calls
    subst calls
    obtain ⟨site, moved, -⟩ := Option.bind_eq_some_iff.mp stepped
    obtain ⟨last, done, latest, pools, finished, rfl⟩ :=
      Site.work_opened (opened_of_reaches reached) rfl moved
    have onward := pool_of_phase reached found
    rw [pools, ← plan.length_before finished, List.getElem?_concat_length] at found
    cases found
    exact ⟨last, done, pool, i, pools, finished, rfl, onward, taking⟩

theorem calls_sorted (reached : Reaches step guard (start plan source directory observed) run) :
    run.site.calls.Pairwise (·.pool ≤ ·.pool) := by
  induction reached with
  | refl => exact .nil
  | tail before follows ih =>
    obtain ⟨label, -, stepped⟩ := follows
    rcases calls_step stepped with same | ⟨_, _, _, _, _, _, _, _, _, began⟩
    · rwa [same]
    · obtain ⟨last, done, pool, -, pools, finished, place, -⟩ := call_begins before stepped began
      rw [began]
      refine List.pairwise_append.mpr ⟨ih, List.pairwise_singleton _ _, fun call member => ?_⟩
      intro new same
      rw [List.mem_singleton.mp same, place]
      -- the pool of the new call is the last one
      have known := (logged_of_reaches before).known call member
      rw [pools, List.length_append, List.length_singleton, plan.length_before finished] at known
      omega

theorem underWay_latest {site : Site} {phases : List Phase} {done : List Pool} {pool : Pool}
    (finished : List.Forall₂ plan.Finished phases done) (pools : site.pools = done ++ [pool]) :
    site.underWay = pool.underWay := by
  rw [Site.underWay, pools]
  clear pools
  induction finished with
  | nil => rfl
  | cons here _ ih => rw [List.cons_append, List.foldr_cons, here.underWay, ih, Nat.zero_add]

/-- Workers of one pool alone have calls under way. -/
theorem underWay_apart
    (reached : Reaches step guard (start plan source directory observed) run) {i j : Nat}
    {first second : Pool} (one : run.site.pools[i]? = some first)
    (other : run.site.pools[j]? = some second) (busy : 0 < first.underWay)
    (alsoBusy : 0 < second.underWay) : i = j := by
  have latest {place : Nat} {pool : Pool} (found : run.site.pools[place]? = some pool)
      (busy : 0 < pool.underWay) : place + 1 = run.site.pools.length := by
    have idle {phases : List Phase} {done : List Pool}
        (finished : List.Forall₂ plan.Finished phases done) (here : done[place]? = some pool) :
        False := by
      obtain ⟨phase, ended⟩ := plan.exists_finished finished (List.mem_of_getElem? here)
      exact Nat.ne_of_gt busy ended.underWay
    have opened := opened_of_reaches reached
    generalize run.site.pools = pools at opened found
    cases opened with
    | behind finished => exact (idle finished found).elim
    | @latest last done pool finished =>
      rcases Nat.lt_or_ge place done.length with before | behind
      · rw [List.getElem?_append_left before] at found
        exact (idle finished found).elim
      · obtain ⟨bound, -⟩ := List.getElem?_eq_some_iff.mp found
        rw [List.length_append, List.length_singleton] at bound ⊢
        omega
  have firstPlace := latest one busy
  have secondPlace := latest other alsoBusy
  omega

end Run

structure Plan.InOrder (plan : Plan) (site : Site) : Prop where
  phases : site.calls.Pairwise (·.pool ≤ ·.pool)
  known : ∀ call ∈ site.calls, ∃ last : Bool, call.pool = last.toNat
  listed : ∀ last : Bool, (site.calls.filter (·.pool == last.toNat)).map (·.job) <+:
    Pool.jobs (plan.components (plan.phase last))
  apart : ∀ (i j : Nat) (first second : Pool), site.pools[i]? = some first →
    site.pools[j]? = some second → 0 < first.underWay → 0 < second.underWay → i = j
  /-- The calls of a single worker end one after the other, in the order of their starts. -/
  serial : ∀ (last : Bool) (pool : Pool), site.pools[last.toNat]? = some pool →
    plan.workers (plan.phase last) = 1 → pool.underWay ≤ 1 ∧
      (pool.ended ++ pool.inCall).map (Pool.settle plan.action · true) =
        (site.calls.filter (·.pool == last.toNat)).map (Pool.settle plan.action ·.job true)

namespace Run

variable {run next : Run} {label : Label} {guard : Run → Label → Bool} {plan : Plan}
  {source : OverridesSource} {directory : Directory} {observed : Bool}

theorem inOrder_of_reaches
    (reached : Reaches step guard (start plan source directory observed) run) :
    plan.InOrder run.site := by
  have logged := logged_of_reaches reached
  refine ⟨calls_sorted reached, fun call member => ?known, fun last => ?listed,
    fun _ _ _ _ => underWay_apart reached, fun last pool found single => ?serial⟩
  case known =>
    have bound := logged.known call member
    obtain ⟨last, same, -⟩ := pool_of_reaches reached (List.getElem?_eq_getElem bound)
    exact ⟨last, same⟩
  case listed =>
    cases found : run.site.pools[last.toNat]? with
    | some pool =>
      rw [logged.taken found, ← (Pool.ledger_of_reaches (pool_of_phase reached found)).listed]
      exact List.prefix_append _ _
    | none =>
      have none : run.site.calls.filter (·.pool == last.toNat) = [] := by
        refine List.filter_eq_nil_iff.mpr fun call member same => ?_
        rw [beq_iff_eq] at same
        have bound := logged.known call member
        rw [same] at bound
        exact absurd (List.getElem?_eq_none_iff.mp found) (Nat.not_le.mpr bound)
      rw [none]
      exact List.nil_prefix
  case serial =>
    have serial := Pool.serial_of_reaches single (pool_of_phase reached found)
    refine ⟨serial.underWay_le, ?_⟩
    have action := (Pool.ledger_of_reaches (pool_of_phase reached found)).action_eq
    rw [plan.action_phase] at action
    rw [← action, serial.inTurn, ← logged.taken found, List.map_map]
    rfl

/-! ## Runs that succeed -/

-- Calls that are sorted by their pools come as those of the first pool and those of the second.
theorem calls_split {calls : List Call} (sorted : calls.Pairwise (·.pool ≤ ·.pool))
    (known : ∀ call ∈ calls, ∃ last : Bool, call.pool = last.toNat) :
    calls = calls.filter (·.pool == 0) ++ calls.filter (·.pool == 1) := by
  induction calls with
  | nil => rfl
  | cons call rest ih =>
    obtain ⟨below, sorted⟩ := List.pairwise_cons.mp sorted
    obtain ⟨⟨last, place⟩, known⟩ := List.forall_mem_cons.mp known
    cases last with
    | false =>
      have tail := ih sorted known
      simp only [place, Bool.toNat_false, List.filter_cons, beq_self_eq_true, if_true,
        Nat.zero_ne_one, beq_iff_eq, if_false, List.cons_append, ← tail]
    | true =>
      have second : ∀ other ∈ call :: rest, other.pool = 1 := by
        refine List.forall_mem_cons.mpr ⟨place, fun other member => ?_⟩
        obtain ⟨later, same⟩ := known other member
        have order := below other member
        cases later with
        | false => simp [place, same] at order
        | true => exact same
      have none : (call :: rest).filter (·.pool == 0) = [] :=
        List.filter_eq_nil_iff.mpr fun other member => by simp [second other member]
      have all : (call :: rest).filter (·.pool == 1) = call :: rest :=
        List.filter_eq_self.mpr fun other member => by simp [second other member]
      rw [none, all, List.nil_append]

/-- What a run that succeeded did with the pool of a phase. -/
theorem releases_phase
    (reached : Reaches step guard (start plan source directory observed) run) (last : Bool)
    {pool : Pool} (found : run.site.pools[last.toNat]? = some pool)
    (finished : plan.Finished (plan.phase last) pool) :
    (run.site.calls.filter (·.pool == last.toNat)).map (·.job.release) =
        (Pool.jobs (plan.components (plan.phase last))).map Job.release ∧
      (plan.workers (plan.phase last) = 1 → pool.ended.map Job.release =
        (Pool.jobs (plan.components (plan.phase last))).map Job.release) := by
  have started : (run.site.calls.filter (·.pool == last.toNat)).map (·.job.release) =
      (Pool.jobs (plan.components (plan.phase last))).map Job.release := by
    rw [← finished.taken, ← (logged_of_reaches reached).taken found, List.map_map]
    rfl
  refine ⟨started, fun single => ?_⟩
  obtain ⟨-, inTurn⟩ := (inOrder_of_reaches reached).serial last pool found single
  rw [(finished.ledger.no_hands finished.closed finished.listening).1, List.append_nil] at inTurn
  -- the status of a job has no part in its release
  have releases := congrArg (List.map Job.release) inTurn
  rw [List.map_map, List.map_map] at releases
  exact releases.trans started

theorem releases_of_ok
    (reached : Reaches step guard (start plan source directory observed) run)
    (ok : run.stage = .closing (.ok ()) ∨ run.stage = .over (.ok ())) :
    run.site.calls.map (·.job.release) = plan.releases ∧
      ((∀ phase, plan.workers phase = 1) →
        (run.site.pools.flatMap (·.ended)).map Job.release = plan.releases) := by
  obtain ⟨first, second, pools, one, two⟩ := finished_of_ok reached ok
  have former := releases_phase reached false (by rw [pools]; rfl) one
  have latter := releases_phase reached true (by rw [pools]; rfl) two
  have inOrder := inOrder_of_reaches reached
  constructor
  · rw [calls_split inOrder.phases inOrder.known, List.map_append, Plan.releases, ← former.1,
      ← latter.1]
    rfl
  · intro single
    rw [pools, Plan.releases, ← former.2 (single _), ← latter.2 (single _), ← List.map_append]
    simp

/-- In every run the calls of a phase follow its list, and those of a single worker, as for
prerequisites, are made one at a time. A call of the second phase begins only when all of the
first has been done, and at no time are calls of both under way. With one worker, removing
what was deployed takes the calls of the deployment in reverse. -/
theorem calls_in_order (plan : Plan) (source : OverridesSource) (directory : Directory)
    (observed : Bool) :
    (∀ last, (Pool.jobs (plan.components (plan.phase last))).map Job.release =
      match plan.action with
      | .install => plan.list.resolve (plan.phase last).group
      | .uninstall => (plan.list.resolve (plan.phase last).group).reverse) ∧
    (∀ phase, phase.group = .prerequisites → plan.workers phase = 1) ∧
    (∀ run, Reaches step anyStep (start plan source directory observed) run →
      plan.InOrder run.site ∧
      ∀ label next call, run.step label = some next →
        next.site.calls = run.site.calls ++ [call] →
        ∃ last, call.pool = Bool.toNat last ∧
          ((plan.phase last).group = .prerequisites → run.site.underWay = 0) ∧
          (last = true → ∃ first, run.site.Handled 0 plan.action
            (plan.components plan.firstPhase) first)) ∧
    ∀ (other : OverridesSource) (files : Directory) (heard : Bool) (up down : Run),
      plan.settings.workers = 1 →
      Reaches step anyStep (start { plan with action := .install } source directory observed) up →
      Reaches step anyStep (start { plan with action := .uninstall } other files heard) down →
      up.stage = .over (.ok ()) → down.stage = .over (.ok ()) →
      down.site.calls.map (·.job.release) = (up.site.calls.map (·.job.release)).reverse ∧
      (down.site.pools.flatMap (·.ended)).map Job.release =
        ((up.site.pools.flatMap (·.ended)).map Job.release).reverse := by
  have one (phase : Phase) (prerequisites : phase.group = .prerequisites) :
      plan.workers phase = 1 := by
    rw [Plan.workers, prerequisites]
  refine ⟨plan.components_listed, one, fun run reached => ⟨inOrder_of_reaches reached, ?begins⟩,
    ?reversed⟩
  case begins =>
    intro label next call stepped began
    obtain ⟨last, done, pool, i, pools, finished, place, onward, taking⟩ :=
      call_begins reached stepped began
    refine ⟨last, place, fun prerequisites => ?quiet, fun same => ?behind⟩
    case quiet =>
      have serial := Pool.serial_of_reaches (one _ prerequisites) onward
      rw [underWay_latest finished pools, serial.quiet taking]
    case behind =>
      subst same
      obtain ⟨first, none, here, nothing, rfl⟩ := List.forall₂_cons_left_iff.mp finished
      refine ⟨first, ?_⟩
      rw [← plan.action_phase false]
      exact here.handled (logged_of_reaches reached) (by rw [pools]; rfl)
  case reversed =>
    intro other files heard up down workers upward downward upOk downOk
    have single (action : Action) (phase : Phase) :
        ({ plan with action := action } : Plan).workers phase = 1 := by
      rw [Plan.workers]
      cases phase.group <;> simp [workers]
    have first := releases_of_ok upward (.inr upOk)
    have second := releases_of_ok downward (.inr downOk)
    rw [first.1, second.1, first.2 (single _), second.2 (single _)]
    exact ⟨plan.releases_reverse, plan.releases_reverse⟩

/-- A prerequisite and two components, deployed and removed by a single worker. -/
theorem calls_in_order_three :
    let plan : Plan := {
      action := .install
      settings := { workers := 1 }
      list := {
        prerequisites := [{ name := "istio" }]
        components := [{ name := "dex" }, { name := "ory", releaseNamespace := some "auth" }] } }
    ∃ up down,
      Reaches step anyStep (start { plan with action := .install } (.fresh {} none) {} false) up ∧
      Reaches step anyStep (start { plan with action := .uninstall } (.fresh {} none) {} false)
        down ∧
      down.site.calls.map (·.job.release) = (up.site.calls.map (·.job.release)).reverse ∧
      down.site.calls.map (·.job.release) =
        [("ory", "auth"), ("dex", "kyma-system"), ("istio", "kyma-system")] := by
  intro plan
  let handle (pool : Nat) : List Label :=
    [.work pool (.check 0), .work pool (.take 0), .work pool (.finish 0 true),
      .work pool (.send 0), .receive]
  let leave (pool : Nat) : List Label :=
    [.work pool (.check 0), .work pool (.take 0), .work pool .close, .seeEnd]
  let upLabels : List Label :=
    [.begin] ++ handle 0 ++ leave 0 ++ [.begin] ++ handle 1 ++ handle 1 ++ leave 1 ++ [.conclude]
  let downLabels : List Label :=
    [.begin] ++ handle 0 ++ handle 0 ++ leave 0 ++ [.begin] ++ handle 1 ++ leave 1 ++ [.conclude]
  have upWalked : (walk step anyStep upLabels
      (start { plan with action := .install } (.fresh {} none) {} false)).map (·.stage) =
      some (.over (.ok ())) := by decide +kernel
  have downWalked : (walk step anyStep downLabels
      (start { plan with action := .uninstall } (.fresh {} none) {} false)).map
      (fun run => (run.stage, run.site.calls.map (·.job.release))) =
      some (.over (.ok ()),
        [("ory", "auth"), ("dex", "kyma-system"), ("istio", "kyma-system")]) := by
    decide +kernel
  obtain ⟨up, walked, upEnded⟩ := Option.map_eq_some_iff.mp upWalked
  have upward := reaches_of_walk walked
  obtain ⟨down, walked, seen⟩ := Option.map_eq_some_iff.mp downWalked
  have downward := reaches_of_walk walked
  obtain ⟨downEnded, names⟩ := Prod.mk.inj seen
  obtain ⟨-, -, -, reversed⟩ := calls_in_order plan (.fresh {} none) {} false
  exact ⟨up, down, upward, downward,
    (reversed _ _ _ up down rfl upward downward upEnded downEnded).1, names⟩

end Run

end Rollout
