import Rollout.Proofs.Pool.Ledger

/-! No job is lost and none is handled twice, whatever the order of steps; its status changes
once, when its own call ends. -/

set_option autoImplicit false

namespace Rollout.Pool

/-- The guard under which calls end as `outcome` has it, by the places of their jobs. -/
def answers (outcome : Nat → Bool) (pool : Pool) : Label → Bool
  | .finish i succeeded =>
    match pool.workers[i]? with
    | some (.calling job) => succeeded == outcome job.position
    | _ => true
  | _ => true

def called (action : Action) (outcome : Nat → Bool) (job : Job) : Job :=
  settle action job (outcome job.position)

variable {action : Action} {workers : Nat} {components : List Component} {outcome : Nat → Bool}
  {pool next : Pool} {label : Label}

theorem mem_jobs {job : Job} :
    job ∈ jobs components ↔ components[job.position]? = some job.component := by
  rw [jobs, List.mem_iff_getElem?]
  simp only [List.getElem?_mapIdx, Option.map_eq_some_iff]
  constructor
  · rintro ⟨i, component, found, rfl⟩
    exact found
  · exact fun found => ⟨job.position, job.component, found, rfl⟩

theorem positions_jobs (components : List Component) :
    (jobs components).map (·.position) = List.range components.length := by
  apply List.ext_getElem
  · simp
  · intro i _ _
    simp [jobs]

theorem map_component_jobs {α : Type} (f : Component → α) (components : List Component) :
    (jobs components).map (fun job => f job.component) = components.map f := by
  apply List.ext_getElem
  · simp
  · intro i _ _
    simp [jobs]

theorem hands_perm (pool : Pool) : pool.hands.Perm (pool.inCall ++ pool.pending) := by
  rw [hands, inCall, pending]
  induction pool.workers with
  | nil => exact .nil
  | cons worker rest ih =>
    cases worker with
    | calling job => exact ih.cons job
    | sending job => exact (ih.cons job).trans List.perm_middle.symm
    | checking | taking | gone => exact ih

theorem length_hands_le (pool : Pool) : pool.hands.length ≤ pool.workers.length :=
  List.length_filterMap_le _ _

namespace Ledger

variable (ledger : Ledger action workers components pool)
include ledger

theorem positions_taken : (pool.taken.map (·.position)).Perm
    ((pool.inCall ++ pool.ended).map (·.position)) := by
  have whole := ledger.calls.symm.map (·.position)
  rwa [List.map_map, List.map_map] at whole

/-- Every place in the list is that of one job in one of the places of the pool. -/
theorem positions_places :
    (pool.places.map (·.position)).Perm (List.range components.length) := by
  rw [← positions_jobs, ← ledger.listed, List.perm_iff_count]
  intro position
  -- what was taken is in a call or has ended, and what has ended is in one of four places
  have taken := ledger.positions_taken.count_eq position
  have settled := (ledger.ended_settled.map (·.position)).count_eq position
  have hands := ((hands_perm pool).map (·.position)).count_eq position
  simp only [places, Pool.settled, List.map_append, List.count_append] at taken settled hands ⊢
  omega

theorem taken_listed {job : Job} (member : job ∈ pool.taken) :
    components[job.position]? = some job.component := by
  rw [← mem_jobs, ← ledger.listed]
  exact List.mem_append_left _ member

theorem waiting_listed {job : Job} (member : job ∈ pool.queue ++ pool.inCall) :
    components[job.position]? = some job.component := by
  rcases List.mem_append.mp member with queued | calling
  · rw [← mem_jobs, ← ledger.listed]
    exact List.mem_append_right _ queued
  · exact ledger.taken_listed (ledger.inCall_taken job calling)

theorem settled_listed {job : Job} (member : job ∈ pool.settled) :
    ∃ component, components[job.position]? = some component ∧
      job.component = { component with status := job.component.status } := by
  have ended : job ∈ pool.ended := ledger.ended_settled.mem_iff.mpr member
  have done : settle action job true ∈ pool.taken.map (settle action · true) :=
    ledger.calls.mem_iff.mp (List.mem_map_of_mem (List.mem_append_right _ ended))
  obtain ⟨original, taken, same⟩ := List.mem_map.mp done
  -- both are one job as soon as the statuses are forgotten
  have position : (settle action original true).position = (settle action job true).position :=
    congrArg Job.position same
  refine ⟨original.component, (congrArg (components[·]?) position).symm.trans
    (ledger.taken_listed taken), ?_⟩
  have component : (settle action original true).component = (settle action job true).component :=
    congrArg Job.component same
  simp only [settle, Component.mk.injEq] at component
  obtain ⟨name, releaseNamespace, chart, -⟩ := component
  rw [name, releaseNamespace, chart]

theorem all_gone (closed : pool.closed = true) (listening : pool.receiverGone = false) :
    ∀ worker ∈ pool.workers, worker = .gone :=
  (ledger.closed closed).resolve_left (by simp [listening])

theorem no_hands (closed : pool.closed = true) (listening : pool.receiverGone = false) :
    pool.inCall = [] ∧ pool.pending = [] := by
  have gone := ledger.all_gone closed listening
  constructor <;> refine List.filterMap_eq_nil_iff.mpr fun worker member => ?_ <;>
    rw [gone worker member] <;> rfl

theorem queue_nil (closed : pool.closed = true) (listening : pool.receiverGone = false)
    (running : pool.cancelled = false) : pool.queue = [] := by
  have some : 0 < pool.workers.length := by
    rw [ledger.workers_length]
    omega
  obtain ⟨worker, member⟩ := List.exists_mem_of_length_pos some
  -- this one is gone, and for none of the reasons but an empty queue
  rw [ledger.all_gone closed listening worker member] at member
  simpa [listening, running] using ledger.gone member

/-- Behind the workers everything that ended has been sent. -/
theorem ended_sent (closed : pool.closed = true) (listening : pool.receiverGone = false) :
    pool.ended.Perm (pool.received ++ pool.channel) := by
  have settled := ledger.ended_settled
  rw [Pool.settled, (ledger.no_hands closed listening).2, ledger.kept listening,
    List.nil_append, List.append_nil] at settled
  exact settled.trans List.perm_append_comm

theorem taken_eq (closed : pool.closed = true) (listening : pool.receiverGone = false)
    (running : pool.cancelled = false) : pool.taken = jobs components := by
  have listed := ledger.listed
  rwa [ledger.queue_nil closed listening running, List.append_nil] at listed

end Ledger

theorem ended_answers
    (reached : Reaches step (answers outcome) (start action workers components) pool) :
    ∀ job ∈ pool.ended, called action outcome job = job := by
  refine (reached.invariant (fun pool => Ledger action workers components pool ∧
    ∀ job ∈ pool.ended, called action outcome job = job)
    ⟨ledger_start .., by simp [start_eq]⟩ ?_).2
  rintro s t label ⟨ledger, known⟩ counted stepped
  refine ⟨ledger.keep stepped, ?_⟩
  cases move_of_step stepped with
  | @finish i finished succeeded found =>
    intro job member
    rcases List.mem_append.mp member with before | new
    · exact known job before
    · rw [List.mem_singleton] at new
      subst new
      simp only [answers, found, beq_iff_eq] at counted
      rw [called, counted, ← ledger.action_eq]
      rfl
  | _ => exact known

-- The books forget the statuses, and the answers determine them again.
theorem ended_perm
    (reached : Reaches step (answers outcome) (start action workers components) pool)
    (calm : pool.inCall = []) : pool.ended.Perm (pool.taken.map (called action outcome)) := by
  have whole := (ledger_of_reaches reached).calls.map (called action outcome)
  rw [calm, List.nil_append, List.map_map, List.map_map] at whole
  have same : pool.ended.map (called action outcome) = pool.ended :=
    List.map_congr_left (ended_answers reached) |>.trans (List.map_id _)
  have forget : called action outcome ∘ (settle action · true) = called action outcome := rfl
  rw [forget, same] at whole
  exact whole

theorem ended_grows {guard : Pool → Label → Bool} {later : Pool}
    (reached : Reaches step guard pool later) : pool.ended <+: later.ended := by
  refine reached.invariant (pool.ended <+: ·.ended) (List.prefix_refl _) ?_
  intro s t label known _ stepped
  cases move_of_step stepped with
  | finish => exact known.trans (List.prefix_append _ _)
  | _ => exact known

/-- Where the jobs of a pool are and what their statuses say, in every state that it can come
to. Jobs are told apart by their places in the list, so that equal components may be in it. -/
theorem jobs_conserved
    (reached : Reaches step (answers outcome) (start action workers components) pool) :
    (pool.places.map (·.position)).Perm (List.range components.length) ∧
    pool.hands.length ≤ max workers 1 ∧
    (pool.receiverGone = false → pool.lost = []) ∧
    (∀ job ∈ pool.queue ++ pool.inCall, components[job.position]? = some job.component) ∧
    ((∀ component ∈ components, component.status = .notStarted) →
      ∀ job ∈ pool.queue ++ pool.inCall, job.component.status = .notStarted) ∧
    (∀ job ∈ pool.settled, ∃ component, components[job.position]? = some component ∧
      job.component = { component with status := action.outcome (outcome job.position) }) ∧
    (∀ later, Reaches step (answers outcome) pool later →
      ∀ job ∈ pool.settled, job ∈ later.settled) ∧
    (pool.closed = true → pool.receiverGone = false →
      (pool.received ++ pool.channel).Perm (pool.taken.map (called action outcome)) ∧
      (pool.cancelled = false →
        (pool.received ++ pool.channel).Perm ((jobs components).map (called action outcome)))) := by
  have ledger := ledger_of_reaches reached
  refine ⟨ledger.positions_places, ?hands, ledger.kept, fun _ => ledger.waiting_listed,
    ?fresh, ?settled, ?later, ?closed⟩
  case hands => exact ledger.workers_length ▸ length_hands_le pool
  case fresh =>
    intro fresh job member
    exact fresh _ (List.mem_of_getElem? (ledger.waiting_listed member))
  case settled =>
    intro job member
    obtain ⟨component, listed, same⟩ := ledger.settled_listed member
    have answered : (called action outcome job).component.status = job.component.status :=
      congrArg (·.component.status)
        (ended_answers reached job (ledger.ended_settled.mem_iff.mpr member))
    exact ⟨component, listed, same.trans (by rw [← answered]; rfl)⟩
  case later =>
    intro later reached' job member
    have ended := (ended_grows reached').subset (ledger.ended_settled.mem_iff.mpr member)
    exact (ledger_of_reaches (reached.trans reached')).ended_settled.mem_iff.mp ended
  case closed =>
    intro closed listening
    have whole := (ledger.ended_sent closed listening).symm.trans
      (ended_perm reached (ledger.no_hands closed listening).1)
    exact ⟨whole, fun running => ledger.taken_eq closed listening running ▸ whole⟩

/-- Two workers, of whose three calls the second one fails. -/
theorem jobs_conserved_three :
    let components : List Component :=
      [⟨"dex", "kyma", "r/dex", .notStarted⟩, ⟨"ory", "kyma", "r/ory", .notStarted⟩,
        ⟨"dex", "kyma", "r/dex", .notStarted⟩]
    ∃ pool, Reaches step (answers (· != 1)) (start .install 2 components) pool ∧
      pool.closed = true ∧ pool.receiverGone = false ∧ pool.cancelled = false ∧
      (pool.received ++ pool.channel).Perm ((jobs components).map (called .install (· != 1))) := by
  intro components
  let labels : List Label :=
    [.check 0, .check 1, .take 0, .take 1, .finish 1 false, .send 1, .receive, .check 1, .take 1,
      .finish 0 true, .finish 1 true, .send 1, .send 0, .check 0, .take 0, .check 1, .take 1,
      .close, .receive]
  have walked : (walk step (answers (· != 1)) labels (start .install 2 components)).map
      (fun pool => (pool.closed, pool.receiverGone, pool.cancelled)) =
      some (true, false, false) := by decide +kernel
  obtain ⟨pool, walked, flags⟩ := Option.map_eq_some_iff.mp walked
  obtain ⟨closed, listening, running⟩ := Prod.mk.inj flags |>.imp_right Prod.mk.inj
  have reached := reaches_of_walk walked
  obtain ⟨-, -, -, -, -, -, -, statuses⟩ := jobs_conserved reached
  exact ⟨pool, reached, closed, listening, running, (statuses closed listening).2 running⟩

end Rollout.Pool
