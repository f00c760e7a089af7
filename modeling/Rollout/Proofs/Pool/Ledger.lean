import Rollout.Proofs.Pool.Moves

/-! The books of a pool: where the jobs are, and what its flags say of its workers. They are
right at the start and every step keeps them so. -/

set_option autoImplicit false

namespace Rollout

def Worker.calling? : Worker → Option Job
  | .calling job => some job
  | _ => none

def Worker.sending? : Worker → Option Job
  | .sending job => some job
  | _ => none

def Worker.job? : Worker → Option Job
  | .calling job | .sending job => some job
  | _ => none

namespace Pool

def inCall (pool : Pool) : List Job :=
  pool.workers.filterMap Worker.calling?

/-- The jobs whose calls have ended and that have not been sent. -/
def pending (pool : Pool) : List Job :=
  pool.workers.filterMap Worker.sending?

def hands (pool : Pool) : List Job :=
  pool.workers.filterMap Worker.job?

def settled (pool : Pool) : List Job :=
  pool.pending ++ pool.channel ++ pool.received ++ pool.lost

def places (pool : Pool) : List Job :=
  pool.queue ++ pool.hands ++ pool.channel ++ pool.received ++ pool.lost

/-! ## A worker becomes another -/

section
variable (pool : Pool) (i : Nat) (worker : Worker)

@[simp] theorem become_action : (pool.become i worker).action = pool.action := rfl
@[simp] theorem become_capacity : (pool.become i worker).capacity = pool.capacity := rfl
@[simp] theorem become_queue : (pool.become i worker).queue = pool.queue := rfl
@[simp] theorem become_dismissed : (pool.become i worker).dismissed = pool.dismissed := rfl
@[simp] theorem become_channel : (pool.become i worker).channel = pool.channel := rfl
@[simp] theorem become_received : (pool.become i worker).received = pool.received := rfl
@[simp] theorem become_lost : (pool.become i worker).lost = pool.lost := rfl
@[simp] theorem become_cancelled : (pool.become i worker).cancelled = pool.cancelled := rfl
@[simp] theorem become_receiverGone : (pool.become i worker).receiverGone = pool.receiverGone := rfl
@[simp] theorem become_closed : (pool.become i worker).closed = pool.closed := rfl
@[simp] theorem become_taken : (pool.become i worker).taken = pool.taken := rfl
@[simp] theorem become_ended : (pool.become i worker).ended = pool.ended := rfl

@[simp] theorem length_become : (pool.become i worker).workers.length = pool.workers.length :=
  List.length_set

end

variable {pool next : Pool} {label : Label} {i : Nat} {worker : Worker}

theorem split_workers (found : pool.workers[i]? = some worker) :
    ∃ before after, pool.workers = before ++ worker :: after ∧
      ∀ other, (pool.become i other).workers = before ++ other :: after := by
  obtain ⟨bound, rfl⟩ := List.getElem?_eq_some_iff.mp found
  refine ⟨pool.workers.take i, pool.workers.drop (i + 1), by simp, fun other => ?_⟩
  simp [become, List.set_eq_take_append_cons_drop, bound]

section
variable (held : Worker → Option Job) {job : Job}

-- The hands of all workers, whatever one looks for in them: one that turns into
-- another keeps, gains or gives away a single job.
theorem held_same (found : pool.workers[i]? = some worker) (other : Worker)
    (same : held other = held worker) :
    (pool.become i other).workers.filterMap held = pool.workers.filterMap held := by
  obtain ⟨before, after, split, become⟩ := split_workers found
  rw [become, split, List.filterMap_append, List.filterMap_append, List.filterMap_cons,
    List.filterMap_cons, same]

theorem held_gain (found : pool.workers[i]? = some worker) (other : Worker)
    (without : held worker = none) (gained : held other = some job) :
    ((pool.become i other).workers.filterMap held).Perm (job :: pool.workers.filterMap held) := by
  obtain ⟨before, after, split, become⟩ := split_workers found
  rw [become, split, List.filterMap_append, List.filterMap_append,
    List.filterMap_cons_some gained, List.filterMap_cons_none without]
  exact List.perm_middle

theorem held_drop (found : pool.workers[i]? = some worker) (other : Worker)
    (had : held worker = some job) (without : held other = none) :
    (pool.workers.filterMap held).Perm (job :: (pool.become i other).workers.filterMap held) := by
  obtain ⟨before, after, split, become⟩ := split_workers found
  rw [become, split, List.filterMap_append, List.filterMap_append,
    List.filterMap_cons_some had, List.filterMap_cons_none without]
  exact List.perm_middle

end

theorem mem_become {other w : Worker} (member : w ∈ (pool.become i other).workers) :
    w ∈ pool.workers ∨ w = other :=
  List.mem_or_eq_of_mem_set member

theorem mem_of_found (found : pool.workers[i]? = some worker) : worker ∈ pool.workers :=
  List.mem_of_getElem? found

@[simp] theorem settle_settle (action : Action) (job : Job) (first second : Bool) :
    settle action (settle action job first) second = settle action job second := rfl

/-! ## The books -/

structure Ledger (action : Action) (workers : Nat) (components : List Component)
    (pool : Pool) : Prop where
  action_eq : pool.action = action
  capacity_eq : pool.capacity = max components.length 1
  workers_length : pool.workers.length = max workers 1
  dismissed_nil : pool.dismissed = []
  /-- Jobs are taken in the order of the list. -/
  listed : pool.taken ++ pool.queue = jobs components
  inCall_taken : ∀ job ∈ pool.inCall, job ∈ pool.taken
  /-- A job that was taken is in a call, or its call has ended. -/
  calls : ((pool.inCall ++ pool.ended).map (settle action · true)).Perm
    (pool.taken.map (settle action · true))
  ended_status : ∀ job ∈ pool.ended, ∃ succeeded, job.component.status = action.outcome succeeded
  ended_settled : pool.ended.Perm pool.settled
  gone : .gone ∈ pool.workers →
    pool.cancelled = true ∨ pool.receiverGone = true ∨ pool.queue = []
  closed : pool.closed = true → pool.receiverGone = true ∨ ∀ worker ∈ pool.workers, worker = .gone
  dropped : pool.receiverGone = true → pool.closed = true ∧ pool.channel = []
  kept : pool.receiverGone = false → pool.lost = []

variable {action : Action} {workers : Nat} {components : List Component}

-- The queue is as large as the list, so that nothing is dismissed.
theorem enqueue_eq (list : List Job) {pool : Pool}
    (room : pool.queue.length + list.length ≤ pool.capacity) :
    pool.enqueue list = { pool with queue := pool.queue ++ list } := by
  induction list generalizing pool with
  | nil => simp [enqueue]
  | cons job rest ih =>
    rw [List.length_cons] at room
    have fits : pool.queue.length < pool.capacity := by omega
    rw [enqueue, if_pos fits, ih]
    · simp
    · simp only [List.length_append, List.length_cons, List.length_nil]
      omega

@[simp] theorem length_jobs (components : List Component) :
    (jobs components).length = components.length := by
  simp [jobs]

theorem start_eq (action : Action) (workers : Nat) (components : List Component) :
    start action workers components = {
      action := action
      capacity := max components.length 1
      queue := jobs components
      dismissed := []
      workers := List.replicate (max workers 1) .checking } := by
  rw [start, enqueue_eq]
  · rfl
  · simp only [List.length_nil, length_jobs]
    omega

theorem ledger_start (action : Action) (workers : Nat) (components : List Component) :
    Ledger action workers components (start action workers components) := by
  rw [start_eq]
  constructor <;> simp [inCall, settled, pending, Worker.calling?, Worker.sending?]

/-! ## What a step does to the books -/

theorem frame_step (stepped : pool.step label = some next) :
    next.action = pool.action ∧ next.capacity = pool.capacity ∧
      next.workers.length = pool.workers.length ∧ next.dismissed = pool.dismissed ∧
      next.taken ++ next.queue = pool.taken ++ pool.queue := by
  cases move_of_step stepped with
  | take _ waiting => simp [waiting]
  | _ => simp

-- Statuses change when calls end, so jobs are compared with their statuses forgotten.
theorem calls_step (stepped : pool.step label = some next)
    (calls : ((pool.inCall ++ pool.ended).map (settle pool.action · true)).Perm
      (pool.taken.map (settle pool.action · true))) :
    ((next.inCall ++ next.ended).map (settle pool.action · true)).Perm
      (next.taken.map (settle pool.action · true)) := by
  cases move_of_step stepped with
  | leaveCancelled found | leaveEmpty found | lose found =>
    simpa [inCall, held_same Worker.calling? found .gone rfl] using calls
  | goOn found => simpa [inCall, held_same Worker.calling? found .taking rfl] using calls
  | send found => simpa [inCall, held_same Worker.calling? found .checking rfl] using calls
  | @take i job rest found =>
    have gained := held_gain Worker.calling? found (.calling job) rfl rfl
    have whole := (gained.append_right pool.ended).map (settle pool.action · true)
    have taken : ((pool.taken ++ [job]).map (settle pool.action · true)).Perm
        (settle pool.action job true :: pool.taken.map (settle pool.action · true)) := by
      rw [List.map_append]
      exact List.perm_append_singleton _ _
    exact whole.trans ((calls.cons _).trans taken.symm)
  | @finish i job succeeded found =>
    have dropped := held_drop Worker.calling? found
      (.sending (settle pool.action job succeeded)) rfl rfl
    have whole := (dropped.append_right pool.ended).map (settle pool.action · true)
    refine List.Perm.trans ?_ (whole.symm.trans calls)
    rw [← List.append_assoc, List.map_append]
    exact List.perm_append_singleton _ _
  | close | receive | cancel | drop => exact calls

-- A job moves between the places by one of the appends of a step. Permutations of four
-- lists are unwieldy there; counts of one job add up.
theorem settled_step (stepped : pool.step label = some next)
    (books : pool.ended.Perm pool.settled) : next.ended.Perm next.settled := by
  rw [List.perm_iff_count] at books ⊢
  intro job
  have whole := books job
  rw [settled, List.count_append, List.count_append, List.count_append] at whole ⊢
  cases move_of_step stepped with
  | leaveCancelled found | leaveEmpty found =>
    simpa [pending, held_same Worker.sending? found .gone rfl] using whole
  | goOn found => simpa [pending, held_same Worker.sending? found .taking rfl] using whole
  | @take i taken rest found =>
    simpa [pending, held_same Worker.sending? found (.calling taken) rfl] using whole
  | @finish i finished succeeded found =>
    have gained := held_gain Worker.sending? found
      (.sending (settle pool.action finished succeeded)) rfl rfl
    have change := gained.count_eq job
    simp only [pending, become_channel, become_received, become_lost, List.count_append,
      List.count_cons, List.count_nil] at change whole ⊢
    omega
  | lose found =>
    have change := (held_drop Worker.sending? found .gone rfl rfl).count_eq job
    simp only [pending, become_channel, become_received, become_ended, List.count_append,
      List.count_cons, List.count_nil] at change whole ⊢
    omega
  | send found =>
    have change := (held_drop Worker.sending? found .checking rfl rfl).count_eq job
    simp only [pending, become_lost, become_received, become_ended, List.count_append,
      List.count_cons, List.count_nil] at change whole ⊢
    omega
  | receive _ waiting =>
    simp only [waiting, pending, List.count_append, List.count_cons, List.count_nil] at whole ⊢
    omega
  | drop =>
    simp only [pending, List.count_append, List.count_nil] at whole ⊢
    omega
  | close | cancel => exact whole

theorem mem_inCall {job : Job} : job ∈ pool.inCall ↔ .calling job ∈ pool.workers := by
  rw [inCall, List.mem_filterMap]
  constructor
  · rintro ⟨worker, member, shown⟩
    cases worker with
    | calling other =>
      cases shown
      exact member
    | _ => cases shown
  · exact fun member => ⟨_, member, rfl⟩

theorem underWay_eq (pool : Pool) : pool.underWay = pool.inCall.length := by
  rw [underWay, inCall]
  induction pool.workers with
  | nil => rfl
  | cons worker rest ih =>
    rw [List.countP_cons, List.filterMap_cons, ih]
    cases worker <;> rfl

namespace Ledger

variable (ledger : Ledger action workers components pool) (stepped : pool.step label = some next)
include ledger

theorem receiverGone_of_closed (found : pool.workers[i]? = some worker) (there : worker ≠ .gone)
    (closed : pool.closed = true) : pool.receiverGone = true :=
  (ledger.closed closed).resolve_right fun all => there (all worker (mem_of_found found))

include stepped

theorem inCall_taken_step : ∀ job ∈ next.inCall, job ∈ next.taken := by
  intro job member
  rw [mem_inCall] at member
  have earlier (present : .calling job ∈ pool.workers) : job ∈ pool.taken :=
    ledger.inCall_taken job (mem_inCall.mpr present)
  cases move_of_step stepped with
  | take found waiting =>
    rcases mem_become member with present | same
    · exact List.mem_append_left _ (earlier present)
    · cases same
      simp
  | leaveCancelled found | goOn found | leaveEmpty found | finish found | lose found
  | send found =>
    rcases mem_become member with present | same
    · exact earlier present
    · cases same
  | close | receive | cancel | drop => exact earlier member

theorem ended_status_step :
    ∀ job ∈ next.ended, ∃ succeeded, job.component.status = action.outcome succeeded := by
  have known := ledger.ended_status
  cases move_of_step stepped with
  | @finish i finished succeeded found =>
    intro job member
    rcases List.mem_append.mp member with before | new
    · exact known job before
    · rw [List.mem_singleton] at new
      subst new
      exact ⟨succeeded, by rw [settle, ledger.action_eq]⟩
  | _ => exact known

theorem gone_step (left : .gone ∈ next.workers) :
    next.cancelled = true ∨ next.receiverGone = true ∨ next.queue = [] := by
  have known := ledger.gone
  -- a worker leaves at the signal, at an empty queue, or with nobody to send to
  cases move_of_step stepped with
  | leaveCancelled _ seen => exact .inl seen
  | leaveEmpty _ empty => exact .inr (.inr empty)
  | lose found shut => exact .inr (.inl (ledger.receiverGone_of_closed found (by simp) shut))
  | goOn found | finish found | send found =>
    exact known ((mem_become left).resolve_right (by simp))
  | take found waiting =>
    rcases known ((mem_become left).resolve_right (by simp)) with cancelled | dropped | empty
    · exact .inl cancelled
    · exact .inr (.inl dropped)
    · cases waiting.symm.trans empty
  | close | receive => exact known left
  | cancel => exact .inl rfl
  | drop => exact .inr (.inl rfl)

theorem closed_step (closed : next.closed = true) :
    next.receiverGone = true ∨ ∀ worker ∈ next.workers, worker = .gone := by
  cases move_of_step stepped with
  | leaveCancelled found | goOn found | leaveEmpty found | take found | finish found
  | lose found | send found => exact .inl (ledger.receiverGone_of_closed found (by simp) closed)
  | close _ gone => exact .inr gone
  | receive | cancel => exact ledger.closed closed
  | drop => exact .inl rfl

theorem dropped_step (dropped : next.receiverGone = true) :
    next.closed = true ∧ next.channel = [] := by
  have known := ledger.dropped
  cases move_of_step stepped with
  | send _ shut =>
    -- nobody sends into a channel whose receiver is gone, for it is closed
    have closed := (known dropped).1
    rw [shut] at closed
    cases closed
  | close => exact ⟨rfl, (known dropped).2⟩
  | receive listening =>
    rw [listening] at dropped
    cases dropped
  | drop => exact ⟨rfl, rfl⟩
  | _ => exact known dropped

theorem kept_step (listening : next.receiverGone = false) : next.lost = [] := by
  have known := ledger.kept
  cases move_of_step stepped with
  | lose found shut =>
    -- the worker is still there, so the channel was closed by the receiver
    have dropped := ledger.receiverGone_of_closed found (by simp) shut
    rw [become_receiverGone, dropped] at listening
    cases listening
  | drop => cases listening
  | _ => exact known listening

theorem keep : Ledger action workers components next := by
  obtain ⟨sameAction, sameCapacity, sameLength, sameDismissed, sameListed⟩ := frame_step stepped
  have same := ledger.action_eq
  exact {
    action_eq := sameAction.trans same
    capacity_eq := sameCapacity.trans ledger.capacity_eq
    workers_length := sameLength.trans ledger.workers_length
    dismissed_nil := sameDismissed.trans ledger.dismissed_nil
    listed := sameListed.trans ledger.listed
    inCall_taken := ledger.inCall_taken_step stepped
    calls := same ▸ calls_step stepped (same ▸ ledger.calls)
    ended_status := ledger.ended_status_step stepped
    ended_settled := settled_step stepped ledger.ended_settled
    gone := ledger.gone_step stepped
    closed := ledger.closed_step stepped
    dropped := ledger.dropped_step stepped
    kept := ledger.kept_step stepped }

end Ledger

theorem ledger_of_reaches {guard : Pool → Label → Bool}
    (reached : Reaches step guard (start action workers components) pool) :
    Ledger action workers components pool :=
  reached.invariant _ (ledger_start action workers components) fun ledger _ stepped =>
    ledger.keep stepped

end Pool

end Rollout
