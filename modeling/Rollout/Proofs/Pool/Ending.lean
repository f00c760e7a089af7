import Rollout.Proofs.Pool.Conservation
import Rollout.Proofs.Pool.Weight

/-! Pools come to their end. The queue and the channel are as large as the list, so that no job
is turned away and no worker has to wait for its status to be read. Every step takes something
from what is left to do, and where nothing more can be done all workers are gone and the channel
is closed. -/

set_option autoImplicit false

namespace Rollout.Pool

structure Over (pool : Pool) : Prop where
  closed : pool.closed = true
  gone : ∀ worker ∈ pool.workers, worker = .gone

/-- The labels of steps that wait neither for a helm call nor for anyone outside. -/
def isPrompt : Label → Bool
  | .check _ | .take _ | .send _ | .close => true
  | .finish _ _ | .receive | .cancel | .drop => false

/-- The guard under which workers go on, their calls end as `outcome` has it, and nothing comes
from outside. -/
def working (outcome : Nat → Bool) (pool : Pool) (label : Label) : Bool :=
  Run.isWork label && answers outcome pool label

def left (pool : Pool) : Nat :=
  pool.weight + (!pool.cancelled).toNat + (!pool.receiverGone).toNat

variable {action : Action} {workers : Nat} {components : List Component} {outcome : Nat → Bool}
  {pool next : Pool} {label : Label} {i : Nat} {worker : Worker} {job : Job}

theorem isWork_of_isPrompt (prompt : isPrompt label = true) : Run.isWork label = true := by
  cases label with
  | check | take | send | close => rfl
  | finish | receive | cancel | drop => cases prompt

theorem working_of_isPrompt (prompt : isPrompt label = true) :
    working outcome pool label = true := by
  cases label with
  | check | take | send | close => rfl
  | finish | receive | cancel | drop => cases prompt

theorem working_finish (calling : pool.workers[i]? = some (.calling job)) :
    working outcome pool (.finish i (outcome job.position)) = true := by
  simp [working, answers, calling, Run.isWork]

theorem exists_calling (busy : 0 < pool.underWay) :
    ∃ (i : Nat) (job : Job), pool.workers[i]? = some (.calling job) := by
  rw [underWay_eq] at busy
  obtain ⟨job, member⟩ := List.exists_mem_of_length_pos busy
  obtain ⟨i, found⟩ := List.mem_iff_getElem?.mp (mem_inCall.mp member)
  exact ⟨i, job, found⟩

theorem underWay_pos (calling : pool.workers[i]? = some (.calling job)) : 0 < pool.underWay := by
  rw [underWay_eq]
  exact List.length_pos_of_mem (mem_inCall.mpr (mem_of_found calling))

/-! ## What can be done -/

-- Only a worker in a call can be without a step, and one that would send into a full channel.
theorem exists_prompt (found : pool.workers[i]? = some worker) (there : worker ≠ .gone)
    (idle : ∀ job, worker ≠ .calling job)
    (room : ∀ job, worker = .sending job → pool.channel.length < pool.capacity) :
    ∃ label next, isPrompt label = true ∧ pool.step label = some next := by
  cases worker with
  | checking =>
    cases seen : pool.cancelled with
    | true => exact ⟨.check i, _, rfl, step_of_move (.leaveCancelled found seen)⟩
    | false => exact ⟨.check i, _, rfl, step_of_move (.goOn found seen)⟩
  | taking =>
    cases waiting : pool.queue with
    | nil => exact ⟨.take i, _, rfl, step_of_move (.leaveEmpty found waiting)⟩
    | cons job rest => exact ⟨.take i, _, rfl, step_of_move (.take found waiting)⟩
  | calling job => exact absurd rfl (idle job)
  | sending job =>
    cases shut : pool.closed with
    | true => exact ⟨.send i, _, rfl, step_of_move (.lose found shut)⟩
    | false => exact ⟨.send i, _, rfl, step_of_move (.send found shut (room job rfl))⟩
  | gone => exact absurd rfl there

/-- A pool that is not over has a step to take, if there is room in its channel. -/
theorem exists_step (room : ∀ (i : Nat) (job : Job), pool.workers[i]? = some (.sending job) →
      pool.channel.length < pool.capacity) :
    pool.Over ∨ 0 < pool.underWay ∨
      ∃ label next, isPrompt label = true ∧ pool.step label = some next := by
  by_cases gone : ∀ worker ∈ pool.workers, worker = .gone
  · cases shut : pool.closed with
    | true => exact .inl ⟨shut, gone⟩
    | false => exact .inr (.inr ⟨.close, _, rfl, step_of_move (.close shut gone)⟩)
  · simp only [not_forall] at gone
    obtain ⟨worker, member, there⟩ := gone
    obtain ⟨i, found⟩ := List.mem_iff_getElem?.mp member
    by_cases calling : ∃ job, worker = .calling job
    · obtain ⟨job, rfl⟩ := calling
      exact .inr (.inl (underWay_pos found))
    · refine .inr (.inr (exists_prompt found there (fun job same => calling ⟨job, same⟩) ?_))
      rintro job rfl
      exact room i job found

theorem exists_work (shut : pool.closed = false) (room : pool.channel.length < pool.capacity) :
    ∃ label next, Run.isWork label = true ∧ (∀ i, label ≠ .finish i false) ∧
      pool.step label = some next := by
  rcases exists_step fun _ _ _ => room with atEnd | busy | ⟨label, next, prompt, stepped⟩
  · cases shut.symm.trans atEnd.closed
  · obtain ⟨i, job, calling⟩ := exists_calling busy
    exact ⟨.finish i true, _, rfl, by simp, step_of_move (.finish calling)⟩
  · refine ⟨label, next, isWork_of_isPrompt prompt, ?_, stepped⟩
    rintro i rfl
    cases prompt

-- Nothing is left to do in a pool whose workers are gone and whose channel is closed.
theorem idle (gone : ∀ worker ∈ pool.workers, worker = .gone) (closed : pool.closed = true)
    (work : Run.isWork label = true) : pool.step label ≠ some next := by
  intro stepped
  have left {i : Nat} {worker : Worker} (found : pool.workers[i]? = some worker) :
      worker = .gone := gone worker (mem_of_found found)
  cases move_of_step stepped with
  | leaveCancelled found | goOn found | leaveEmpty found | take found | finish found
  | lose found | send found => cases left found
  | close shut =>
    rw [closed] at shut
    cases shut
  | receive | cancel | drop => cases work

/-! ## What is left to do -/

/-- Every step takes something from what is left, save a cancel signal that is given again. -/
theorem left_step (stepped : pool.step label = some next) :
    next.left < pool.left ∨ label = .cancel ∧ next = pool := by
  unfold left
  by_cases work : Run.isWork label = true
  · have less := weight_work work stepped
    cases move_of_step stepped with
    | receive | cancel | drop => cases work
    | _ =>
      simp only [become_cancelled, become_receiverGone] at less ⊢
      omega
  · cases move_of_step stepped with
    | receive =>
      have less := weight_receive stepped
      simp only at less ⊢
      omega
    | cancel =>
      cases given : pool.cancelled with
      | true => exact .inr ⟨rfl, by rw [← given]⟩
      | false =>
        have same := weight_cancel stepped
        simp only [Bool.not_true, Bool.not_false, Bool.toNat_true, Bool.toNat_false] at same ⊢
        omega
    | drop listening =>
      have less := weight_drop stepped
      simp only [listening, Bool.not_true, Bool.not_false, Bool.toNat_true,
        Bool.toNat_false] at less ⊢
      omega
    | _ => exact absurd rfl work

theorem left_start (action : Action) (workers : Nat) (components : List Component) :
    (start action workers components).left = 7 * components.length + 2 * max workers 1 + 3 := by
  rw [left, weight_start, start_eq]
  rfl

theorem countP_le_left {guard : Pool → Label → Bool} {labels : List Label}
    (walked : walk step guard labels pool = some next) :
    labels.countP (· ≠ .cancel) + next.left ≤ pool.left := by
  induction labels generalizing pool with
  | nil =>
    cases walked
    simp
  | cons label rest ih =>
    obtain ⟨middle, -, stepped, walked⟩ := walk_cons walked
    have others := ih walked
    rw [List.countP_cons]
    rcases left_step stepped with less | ⟨rfl, rfl⟩
    · split <;> omega
    · simpa using others

/-! ## Pools that have come from a list -/

namespace Ledger

variable (ledger : Ledger action workers components pool)
include ledger

/-- Room for the status that a worker is about to send: every job has one place, and this one's
is in the hands of the worker. -/
theorem room (sending : pool.workers[i]? = some (.sending job)) :
    pool.channel.length < pool.capacity := by
  have places := ledger.positions_places.length_eq
  have inHand : 0 < pool.hands.length :=
    List.length_pos_of_mem (List.mem_filterMap.mpr ⟨_, mem_of_found sending, rfl⟩)
  have capacity := ledger.capacity_eq
  simp only [Pool.places, List.length_map, List.length_append, List.length_range] at places
  omega

theorem exists_send (sending : pool.workers[i]? = some (.sending job)) :
    ∃ next, pool.step (.send i) = some next := by
  cases shut : pool.closed with
  | true => exact ⟨_, step_of_move (.lose sending shut)⟩
  | false => exact ⟨_, step_of_move (.send sending shut (ledger.room sending))⟩

/-- A pool that is not over can go on, if helm calls end. -/
theorem exists_working (outcome : Nat → Bool) (going : ¬ pool.Over) :
    ∃ label next, working outcome pool label = true ∧ pool.step label = some next := by
  rcases exists_step fun i job => ledger.room with atEnd | busy | ⟨label, next, prompt, stepped⟩
  · exact absurd atEnd going
  · obtain ⟨i, job, calling⟩ := exists_calling busy
    exact ⟨_, _, working_finish calling, step_of_move (.finish calling)⟩
  · exact ⟨label, next, working_of_isPrompt prompt, stepped⟩

theorem over_of_stuck (stuck : ∀ label, working outcome pool label = true →
    pool.step label = none) : pool.Over := by
  refine Classical.byContradiction fun going => ?_
  obtain ⟨label, next, counted, stepped⟩ := ledger.exists_working outcome going
  cases (stuck label counted).symm.trans stepped

/-- The workers of a pool bring it to its end by themselves. -/
theorem exists_over (outcome : Nat → Bool) :
    ∃ final, Reaches step (working outcome) pool final ∧ final.Over := by
  induction weight : pool.weight using Nat.strongRecOn generalizing pool with
  | ind bound ih =>
    by_cases atEnd : pool.Over
    · exact ⟨pool, .refl, atEnd⟩
    · obtain ⟨label, next, counted, stepped⟩ := ledger.exists_working outcome atEnd
      have less := weight_work (Bool.and_eq_true_iff.mp counted).1 stepped
      obtain ⟨final, onward, ended⟩ := ih next.weight (weight ▸ less) (ledger.keep stepped) rfl
      exact ⟨final, .head ⟨label, counted, stepped⟩ onward, ended⟩

end Ledger

/-- A pool never waits for its queue or its channel, and comes to its end if helm calls do. As
long as somebody receives, its channel is closed behind the last worker only. -/
theorem comes_to_end (action : Action) (workers : Nat) (components : List Component) :
    (∀ pool, Reaches step anyStep (start action workers components) pool →
      pool.dismissed = [] ∧
      (∀ (i : Nat) (job : Job), pool.workers[i]? = some (.sending job) →
        pool.channel.length < pool.capacity ∧ ∃ next, pool.step (.send i) = some next) ∧
      (pool.Over ∨ 0 < pool.underWay ∨
        ∃ label next, isPrompt label = true ∧ pool.step label = some next) ∧
      (∀ label next, pool.step label = some next →
        next.left < pool.left ∨ label = .cancel ∧ next = pool) ∧
      (pool.closed = true → pool.receiverGone = false →
        (∀ worker ∈ pool.workers, worker = .gone) ∧ pool.inCall = [] ∧ pool.pending = [])) ∧
    (∀ outcome pool, Reaches step (answers outcome) (start action workers components) pool →
      (∀ label, working outcome pool label = true → pool.step label = none) → pool.Over) ∧
    ∀ labels final, walk step anyStep labels (start action workers components) = some final →
      labels.countP (· ≠ .cancel) ≤ 7 * components.length + 2 * max workers 1 + 3 := by
  refine ⟨fun pool reached => ?always, fun outcome pool reached => ?stuck,
    fun labels final walked => ?bound⟩
  case always =>
    have ledger := ledger_of_reaches reached
    refine ⟨ledger.dismissed_nil, fun i job sending => ?_, exists_step fun i job => ledger.room,
      fun label next => left_step, fun closed listening => ?_⟩
    · exact ⟨ledger.room sending, ledger.exists_send sending⟩
    · exact ⟨ledger.all_gone closed listening, ledger.no_hands closed listening⟩
  case stuck => exact (ledger_of_reaches reached).over_of_stuck
  case bound =>
    rw [← left_start action workers components]
    exact Nat.le_trans (Nat.le_add_right _ _) (countP_le_left walked)

/-- Two workers send all they have to a receiver that reads nothing, and are gone. -/
theorem comes_to_end_unread :
    let components : List Component :=
      [⟨"dex", "kyma", "r/dex", .notStarted⟩, ⟨"ory", "kyma", "r/ory", .notStarted⟩]
    ∃ before pool, Reaches step (answers (· = 0)) (start .install 2 components) before ∧
      before.workers[1]? = some (.sending (called .install (· = 0) ⟨1, ⟨"ory", "kyma", "r/ory",
        .notStarted⟩⟩)) ∧ before.channel.length < before.capacity ∧
      Reaches step (answers (· = 0)) before pool ∧ pool.received = [] ∧
      (∀ worker ∈ pool.workers, worker = .gone) ∧ pool.pending = [] ∧ pool.Over := by
  intro components
  let front : List Label :=
    [.check 0, .check 1, .take 0, .take 1, .finish 0 true, .send 0, .finish 1 false]
  let rest : List Label := [.send 1, .check 0, .take 0, .cancel, .check 1, .close]
  have walked : ((walk step (answers (· = 0)) front (start .install 2 components)).bind
      fun before => (walk step (answers (· = 0)) rest before).map fun pool =>
        (before.workers[1]?, pool.received, pool.closed, pool.receiverGone)) =
      some (some (.sending (called .install (· = 0) ⟨1, ⟨"ory", "kyma", "r/ory", .notStarted⟩⟩)),
        [], true, false) := by decide +kernel
  obtain ⟨before, first, walked⟩ := Option.bind_eq_some_iff.mp walked
  obtain ⟨pool, second, shown⟩ := Option.map_eq_some_iff.mp walked
  simp only [Prod.mk.injEq] at shown
  obtain ⟨sending, unread, closed, listening⟩ := shown
  have reached := reaches_of_walk first
  have onward := reaches_of_walk second
  have whole : Reaches step (answers (· = 0)) (start .install 2 components) pool :=
    reached.trans onward
  obtain ⟨always, stuck, -⟩ := comes_to_end .install 2 components
  obtain ⟨-, room, -⟩ := always before reached.anyStep
  obtain ⟨-, -, -, -, ended⟩ := always pool whole.anyStep
  obtain ⟨gone, -, sent⟩ := ended closed listening
  refine ⟨before, pool, reached, sending, (room 1 _ sending).1, onward, unread, gone, sent,
    stuck _ pool whole fun label counted => ?_⟩
  exact Option.eq_none_iff_forall_ne_some.mpr fun next =>
    idle gone closed (Bool.and_eq_true_iff.mp counted).1

end Rollout.Pool
