import Rollout.Proofs.Run.Moves
import Rollout.Rehearsal.Clock

/-! What a clock picks: the next turn of a worker, with all that makes it possible, where nothing
happens inside of calls and none of them waits for others. -/

set_option autoImplicit false

namespace Rollout

/-- Calls have no incidents, and none waits for others. -/
structure Script.Plain (script : Script) : Prop where
  barrier : script.barrier = 0
  incident : ∀ pool job, (script.behaviour pool job).incident = none

namespace Clock

/-! ## Stages of calls -/

theorem lookup_without {key other : Nat × Nat} (apart : other ≠ key)
    (stages : List ((Nat × Nat) × CallStage)) :
    (stages.filter (·.1 != key)).lookup other = stages.lookup other := by
  induction stages with
  | nil => rfl
  | cons entry rest ih =>
    obtain ⟨place, stage⟩ := entry
    by_cases here : place = key
    · subst here
      rw [List.filter_cons_of_neg (by simp), ih, List.lookup_cons, beq_eq_false_iff_ne.mpr apart]
    · rw [List.filter_cons_of_pos (by simpa using here), List.lookup_cons, List.lookup_cons, ih]

section
variable (clock : Clock) (index i : Nat) (stage : CallStage)

@[simp] theorem withStage_self : (clock.withStage index i stage).stage? index i = some stage :=
  List.lookup_cons_self

variable {index i} {place worker : Nat} (apart : (place, worker) ≠ (index, i))
include apart

theorem withStage_other :
    (clock.withStage index i stage).stage? place worker = clock.stage? place worker := by
  rw [stage?, withStage, List.lookup_cons, beq_eq_false_iff_ne.mpr apart]
  exact lookup_without apart clock.stages

theorem withoutStage_other :
    (clock.withoutStage index i).stage? place worker = clock.stage? place worker :=
  lookup_without apart clock.stages

end

/-! ## Turns -/

inductive Turn (clock : Clock) (script : Script) (index : Nat) (pool : Pool) :
    List Deed → Clock → Prop where
  | check {i : Nat} : pool.workers[i]? = some .checking →
      Turn clock script index pool [.step index (.check i)] clock
  | leave {i : Nat} : pool.workers[i]? = some .taking → pool.queue = [] →
      Turn clock script index pool [.step index (.take i)] clock
  | take {i : Nat} {job : Job} {rest : List Job} : pool.workers[i]? = some .taking →
      pool.queue = job :: rest →
      Turn clock script index pool [.step index (.take i)]
        { clock.withStage index i .gathering with starts := clock.starts ++ [clock.now] }
  | gather {i : Nat} {job : Job} : pool.workers[i]? = some (.calling job) →
      clock.stage? index i = some .gathering →
      Turn clock script index pool []
        (clock.withStage index i (.underWay (clock.now + (script.behaviour index job).delay)))
  | finish {i : Nat} {job : Job} {ends : Nat} : pool.workers[i]? = some (.calling job) →
      clock.stage? index i = some (.underWay ends) → ends ≤ clock.now →
      ((script.behaviour index job).hangs = false ∨ clock.released = true) →
      Turn clock script index pool
        [.step index (.finish i (script.behaviour index job).succeeds)]
        (clock.withoutStage index i)
  | send {i : Nat} {job : Job} : pool.workers[i]? = some (.sending job) →
      (pool.closed = true ∨ pool.channel.length < pool.capacity) →
      Turn clock script index pool [.step index (.send i)] clock
  | close : pool.closed = false → (∀ worker ∈ pool.workers, worker = .gone) →
      Turn clock script index pool [.step index .close] clock

variable {clock later : Clock} {script : Script} {site : Site} {index i : Nat} {pool : Pool}
  {worker : Worker} {deeds : List Deed}

/-- A turn is one step of a pool, or none. -/
theorem Turn.deeds_cases (turn : Turn clock script index pool deeds later) :
    deeds = [] ∨ ∃ label after, deeds = [.step index label] ∧ Run.isWork label = true ∧
      pool.step label = some after := by
  cases turn with
  | gather => exact .inl rfl
  | check here =>
    cases seen : pool.cancelled with
    | true => exact .inr ⟨_, _, rfl, rfl, Pool.step_of_move (.leaveCancelled here seen)⟩
    | false => exact .inr ⟨_, _, rfl, rfl, Pool.step_of_move (.goOn here seen)⟩
  | leave here empty => exact .inr ⟨_, _, rfl, rfl, Pool.step_of_move (.leaveEmpty here empty)⟩
  | take here waiting => exact .inr ⟨_, _, rfl, rfl, Pool.step_of_move (.take here waiting)⟩
  | finish here => exact .inr ⟨_, _, rfl, rfl, Pool.step_of_move (.finish here)⟩
  | send here room =>
    cases shut : pool.closed with
    | true => exact .inr ⟨_, _, rfl, rfl, Pool.step_of_move (.lose here shut)⟩
    | false =>
      have room := room.resolve_left (by simp [shut])
      exact .inr ⟨_, _, rfl, rfl, Pool.step_of_move (.send here shut room)⟩
  | close opened gone => exact .inr ⟨_, _, rfl, rfl, Pool.step_of_move (.close opened gone)⟩

theorem turn_of_workerDeeds (plain : script.Plain) (found : pool.workers[i]? = some worker)
    (picked : clock.workerDeeds script site index pool i worker = some (deeds, later)) :
    Turn clock script index pool deeds later := by
  cases worker with
  | checking =>
    cases picked
    exact .check found
  | taking =>
    rw [workerDeeds] at picked
    cases waiting : pool.queue with
    | nil =>
      rw [waiting] at picked
      cases picked
      exact .leave found waiting
    | cons job rest =>
      rw [waiting] at picked
      cases picked
      exact .take found waiting
  | calling job =>
    simp only [workerDeeds] at picked
    split at picked
    · rw [if_pos (by simp [plain.barrier]), plain.incident] at picked
      cases picked
      exact .gather found ‹_›
    · split at picked <;> cases picked
      rename_i ends here due
      simp only [Bool.and_eq_true, decide_eq_true_eq, Bool.or_eq_true, Bool.not_eq_true'] at due
      exact .finish found here due.1 due.2
    · cases picked
  | sending job =>
    rw [workerDeeds] at picked
    split at picked <;> cases picked
    rename_i room
    refine .send found ?_
    cases shut : pool.closed with
    | true => exact .inl rfl
    | false => exact .inr (by simpa [shut] using room)
  | gone => cases picked

theorem turn_of_closing (picked : clock.closing index pool = some (deeds, later)) :
    Turn clock script index pool deeds later := by
  rw [closing] at picked
  split at picked <;> cases picked
  rename_i gone
  simp only [Bool.and_eq_true, Bool.not_eq_true', List.all_eq_true, beq_iff_eq] at gone
  exact .close gone.1 gone.2

theorem turn_of_next (plain : script.Plain)
    (picked : clock.next script site = some (deeds, later)) :
    ∃ index pool, site.pools[index]? = some pool ∧ Turn clock script index pool deeds later := by
  obtain ⟨⟨pool, index⟩, member, picked⟩ := List.exists_of_findSome?_eq_some picked
  refine ⟨index, pool, List.mk_mem_zipIdx_iff_getElem?.mp member, ?_⟩
  rcases Option.or_eq_some_iff.mp picked with picked | ⟨-, picked⟩
  · obtain ⟨⟨worker, i⟩, member, picked⟩ := List.exists_of_findSome?_eq_some picked
    exact turn_of_workerDeeds plain (List.mk_mem_zipIdx_iff_getElem?.mp member) picked
  · exact turn_of_closing picked

-- The converse: a clock that picks nothing leaves no turn out.
theorem no_turn_of_next (plain : script.Plain) (none : clock.next script site = none)
    (found : site.pools[index]? = some pool) : ¬ Turn clock script index pool deeds later := by
  have silent := List.findSome?_eq_none_iff.mp none (pool, index)
    (List.mk_mem_zipIdx_iff_getElem?.mpr found)
  obtain ⟨workers, shut⟩ := Option.or_eq_none_iff.mp silent
  have silent {i : Nat} {worker : Worker} (here : pool.workers[i]? = some worker) :
      clock.workerDeeds script site index pool i worker = .none :=
    List.findSome?_eq_none_iff.mp workers (worker, i) (List.mk_mem_zipIdx_iff_getElem?.mpr here)
  intro turn
  cases turn with
  | check here => cases silent here
  | leave here empty => simpa [workerDeeds, empty] using silent here
  | take here waiting => simpa [workerDeeds, waiting] using silent here
  | gather here stage => simpa [workerDeeds, stage, plain.barrier] using silent here
  | finish here stage due free => simpa [workerDeeds, stage, due, free] using silent here
  | send here room =>
    have blocked := silent here
    rcases room with closed | room
    · simp [workerDeeds, closed] at blocked
    · simp [workerDeeds, Nat.not_le.mpr room] at blocked
  | close opened gone =>
    rw [closing, if_pos (by simpa [opened] using gone)] at shut
    cases shut

/-! ## Instants to come -/

section
variable {ends first : Nat}

def Pending (clock : Clock) (ends : Nat) : Prop :=
  clock.now < ends ∧ ∃ place, (place, .underWay ends) ∈ clock.stages

theorem mem_pending : ends ∈ (clock.stages.filterMap fun entry => match entry.2 with
    | .underWay ends => if clock.now < ends then some ends else none
    | .gathering => none) ↔ clock.Pending ends := by
  rw [List.mem_filterMap]
  constructor
  · rintro ⟨⟨place, stage⟩, member, same⟩
    cases stage with
    | gathering => cases same
    | underWay last =>
      dsimp only at same
      split at same <;> cases same
      exact ⟨‹_›, place, member⟩
  · rintro ⟨later, place, member⟩
    exact ⟨_, member, if_pos later⟩

theorem pending_of_nextInstant (next : clock.nextInstant? = some first) :
    clock.Pending first ∧ ∀ ends, clock.Pending ends → first ≤ ends := by
  obtain ⟨member, least⟩ := List.min?_eq_some_iff.mp next
  exact ⟨mem_pending.mp member, fun ends pending => least ends (mem_pending.mpr pending)⟩

theorem not_pending_of_nextInstant (next : clock.nextInstant? = none) : ¬ clock.Pending ends :=
  fun pending => List.ne_nil_of_mem (mem_pending.mpr pending) (List.min?_eq_none_iff.mp next)

theorem pending_of_stage {index i : Nat} (stage : clock.stage? index i = some (.underWay ends))
    (later : clock.now < ends) : clock.Pending ends := by
  obtain ⟨before, after, split, -⟩ := List.lookup_eq_some_iff.mp stage
  exact ⟨later, (index, i), by rw [split]; simp⟩

end

end Clock

end Rollout
