import Rollout.Proofs.Run.Progress
import Rollout.Proofs.Timed.Moves

/-! Where nothing can happen at an instant: the watcher waits for a status or a deadline, and
workers are in calls that are not over. -/

set_option autoImplicit false

namespace Rollout

namespace Timed

variable {timing : Timing} {timed : Timed} {pool : Pool} {index : Nat}

theorem idle_of_quiet (quiet : timed.isQuiet timing = true) (label : Run.Label)
    (inside : ∀ change, label ≠ .edit change) (allowed : timed.allows timing label = true) :
    ¬ ∃ next, timed.run.step label = some next := by
  rintro ⟨next, stepped⟩
  rw [still_of_quiet quiet inside allowed] at stepped
  cases stepped

theorem stage_of_quiet (staged : timed.run.Staged) (attended : timed.run.Attended)
    (quiet : timed.isQuiet timing = true) :
    (∃ watch last, timed.run.stage = .watching watch true last) ∨
      ∃ result, timed.run.stage = .over result := by
  rcases stage : timed.run.stage with ⟨phase, last⟩ | ⟨watch, idle, last⟩ | result | result
  · have begun : timed.run.step .begin = some (timed.run.beginPhase phase last) := by
      rw [Run.step, stage]
    exact absurd ⟨_, begun⟩ (idle_of_quiet quiet .begin (by simp) rfl)
  · cases idle with
    | true => exact .inl ⟨watch, last, rfl⟩
    | false =>
      obtain ⟨label, next, which, stepped⟩ := Run.exists_look staged stage
      refine absurd ⟨_, stepped⟩ (idle_of_quiet quiet label ?_ ?_)
      all_goals rcases which with rfl | rfl | rfl <;> simp [allows]
  · obtain ⟨label, next, which, stepped⟩ := attended.exists_closing_step stage
    refine absurd ⟨_, stepped⟩ (idle_of_quiet quiet label ?_ ?_)
    all_goals rcases which with ⟨forward, rfl⟩ | rfl <;> simp [allows]
  · exact .inr ⟨result, rfl⟩

structure Waits (timed : Timed) (watch : Watch) (pool : Pool) : Prop where
  empty : pool.channel = []
  shut : pool.closed = false
  early : watch.timedOut = false → timed.now < timed.cancelAt
  going : timed.now < timed.quitAt

theorem waits_of_quiet {watch : Watch} {last : Bool} {done : List Pool}
    (pools : timed.run.site.pools = done ++ [pool]) (listening : pool.receiverGone = false)
    (watching : timed.run.stage = .watching watch true last)
    (quiet : timed.isQuiet timing = true) : timed.Waits watch pool := by
  have found := Run.found_of_pools pools
  have silent : timed.hasNews = false := by
    by_contra news
    rw [Bool.not_eq_false] at news
    have woken : timed.run.step .wake =
        some { timed.run with stage := .watching watch false last } := by rw [Run.step, watching]
    exact idle_of_quiet quiet .wake (by simp) news ⟨_, woken⟩
  rw [hasNews, found, Option.any_some, Bool.or_eq_false_iff, Bool.not_eq_false',
    List.isEmpty_iff] at silent
  have early (inTime : watch.timedOut = false) : timed.now < timed.cancelAt := by
    by_contra late
    refine idle_of_quiet quiet .cancelDeadline (by simp) ?_
      (Run.exists_cancel watching inTime found)
    simpa [allows] using late
  refine ⟨silent.1, silent.2, early, ?_⟩
  by_contra late
  refine idle_of_quiet quiet .quitDeadline (by simp) ?_
    (Run.exists_quit watching listening found)
  have inTurn : timed.timedOut = true ∨ timed.now < timed.cancelAt := by
    simp only [timedOut, watching]
    cases out : watch.timedOut with
    | true => exact .inl rfl
    | false => exact .inr (early out)
  simpa [allows, Nat.not_lt.mp late] using inTurn

theorem no_work_of_quiet {after : Pool} (quiet : timed.isQuiet timing = true)
    (found : timed.run.site.pools[index]? = some pool) (label : Pool.Label)
    (work : Run.isWork label = true)
    (allowed : timed.allows timing (.work index label) = true) :
    ¬ Pool.Move pool label after := by
  intro move
  have moved := Site.step_of_pool found (Pool.step_of_move move)
  exact idle_of_quiet quiet (.work index label) (by simp) allowed
    ⟨_, by rw [Run.step, if_pos work, moved]; rfl⟩

/-- What a worker is in where nothing can happen. -/
theorem worker_of_quiet {worker : Worker} (quiet : timed.isQuiet timing = true)
    (found : timed.run.site.pools[index]? = some pool) (member : worker ∈ pool.workers) :
    worker ≠ .checking ∧ worker ≠ .taking ∧
      (∀ job, worker = .calling job → timed.isOver timing index job = false) ∧
      (pool.closed = true ∨ pool.channel.length < pool.capacity →
        ∀ job, worker ≠ .sending job) := by
  obtain ⟨i, here⟩ := List.mem_iff_getElem?.mp member
  refine ⟨?checking, ?taking, ?calling, ?sending⟩
  case checking =>
    rintro rfl
    cases seen : pool.cancelled with
    | true =>
      exact no_work_of_quiet quiet found (.check i) rfl rfl (.leaveCancelled here seen)
    | false => exact no_work_of_quiet quiet found (.check i) rfl rfl (.goOn here seen)
  case taking =>
    rintro rfl
    cases waiting : pool.queue with
    | nil => exact no_work_of_quiet quiet found (.take i) rfl rfl (.leaveEmpty here waiting)
    | cons job rest =>
      exact no_work_of_quiet quiet found (.take i) rfl rfl (.take here waiting)
  case calling =>
    rintro job rfl
    by_contra passed
    rw [Bool.not_eq_false] at passed
    refine no_work_of_quiet quiet found (.finish i (!(timing index job.position).fails)) rfl
      ?_ (.finish here)
    simp [allows, found, here, passed]
  case sending =>
    rintro room job rfl
    cases shut : pool.closed with
    | true => exact no_work_of_quiet quiet found (.send i) rfl rfl (.lose here shut)
    | false =>
      have room := room.resolve_left (by simp [shut])
      exact no_work_of_quiet quiet found (.send i) rfl rfl (.send here shut room)

/-- Where nothing can happen while a channel is empty and open, workers are in calls that are
not over, and there is one. -/
theorem calling_of_quiet (quiet : timed.isQuiet timing = true)
    (found : timed.run.site.pools[index]? = some pool) (empty : pool.channel = [])
    (shut : pool.closed = false) (capacity : 0 < pool.capacity) :
    (∀ worker ∈ pool.workers, worker = .gone ∨
      ∃ job, worker = .calling job ∧ timed.isOver timing index job = false) ∧
    ∃ job, .calling job ∈ pool.workers := by
  have all : ∀ worker ∈ pool.workers, worker = .gone ∨
      ∃ job, worker = .calling job ∧ timed.isOver timing index job = false := by
    intro worker member
    obtain ⟨checking, taking, calling, sending⟩ := worker_of_quiet quiet found member
    cases worker with
    | checking => exact absurd rfl checking
    | taking => exact absurd rfl taking
    | calling job => exact .inr ⟨job, rfl, calling job rfl⟩
    | sending job => exact absurd rfl (sending (.inr (by rwa [empty])) job)
    | gone => exact .inl rfl
  refine ⟨all, ?_⟩
  by_contra none
  refine no_work_of_quiet quiet found .close rfl rfl (.close shut fun worker member => ?_)
  rcases all worker member with gone | ⟨job, rfl, -⟩
  · exact gone
  · exact absurd ⟨job, member⟩ none

end Timed

end Rollout
