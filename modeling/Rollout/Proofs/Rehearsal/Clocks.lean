import Rollout.Proofs.Rehearsal.Turns
import Rollout.Proofs.Timed.Agreement

/-! Two clocks. The one of a rehearsal knows when the calls under way are over, and the one of a
run when they began; each tells what the other does. -/

set_option autoImplicit false

namespace Rollout

/-- What the calls of a plan are to its workers. -/
def Script.timing (script : Script) (plan : Plan) : Timing := fun index position =>
  match (plan.components (plan.phase (index == 1)))[position]? with
  | some component => (script.behaviour index ⟨position, component⟩).task
  | none => { duration := none, fails := false }

theorem Script.timing_eq (script : Script) (plan : Plan) {last : Bool} {job : Job}
    (listed : job ∈ Pool.jobs (plan.components (plan.phase last))) :
    script.timing plan last.toNat job.position = (script.behaviour last.toNat job).task := by
  have found := Pool.mem_jobs.mp listed
  have same : (last.toNat == 1) = last := by cases last <;> rfl
  rw [timing, same, found]

/-! ## Calls under way -/

theorem Pool.calling_become {pool : Pool} {i j : Nat} {other : Worker} {job : Job}
    (idle : other ≠ .calling job) (here : (pool.become j other).workers[i]? = some (.calling job)) :
    pool.workers[i]? = some (.calling job) := by
  rw [become, List.getElem?_set] at here
  split at here
  · split at here
    · exact absurd (Option.some.inj here) idle
    · cases here
  · exact here

theorem Site.calling_step {site next : Site} {index place i : Nat} {label : Pool.Label}
    (moved : site.step place label = some next) (calls : next.calls = site.calls) {pool : Pool}
    {job : Job} (found : next.pools[index]? = some pool)
    (here : pool.workers[i]? = some (.calling job)) :
    ∃ old, site.pools[index]? = some old ∧ old.workers[i]? = some (.calling job) := by
  obtain ⟨old, after, before, stepped, rfl⟩ := step_inv moved
  rw [List.getElem?_set] at found
  split at found
  · rename_i same
    subst same
    split at found <;> cases found
    refine ⟨old, before, ?_⟩
    cases Pool.move_of_step stepped with
    | take taking waiting => simp [newCall?, taking, waiting] at calls
    | leaveCancelled | goOn | leaveEmpty | finish | lose | send =>
      exact Pool.calling_become (by simp) here
    | close | receive | cancel | drop => exact here
  · exact ⟨pool, found, here⟩

/-- No step but the start of a call makes a worker call. -/
theorem Run.calling_step {run next : Run} {label : Label} (stepped : run.step label = some next)
    (calls : next.site.calls = run.site.calls) {index i : Nat} {pool : Pool} {job : Job}
    (found : next.site.pools[index]? = some pool) (here : pool.workers[i]? = some (.calling job)) :
    ∃ old, run.site.pools[index]? = some old ∧ old.workers[i]? = some (.calling job) := by
  cases move_of_step stepped with
  | opened _ opened =>
    obtain ⟨source, rfl, -⟩ := Site.openPool_inv opened
    rcases Nat.lt_or_ge index run.site.pools.length with before | behind
    · rw [List.getElem?_append_left before] at found
      exact ⟨pool, found, here⟩
    · rw [List.getElem?_append_right behind, List.getElem?_singleton] at found
      split at found <;> cases found
      rw [Pool.start_eq] at here
      cases (List.mem_replicate.mp (List.mem_of_getElem? here)).2
  | work _ moved | receive _ _ _ moved | cancelDeadline _ _ moved =>
    exact Site.calling_step moved calls found here
  | quitDeadline _ first second =>
    obtain ⟨middle, between, calling⟩ :=
      Site.calling_step second (Site.calls_still second rfl) found here
    exact Site.calling_step first (Site.calls_still first rfl) between calling
  | seeEnd => exact ⟨pool, by simpa using found, here⟩
  | refused | pass | wake | deliver | edit | conclude => exact ⟨pool, found, here⟩

section
variable {run next : Run} {index i : Nat} {pool : Pool} {job : Job} {rest : List Job}
  (found : run.site.pools[index]? = some pool) (taking : pool.workers[i]? = some .taking)
  (waiting : pool.queue = job :: rest)
include found taking waiting

theorem Run.step_take (stepped : run.step (.work index (.take i)) = some next) :
    next.site.calls = run.site.calls ++ [run.site.callFor index pool job] ∧
      next.site.pools = run.site.pools.set index
        { pool.become i (.calling job) with queue := rest, taken := pool.taken ++ [job] } := by
  cases move_of_step stepped with
  | work _ moved =>
    have took := Site.step_of_pool found (Pool.step_of_move (.take taking waiting))
    cases moved.symm.trans took
    exact ⟨by simp [Site.newCall?, taking, waiting], rfl⟩

/-- Who is calling when a job has been taken: the one that took it, and those that were. -/
theorem Run.calling_take (stepped : run.step (.work index (.take i)) = some next)
    {place worker : Nat} {other : Pool} {task : Job}
    (there : next.site.pools[place]? = some other)
    (calling : other.workers[worker]? = some (.calling task)) :
    (place, worker) = (index, i) ∧ task = job ∨ (place, worker) ≠ (index, i) ∧
      ∃ old, run.site.pools[place]? = some old ∧ old.workers[worker]? = some (.calling task) := by
  rw [(step_take found taking waiting stepped).2, List.getElem?_set] at there
  by_cases here : index = place
  · subst here
    rw [if_pos rfl] at there
    split at there <;> cases there
    by_cases same : i = worker
    · subst same
      rw [Pool.become, List.getElem?_set, if_pos rfl] at calling
      split at calling <;> cases calling
      exact .inl ⟨rfl, rfl⟩
    · rw [Pool.become, List.getElem?_set_ne same] at calling
      exact .inr ⟨by simpa using Ne.symm same, pool, found, calling⟩
  · rw [if_neg here] at there
    exact .inr ⟨by simp [Ne.symm here], other, there, calling⟩

end

theorem Timed.since_take {timed : Timed} {next : Run} {index i : Nat} {pool : Pool} {job : Job}
    {rest : List Job} (found : timed.run.site.pools[index]? = some pool)
    (taking : pool.workers[i]? = some .taking) (waiting : pool.queue = job :: rest)
    (stepped : timed.run.step (.work index (.take i)) = some next) (place position : Nat) :
    (timed.after (.work index (.take i)) next).since place position =
      if index = place ∧ job.position = position then timed.now
      else timed.since place position := by
  have calls := (Run.step_take found taking waiting stepped).1
  rcases since_step stepped with ⟨same, -⟩ | ⟨began, more, since⟩
  · simp [same] at calls
  · rw [calls, List.append_cancel_left_eq, List.singleton_inj] at more
    rw [since, ← more]
    rfl

namespace Clock

def Tells (clock : Clock) (index i since delay : Nat) : Prop :=
  (clock.stage? index i = some .gathering ∧ since = clock.now) ∨
    clock.stage? index i = some (.underWay (since + delay))

/-- A clock is where that of a run is, and knows all calls under way. -/
structure Shows (script : Script) (clock : Clock) (timed : Timed) : Prop where
  now : timed.now = clock.now
  starts : clock.starts = timed.calls.map (·.2.2)
  held : clock.released = false
  calling : ∀ index pool i job, timed.run.site.pools[index]? = some pool →
    pool.workers[i]? = some (.calling job) →
    clock.Tells index i (timed.since index job.position) (script.behaviour index job).delay

variable {script : Script} {clock : Clock} {timed : Timed} {next : Run} {label : Run.Label}
  {index i : Nat} {pool : Pool} {job : Job}

theorem Shows.act (shows : clock.Shows script timed) (stepped : timed.run.step label = some next)
    (calls : next.site.calls = timed.run.site.calls) :
    clock.Shows script (timed.after label next) where
  now := (Timed.after_now timed label next).trans shows.now
  starts := by
    rw [shows.starts, Timed.calls, Timed.calls, Timed.since_of_calls stepped calls,
      Timed.after_run, calls]
  held := shows.held
  calling := by
    intro index pool i job found here
    rw [Timed.after_run] at found
    rw [Timed.since_of_calls stepped calls]
    obtain ⟨old, before, calling⟩ := Run.calling_step stepped calls found here
    exact shows.calling index old i job before calling

theorem Shows.counting (shows : clock.Shows script timed) (site : Site) :
    (clock.counting site).Shows script timed :=
  ⟨shows.now, shows.starts, shows.held, shows.calling⟩

/-- A worker that has finished its call is no longer of interest. -/
theorem Shows.finish (shows : clock.Shows script timed)
    (idle : ∀ pool job, timed.run.site.pools[index]? = some pool →
      pool.workers[i]? ≠ some (.calling job)) :
    (clock.withoutStage index i).Shows script timed where
  now := shows.now
  starts := shows.starts
  held := shows.held
  calling := by
    intro place pool worker job found here
    have apart : (place, worker) ≠ (index, i) := by
      rintro same
      cases same
      exact idle pool job found here
    rw [Tells, withoutStage_other clock apart]
    exact shows.calling place pool worker job found here

theorem Shows.gather (shows : clock.Shows script timed)
    (found : timed.run.site.pools[index]? = some pool)
    (here : pool.workers[i]? = some (.calling job))
    (gathering : clock.stage? index i = some .gathering) :
    (clock.withStage index i (.underWay (clock.now + (script.behaviour index job).delay))).Shows
      script timed where
  now := shows.now
  starts := shows.starts
  held := shows.held
  calling := by
    intro place other worker task there calling
    by_cases same : (place, worker) = (index, i)
    · cases same
      cases found.symm.trans there
      cases here.symm.trans calling
      rcases shows.calling index pool i job found here with ⟨-, since⟩ | underWay
      · right
        rw [withStage_self, since]
      · cases gathering.symm.trans underWay
    · rw [Tells, withStage_other clock _ same]
      exact shows.calling place other worker task there calling

/-- A call begins at the present instant, which changes nothing for others. -/
theorem Shows.take {rest : List Job} (shows : clock.Shows script timed)
    (stepped : timed.run.step (.work index (.take i)) = some next)
    (found : timed.run.site.pools[index]? = some pool) (taking : pool.workers[i]? = some .taking)
    (waiting : pool.queue = job :: rest)
    (fresh : ∀ call ∈ timed.run.site.calls, call.pool = index → call.job.position ≠ job.position)
    (apart : ∀ other, .calling other ∈ pool.workers → other.position ≠ job.position) :
    ({ clock.withStage index i .gathering with starts := clock.starts ++ [clock.now] } :
      Clock).Shows script (timed.after (.work index (.take i)) next) := by
  have since := Timed.since_take found taking waiting stepped
  have still {place position : Nat} (other : place = index → position ≠ job.position) :
      (timed.after (.work index (.take i)) next).since place position =
        timed.since place position := by
    rw [since, if_neg]
    rintro ⟨rfl, rfl⟩
    exact other rfl rfl
  constructor
  case now => exact shows.now
  case starts =>
    have before : timed.run.site.calls.map (fun call =>
        (timed.after (.work index (.take i)) next).since call.pool call.job.position) =
        timed.run.site.calls.map fun call => timed.since call.pool call.job.position :=
      List.map_congr_left fun call member => still (fresh call member)
    have now : (timed.after (.work index (.take i)) next).since index job.position = clock.now := by
      rw [since, if_pos ⟨rfl, rfl⟩, shows.now]
    change clock.starts ++ [clock.now] = _
    rw [shows.starts, Timed.calls, Timed.calls, Timed.after_run,
      (Run.step_take found taking waiting stepped).1, List.map_map, List.map_map, List.map_append]
    exact congrArg₂ (· ++ ·) before.symm (congrArg (fun start => [start]) now.symm)
  case held => exact shows.held
  case calling =>
    intro place worker other task there calling
    rw [Timed.after_run] at there
    rcases Run.calling_take found taking waiting stepped there calling with
      ⟨here, rfl⟩ | ⟨elsewhere, old, there, calling⟩
    · cases here
      refine .inl ⟨withStage_self clock index i .gathering, ?_⟩
      rw [since, if_pos ⟨rfl, rfl⟩]
      exact shows.now
    · have different (same : place = index) : task.position ≠ job.position := by
        subst same
        cases found.symm.trans there
        exact apart task (Pool.mem_of_found calling)
      rw [still different]
      have kept := withStage_other clock .gathering elsewhere
      rcases shows.calling place old _ task there calling with ⟨stage, now⟩ | stage
      · exact .inl ⟨kept.trans stage, now⟩
      · exact .inr (kept.trans stage)

theorem Shows.advance {instant : Nat} (shows : clock.Shows script timed) (plain : script.Plain)
    (none : clock.next script timed.run.site = none) (later : clock.now ≤ instant) :
    (clock.advance instant).Shows script { timed with now := instant } where
  now := (Nat.max_eq_right later).symm
  starts := shows.starts
  held := shows.held
  calling := by
    intro index pool i job found here
    rcases shows.calling index pool i job found here with ⟨gathering, -⟩ | underWay
    · exact absurd (.gather here gathering) (no_turn_of_next plain none found)
    · exact .inr underWay

end Clock

end Rollout
