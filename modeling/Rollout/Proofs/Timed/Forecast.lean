import Rollout.Proofs.Run.Updates
import Rollout.Proofs.Settings.Validity
import Rollout.Proofs.Timed.Keeping
import Rollout.Proofs.Timed.Return

/-! What the schedules of its phases say of a run. A phase begins when the one before it ends
in its schedule, the calls are those that start before the first deadline there, and the run
returns when the schedule of its last phase ends. -/

set_option autoImplicit false

namespace Rollout

namespace Plan

section
variable (plan : Plan) (timing : Timing)

def tasks (last : Bool) : List Schedule.Task :=
  Pool.tasksOf (timing last.toNat) (Pool.jobs (plan.components (plan.phase last)))

def starts (last : Bool) (begin : Nat) : List (Option Nat) :=
  Schedule.starts (List.replicate (plan.workers (plan.phase last)) (some begin))
    (plan.tasks timing last)

def scheduled (last : Bool) (begin : Nat) : List (Job × Nat) :=
  ((Pool.jobs (plan.components (plan.phase last))).zip (plan.starts timing last begin)).filterMap
    fun pair => (Schedule.inTime? plan.settings.cancelTimeout.nanos pair.2).map (pair.1, ·)

def phaseEnd (last : Bool) (begin : Nat) : Option PhaseFailure × Nat :=
  Schedule.phaseEnd (plan.workers (plan.phase last)) begin plan.settings.cancelTimeout.nanos
    plan.settings.quitTimeout.nanos (plan.tasks timing last)

/-- In the schedule of a phase no start falls on the first deadline, and the last end on none. -/
structure Clear (last : Bool) (begin : Nat) : Prop where
  starts : ∀ start, some start ∈ plan.starts timing last begin →
    start ≠ plan.settings.cancelTimeout.nanos
  ends : ∀ instant, Schedule.lastEnd begin (Schedule.startedBefore
      plan.settings.cancelTimeout.nanos
      (List.replicate (plan.workers (plan.phase last)) (some begin))
      (plan.tasks timing last)) = some instant →
    instant ≠ plan.settings.cancelTimeout.nanos ∧ instant ≠ plan.settings.quitTimeout.nanos

/-- Nothing in the schedules of a run falls on a deadline. -/
def AllClear : Prop :=
  plan.Clear timing false 0 ∧
    ∀ instant, plan.phaseEnd timing false 0 = (none, instant) → plan.Clear timing true instant

/-- A phase has ended as its schedule does, and will make no more calls. -/
structure Kept (since : Nat → Nat → Nat) (last : Bool) (begin : Nat) (outcome : Watch.Outcome)
    (ends : Nat) (pool : Pool) : Prop where
  ended : plan.phaseEnd timing last begin = (outcome, ends)
  taken : pool.taken.map (fun job => (job, since last.toNat job.position)) =
    plan.scheduled timing last begin
  halted : pool.Halted

def Prior (since : Nat → Nat → Nat) (begun : List Nat) (last : Bool) (begin : Nat)
    (done : List Pool) : Prop :=
  match last with
  | false => done = [] ∧ begin = 0 ∧ begun = []
  | true => ∃ first, done = [first] ∧ plan.Kept timing since false 0 none begin first ∧ begun = [0]

def Came (since : Nat → Nat → Nat) (begun : List Nat) (result : Except RunError Unit)
    (ends : Nat) (pools : List Pool) : Prop :=
  ∃ last begin outcome front done pool, pools = done ++ [pool] ∧ begun = front ++ [begin] ∧
    plan.Prior timing since front last begin done ∧
    plan.Kept timing since last begin outcome ends pool ∧
    result = RunError.resultOf (plan.phase last) outcome ∧ (outcome = none → last = true)

def Keeps (since : Nat → Nat → Nat) (begun : List Nat) (last : Bool) (now : Nat)
    (pools : List Pool) : Prop :=
  ∃ begin front done pool, pools = done ++ [pool] ∧ begun = front ++ [begin] ∧
    plan.Prior timing since front last begin done ∧
    pool.Scheduled (timing last.toNat) (since last.toNat) now
      plan.settings.cancelTimeout.nanos begin

def Agrees (since : Nat → Nat → Nat) (begun : List Nat) (now : Nat) (returnedAt : Option Nat)
    (stage : Stage) (pools : List Pool) : Prop :=
  match stage with
  | .ready _ last => plan.Prior timing since begun last now pools
  | .watching _ _ last => plan.Keeps timing since begun last now pools
  | .closing result => plan.Came timing since begun result now pools
  | .over result => ∃ instant, returnedAt = some instant ∧
    plan.Came timing since begun result instant pools

end

variable {plan : Plan} {timing : Timing} {since later : Nat → Nat → Nat} {last : Bool}
  {begin ends now : Nat} {outcome : Watch.Outcome} {pool next : Pool} {label : Pool.Label}
  {begun : List Nat} {done : List Pool}

theorem workers_pos (valid : plan.settings.validate = .ok ()) (phase : Phase) :
    1 ≤ plan.workers phase := by
  have some := (Settings.validate_eq_ok_iff.mp valid).workers
  rw [workers]
  cases phase.group with
  | prerequisites => exact Nat.le_refl _
  | components =>
    refine Nat.pos_of_ne_zero fun none => some ?_
    exact UInt64.toNat_inj.mp none

theorem Ledger.workers_eq (ledger : plan.Ledger (plan.phase last) pool)
    (valid : plan.settings.validate = .ok ()) :
    pool.workers.length = plan.workers (plan.phase last) := by
  rw [ledger.workers_length, Nat.max_eq_left (workers_pos valid _)]

theorem Ledger.allStarts_eq (ledger : plan.Ledger (plan.phase last) pool)
    (valid : plan.settings.validate = .ok ()) (begin : Nat) :
    pool.allStarts (timing last.toNat) begin = plan.starts timing last begin := by
  rw [Pool.allStarts, starts, tasks, ledger.workers_eq valid, ledger.listed]

theorem Clear.apart (clear : plan.Clear timing last begin)
    (ledger : plan.Ledger (plan.phase last) pool) (valid : plan.settings.validate = .ok ()) :
    pool.Apart (timing last.toNat) plan.settings.cancelTimeout.nanos begin := by
  intro start member
  rw [ledger.allStarts_eq valid] at member
  exact clear.starts start member

theorem Kept.congr (kept : plan.Kept timing since last begin outcome ends pool)
    (same : ∀ position, later last.toNat position = since last.toNat position) :
    plan.Kept timing later last begin outcome ends pool := by
  refine ⟨kept.ended, ?_, kept.halted⟩
  rw [← kept.taken]
  exact List.map_congr_left fun job _ => by rw [same]

theorem Kept.step (kept : plan.Kept timing since last begin outcome ends pool)
    (moved : pool.step label = some next) :
    plan.Kept timing since last begin outcome ends next := by
  obtain ⟨halted, taken⟩ := kept.halted.step moved
  exact ⟨kept.ended, taken ▸ kept.taken, halted⟩

theorem Prior.congr (prior : plan.Prior timing since begun last begin done)
    (same : last = true → ∀ position, later 0 position = since 0 position) :
    plan.Prior timing later begun last begin done := by
  cases last with
  | false => exact prior
  | true =>
    obtain ⟨first, here, kept, before⟩ := prior
    exact ⟨first, here, kept.congr (same rfl), before⟩

theorem Prior.clear (prior : plan.Prior timing since begun last begin done)
    (clear : plan.AllClear timing) : plan.Clear timing last begin := by
  cases last with
  | false =>
    obtain ⟨-, rfl, -⟩ := prior
    exact clear.1
  | true =>
    obtain ⟨first, -, kept, -⟩ := prior
    exact clear.2 begin kept.ended

theorem Keeps.latest (keeps : plan.Keeps timing since begun last now (done ++ [pool])) :
    ∃ begin front, begun = front ++ [begin] ∧ plan.Prior timing since front last begin done ∧
      pool.Scheduled (timing last.toNat) (since last.toNat) now
        plan.settings.cancelTimeout.nanos begin := by
  obtain ⟨begin, front, other, latest, same, before, prior, scheduled⟩ := keeps
  obtain ⟨rfl, rfl⟩ := List.append_singleton_inj.mp same
  exact ⟨begin, front, before, prior, scheduled⟩

-- No pool of a run that came to its result makes a call any more.
theorem Came.step {result : Except RunError Unit} {site after : Site} {index : Nat}
    (came : plan.Came timing since begun result ends site.pools)
    (moved : site.step index label = some after) :
    plan.Came timing since begun result ends after.pools ∧ after.calls = site.calls := by
  obtain ⟨last, begin, outcome, front, done, pool, pools, before, prior, kept, same, well⟩ := came
  obtain ⟨old, next, found, stepped, rfl⟩ := Site.step_inv moved
  have halted : old.Halted ∧ plan.Came timing since begun result ends
      (site.pools.set index next) := by
    rw [pools] at found ⊢
    cases last with
    | false =>
      obtain ⟨rfl, rfl, rfl⟩ := prior
      rw [List.nil_append, List.getElem?_singleton] at found
      split at found <;> cases found
      obtain rfl : index = 0 := by omega
      exact ⟨kept.halted, false, _, _, _, [], next, rfl, before, ⟨rfl, rfl, rfl⟩,
        kept.step stepped, same, well⟩
    | true =>
      obtain ⟨first, rfl, former, rfl⟩ := prior
      match index with
      | 0 =>
        cases found
        exact ⟨former.halted, true, _, _, _, [next], pool, rfl, before,
          ⟨next, rfl, former.step stepped, rfl⟩, kept, same, well⟩
      | 1 =>
        cases found
        exact ⟨kept.halted, true, _, _, _, [first], next, rfl, before, ⟨first, rfl, former, rfl⟩,
          kept.step stepped, same, well⟩
      | index + 2 => cases found
  refine ⟨halted.2, ?_⟩
  rcases Site.calls_step moved with calls | ⟨i, other, job, rest, -, here, taking, waiting, -⟩
  · exact calls
  · cases found.symm.trans here
    rcases halted.1.idle with empty | none
    · cases waiting.symm.trans empty
    · exact absurd (Pool.mem_of_found taking) none

section
variable (valid : plan.settings.validate = .ok ()) (clear : plan.Clear timing last begin)
  (ledger : plan.Ledger (plan.phase last) pool)
  (scheduled : pool.Scheduled (timing last.toNat) (since last.toNat) now
    plan.settings.cancelTimeout.nanos begin)
include valid clear ledger scheduled

theorem started_eq (finished : pool.cancelled = true ∨ pool.queue = []) :
    Schedule.startedBefore plan.settings.cancelTimeout.nanos
        (List.replicate (plan.workers (plan.phase last)) (some begin)) (plan.tasks timing last) =
      pool.slots (timing last.toNat) (since last.toNat) := by
  have started := scheduled.startedBefore (clear.apart ledger valid) finished
  rwa [ledger.workers_eq valid, ledger.listed] at started

theorem taken_eq (finished : pool.cancelled = true ∨ pool.queue = []) :
    pool.taken.map (fun job => (job, since last.toNat job.position)) =
      plan.scheduled timing last begin := by
  have inTime := scheduled.in_time (clear.apart ledger valid) finished fun job => job
  rw [List.map_id', ledger.listed, ledger.allStarts_eq valid] at inTime
  exact inTime.symm

/-- A phase that is watched to its end has ended as its schedule does. -/
theorem kept_judged
    (prompt : pool.cancelled = false → now ≤ plan.settings.cancelTimeout.nanos)
    (inTime : now ≤ plan.settings.quitTimeout.nanos) (closed : pool.closed = true)
    (drained : pool.channel = []) (listening : pool.receiverGone = false) :
    plan.Kept timing since last begin pool.verdict now pool := by
  have finished : pool.cancelled = true ∨ pool.queue = [] := by
    cases running : pool.cancelled with
    | true => exact .inl rfl
    | false => exact .inr (ledger.queue_nil closed listening running)
  have gone := ledger.all_gone closed listening
  have last := scheduled.lastEnd_eq ledger (ledger.no_hands closed listening).1
  rw [← started_eq valid clear ledger scheduled finished] at last
  refine ⟨?ended, taken_eq valid clear ledger scheduled finished, .inr gone, .inr ?idle⟩
  case ended =>
    have ended := scheduled.phaseEnd_judged ledger (clear.apart ledger valid)
      (clear.ends now last).1 prompt inTime closed drained listening
    rwa [ledger.workers_eq valid, ledger.listed] at ended
  case idle => exact fun taking => nomatch gone _ taking

/-- A phase that is given up has not ended by then in its schedule. -/
theorem kept_forced (cancelled : pool.cancelled = true)
    (late : plan.settings.quitTimeout.nanos ≤ now) :
    plan.Kept timing since last begin (some .forceQuit) plan.settings.quitTimeout.nanos pool := by
  have other (instant : Nat) (ended : Schedule.lastEnd begin
      (pool.slots (timing last.toNat) (since last.toNat)) = some instant) :
      instant ≠ plan.settings.quitTimeout.nanos := by
    rw [← started_eq valid clear ledger scheduled (.inl cancelled)] at ended
    exact (clear.ends instant ended).2
  refine ⟨?_, taken_eq valid clear ledger scheduled (.inl cancelled), scheduled.halted cancelled⟩
  have ended := scheduled.phaseEnd_forced (clear.apart ledger valid) other cancelled late
  rwa [ledger.workers_eq valid, ledger.listed] at ended

end

end Plan

namespace Timed

def Agrees (timing : Timing) (timed : Timed) : Prop :=
  timed.run.plan.Agrees timing timed.since timed.begun timed.now timed.returnedAt timed.run.stage
    timed.run.site.pools

variable {timing : Timing} {timed next : Timed} {label : Label}

theorem since_of_calls {label : Run.Label} {next : Run}
    (stepped : timed.run.step label = some next) (same : next.site.calls = timed.run.site.calls) :
    (timed.after label next).since = timed.since := by
  rcases since_step stepped with ⟨-, since⟩ | ⟨call, calls, -⟩
  · exact since
  · simp [same] at calls

theorem due_of_allowed {index : Nat} {pool : Pool} {label : Pool.Label}
    (found : timed.run.site.pools[index]? = some pool)
    (allowed : timed.allows timing (.work index label) = true) :
    Pool.Due (timing index) (timed.since index) timed.now pool label := by
  rintro i succeeded job rfl calling
  simp only [allows, found, Option.bind_some, calling, Bool.and_eq_true, beq_iff_eq, isOver,
    Option.any_eq_true, decide_eq_true_eq] at allowed
  obtain ⟨⟨duration, takes, passed⟩, answer⟩ := allowed
  exact ⟨answer, duration, takes, passed⟩

-- Either no call begins with a step of a pool, or a worker takes a job.
theorem newCall_cases (site : Site) (index : Nat) {pool after : Pool} {label : Pool.Label}
    (moved : pool.step label = some after) :
    (site.newCall? index pool label).toList = [] ∧ after.taken = pool.taken ∨
      ∃ i job rest, pool.workers[i]? = some .taking ∧ pool.queue = job :: rest ∧
        (site.newCall? index pool label).toList = [site.callFor index pool job] ∧
        after = { pool.become i (.calling job) with
          queue := rest, taken := pool.taken ++ [job] } := by
  cases Pool.move_of_step moved with
  | @take i job rest found waiting =>
    exact .inr ⟨i, job, rest, found, waiting, by simp [Site.newCall?, found, waiting], rfl⟩
  | leaveEmpty found empty => exact .inl ⟨by simp [Site.newCall?, found, empty], rfl⟩
  | _ => exact .inl ⟨rfl, rfl⟩

/-- A step in the pool of the phase under way keeps to its schedule. -/
theorem keeps_step {plan : Plan} {watch : Watch} {last : Bool} {done : List Pool} {pool : Pool}
    {site : Site} {label : Pool.Label} {later : Nat → Nat → Nat}
    (watched : plan.Watching watch last done pool) (pools : timed.run.site.pools = done ++ [pool])
    (keeps : plan.Keeps timing timed.since timed.begun last timed.now timed.run.site.pools)
    (prompt : watch.timedOut = false → timed.now ≤ plan.settings.cancelTimeout.nanos)
    (moved : timed.run.site.step last.toNat label = some site)
    (due : Pool.Due (timing last.toNat) (timed.since last.toNat) timed.now pool label)
    (inside : label ≠ .cancel)
    (since : site.calls = timed.run.site.calls ∧ later = timed.since ∨
      ∃ call, site.calls = timed.run.site.calls ++ [call] ∧ ∀ place position,
        later place position = if call.pool = place ∧ call.job.position = position then timed.now
          else timed.since place position) :
    plan.Keeps timing later timed.begun last timed.now site.pools := by
  rw [pools] at keeps
  obtain ⟨begin, front, before, prior, scheduled⟩ := keeps.latest
  have length := plan.length_before watched.finished
  obtain ⟨old, after, found, stepped, rfl⟩ := Site.step_inv moved
  rw [pools, ← length, List.getElem?_concat_length] at found
  cases found
  have place : (timed.run.site.pools.set last.toNat after) = done ++ [after] := by
    rw [pools, ← length, List.set_append_right _ _ (Nat.le_refl _), Nat.sub_self,
      List.set_cons_zero]
  rcases newCall_cases timed.run.site last.toNat stepped with
    ⟨none, taken⟩ | ⟨i, job, rest, taking, waiting, one, rfl⟩
  · rw [none, List.append_nil] at since
    rcases since with ⟨-, rfl⟩ | ⟨call, calls, -⟩
    · refine ⟨begin, front, done, after, place, before, prior, ?_⟩
      refine scheduled.step watched.ledger watched.sees.listening due stepped ?_ taken
      cases Pool.move_of_step stepped with
      | cancel => exact absurd rfl inside
      | _ => rfl
    · simp at calls
  · -- a job is taken, and its start is noted
    rw [one] at since
    rcases since with ⟨calls, -⟩ | ⟨call, calls, since⟩
    · simp at calls
    · rw [List.append_cancel_left_eq, List.singleton_inj] at calls
      subst calls
      refine ⟨begin, front, done, _, place, before, prior.congr ?_, ?_⟩
      · rintro rfl position
        rw [since, if_neg]
        rintro ⟨same, -⟩
        cases same
      · refine scheduled.take watched.ledger (fun running => prompt ?_) taking waiting ?_ ?_
        · rw [watched.sees.timedOut, running]
        · intro other member
          rw [since, if_neg]
          rintro ⟨-, same⟩
          refine watched.ledger.position_ne member ?_ same.symm
          rw [waiting]
          exact List.mem_cons_self
        · rw [since, if_pos ⟨rfl, rfl⟩]

/-- The guard under which overrides can be read whenever a phase begins. -/
def readable (timed : Timed) : Label → Bool
  | .act .begin => timed.run.readable
  | _ => true

theorem agrees_work {index : Nat} {label : Pool.Label} {site : Site}
    (agrees : timed.Agrees timing) (staged : timed.run.Staged) (onTime : timed.OnTime)
    (allowed : timed.allows timing (.work index label) = true)
    (work : Run.isWork label = true) (moved : timed.run.site.step index label = some site) :
    (timed.after (.work index label) { timed.run with site := site }).Agrees timing := by
  have stepped : timed.run.step (.work index label) = some { timed.run with site := site } := by
    rw [Run.step, if_pos work, moved]
    rfl
  have came {result : Except RunError Unit} {ends : Nat}
      (came : timed.run.plan.Came timing timed.since timed.begun result ends
        timed.run.site.pools) :
      timed.run.plan.Came timing (timed.after (.work index label)
        { timed.run with site := site }).since timed.begun result ends site.pools := by
    obtain ⟨kept, calls⟩ := came.step moved
    rw [since_of_calls stepped calls]
    exact kept
  rw [Agrees] at agrees
  change timed.run.plan.Agrees timing (timed.after (.work index label) _).since timed.begun
    timed.now timed.returnedAt timed.run.stage site.pools
  rw [OnTime] at onTime
  rw [Run.Staged] at staged
  rcases stage : timed.run.stage with ⟨phase, last⟩ | ⟨watch, idle, last⟩ | result | result
  · rw [stage] at staged
    exact absurd moved (Site.idle staged.2 work)
  · rw [stage] at staged onTime agrees
    obtain ⟨done, pool, pools, watched⟩ := staged
    have place := Site.work_latest pools watched.finished work moved
    rw [timed.run.plan.length_before watched.finished] at place
    subst place
    have found : timed.run.site.pools[last.toNat]? = some pool := by
      rw [pools, ← timed.run.plan.length_before watched.finished, List.getElem?_concat_length]
    refine keeps_step watched pools agrees onTime.2.2.cancel moved (due_of_allowed found allowed)
      ?_ (since_step stepped)
    rintro rfl
    cases work
  · rw [stage] at agrees
    exact came agrees
  · rw [stage] at agrees
    obtain ⟨instant, returned, here⟩ := agrees
    exact ⟨instant, returned, came here⟩

theorem agrees_opened {phase : Phase} {last : Bool} {site : Site} {next : Run}
    (agrees : timed.Agrees timing) (staged : timed.run.Staged)
    (ready : timed.run.stage = .ready phase last)
    (opened : timed.run.site.openPool phase.action (timed.run.plan.workers phase)
      (.ok (timed.run.plan.components phase)) = .ok site)
    (stepped : timed.run.step .begin = some next) (same : next.site = site)
    (plan : next.plan = timed.run.plan)
    (stage : next.stage = .watching { phase := phase } false last) :
    (timed.after .begin next).Agrees timing := by
  rw [Agrees, ready] at agrees
  rw [Run.Staged, ready] at staged
  obtain ⟨rfl, -⟩ := staged
  obtain ⟨source, rfl, -⟩ := Site.openPool_inv opened
  have since := since_of_calls stepped (by rw [same])
  rw [Agrees, after_run, stage, since, plan, same]
  exact ⟨timed.now, timed.begun, timed.run.site.pools, _, rfl, rfl, agrees,
    Pool.scheduled_start _ _ _ _ _ _ _⟩

theorem agrees_receive {watch : Watch} {last : Bool} {site : Site}
    (agrees : timed.Agrees timing) (staged : timed.run.Staged) (onTime : timed.OnTime)
    (watching : timed.run.stage = .watching watch false last)
    (moved : timed.run.site.step timed.run.current .receive = some site) :
    timed.run.plan.Keeps timing timed.since timed.begun last timed.now site.pools := by
  rw [Agrees, watching] at agrees
  rw [Run.Staged, watching] at staged
  rw [OnTime, watching] at onTime
  obtain ⟨done, pool, pools, watched⟩ := staged
  rw [Run.current_eq pools, timed.run.plan.length_before watched.finished] at moved
  refine keeps_step watched pools agrees onTime.2.2.cancel moved ?_ (by simp)
    (.inl ⟨Site.calls_still moved rfl, rfl⟩)
  intro i succeeded job other
  cases other

theorem agrees_ended {watch : Watch} {last : Bool} {pool : Pool}
    (valid : timed.run.plan.settings.validate = .ok ())
    (clear : timed.run.plan.AllClear timing) (agrees : timed.Agrees timing)
    (staged : timed.run.Staged) (onTime : timed.OnTime)
    (watching : timed.run.stage = .watching watch false last)
    (found : timed.run.site.pools[timed.run.current]? = some pool) (drained : pool.channel = [])
    (closed : pool.closed = true) (updates : List Update) :
    ((timed.run.tell updates).afterPhase watch.phase last watch.verdict).plan.Agrees timing
      timed.since timed.begun timed.now timed.returnedAt
      ((timed.run.tell updates).afterPhase watch.phase last watch.verdict).stage
      timed.run.site.pools := by
  rw [Agrees, watching] at agrees
  rw [Run.Staged, watching] at staged
  rw [OnTime, watching] at onTime
  obtain ⟨done, latest, pools, watched⟩ := staged
  cases Run.found_latest pools found
  rw [pools] at agrees ⊢
  obtain ⟨begin, front, before, prior, scheduled⟩ := Plan.Keeps.latest agrees
  have kept := Plan.kept_judged valid (prior.clear clear) watched.ledger scheduled
    (fun running => onTime.2.2.cancel (watched.sees.timedOut.trans running)) onTime.2.2.quit closed
    drained watched.sees.listening
  rw [← watched.sees.verdict] at kept
  rw [Run.afterPhase_plan, watched.phase]
  cases outcome : watch.verdict with
  | some failure =>
    rw [outcome] at kept
    exact ⟨last, begin, _, front, done, pool, rfl, before, prior, kept, rfl, by simp⟩
  | none =>
    rw [outcome] at kept
    cases last with
    | true =>
      exact ⟨true, begin, none, front, done, pool, rfl, before, prior, kept, rfl, fun _ => rfl⟩
    | false =>
      obtain ⟨rfl, rfl, rfl⟩ := prior
      exact ⟨pool, rfl, kept, before⟩

theorem agrees_cancel {watch : Watch} {last : Bool} {site : Site}
    (valid : timed.run.plan.settings.validate = .ok ())
    (clear : timed.run.plan.AllClear timing) (agrees : timed.Agrees timing)
    (staged : timed.run.Staged) (onTime : timed.OnTime)
    (watching : timed.run.stage = .watching watch true last) (early : watch.timedOut = false)
    (due : timed.cancelAt ≤ timed.now)
    (moved : timed.run.site.step timed.run.current .cancel = some site) :
    timed.run.plan.Keeps timing timed.since timed.begun last timed.now site.pools := by
  rw [Agrees, watching] at agrees
  rw [Run.Staged, watching] at staged
  rw [OnTime, watching] at onTime
  obtain ⟨done, pool, pools, watched⟩ := staged
  obtain ⟨cancelAt, -, inTime⟩ := onTime
  have prompt := inTime.cancel early
  rw [pools] at agrees
  obtain ⟨begin, front, before, prior, scheduled⟩ := Plan.Keeps.latest agrees
  rw [Run.current_eq pools] at moved
  obtain ⟨after, stepped, same⟩ := Site.step_latest pools moved
  cases Pool.move_of_step stepped with
  | cancel =>
    refine ⟨begin, front, done, _, same, before, prior, ?_⟩
    refine scheduled.cancel ((prior.clear clear).apart watched.ledger valid) ?_
    omega

theorem agrees_quit {watch : Watch} {last : Bool} {middle site : Site}
    (valid : timed.run.plan.settings.validate = .ok ())
    (clear : timed.run.plan.AllClear timing) (agrees : timed.Agrees timing)
    (staged : timed.run.Staged) (onTime : timed.OnTime)
    (watching : timed.run.stage = .watching watch true last) (due : timed.quitAt ≤ timed.now)
    (first : timed.run.site.step timed.run.current .cancel = some middle)
    (second : middle.step (middle.pools.length - 1) .drop = some site) :
    timed.run.plan.Came timing timed.since timed.begun (.error ⟨watch.phase, .forceQuit⟩) timed.now
      site.pools := by
  rw [Agrees, watching] at agrees
  rw [Run.Staged, watching] at staged
  rw [OnTime, watching] at onTime
  obtain ⟨done, pool, pools, watched⟩ := staged
  obtain ⟨-, quitAt, inTime⟩ := onTime
  rw [pools] at agrees
  obtain ⟨begin, front, before, prior, scheduled⟩ := Plan.Keeps.latest agrees
  -- the first deadline has passed long before
  have cancelled : pool.cancelled = true := by
    by_contra running
    have prompt := inTime.cancel (watched.sees.timedOut.trans (by simpa using running))
    have order := Duration.lt_iff.mp (Settings.validate_eq_ok_iff.mp valid).order
    omega
  have kept := Plan.kept_forced valid (prior.clear clear) watched.ledger scheduled cancelled
    (by omega)
  rw [Run.current_eq pools] at first
  obtain ⟨other, stepped, same⟩ := Site.step_latest pools first
  rw [same, List.length_append, List.length_singleton, Nat.add_sub_cancel] at second
  obtain ⟨final, left, last'⟩ := Site.step_latest same second
  have now : timed.now = timed.run.plan.settings.quitTimeout.nanos :=
    Nat.le_antisymm inTime.quit (quitAt ▸ due)
  rw [now, watched.phase]
  exact ⟨last, begin, _, front, done, final, last', before, prior, (kept.step stepped).step left,
    rfl, by simp⟩

theorem agrees_after {label : Run.Label} {next : Run}
    (stepped : timed.run.step label = some next) (calls : next.site.calls = timed.run.site.calls)
    (begun : (timed.after label next).begun = timed.begun)
    (agrees : next.plan.Agrees timing timed.since timed.begun timed.now
      (timed.after label next).returnedAt next.stage next.site.pools) :
    (timed.after label next).Agrees timing := by
  rw [Agrees, since_of_calls stepped calls, begun, after_now, after_run]
  exact agrees

theorem Agrees.act {label : Run.Label} {next : Run}
    (valid : timed.run.plan.settings.validate = .ok ())
    (clear : timed.run.plan.AllClear timing) (agrees : timed.Agrees timing)
    (staged : timed.run.Staged) (onTime : timed.OnTime)
    (counted : timed.readable (.act label) = true)
    (allowed : timed.allows timing label = true) (stepped : timed.run.step label = some next) :
    (timed.after label next).Agrees timing := by
  cases Run.move_of_step stepped with
  | opened ready opened => exact agrees_opened agrees staged ready opened stepped rfl rfl rfl
  | refused ready refused =>
    obtain ⟨site, opened⟩ := staged.opens ready counted
    cases opened.symm.trans refused
  | work work moved => exact agrees_work agrees staged onTime allowed work moved
  | receive watching found waiting moved =>
    have keeps := agrees_receive agrees staged onTime watching moved
    exact agrees_after stepped (Site.calls_still moved rfl) rfl keeps
  | seeEnd watching found drained closed =>
    refine agrees_after stepped (by simp) rfl ?_
    rw [Run.afterPhase_site]
    exact agrees_ended valid clear agrees staged onTime watching found drained closed _
  | pass watching | wake watching =>
    refine agrees_after stepped rfl rfl ?_
    rwa [Agrees, watching] at agrees
  | cancelDeadline watching early moved =>
    have due : timed.cancelAt ≤ timed.now := by simpa [allows] using allowed
    have keeps := agrees_cancel valid clear agrees staged onTime watching early due moved
    exact agrees_after stepped (Site.calls_still moved rfl) rfl keeps
  | quitDeadline watching first second =>
    simp only [allows, Bool.and_eq_true, decide_eq_true_eq] at allowed
    have came := agrees_quit valid clear agrees staged onTime watching allowed.1 first second
    exact agrees_after stepped ((Site.calls_still second rfl).trans (Site.calls_still first rfl))
      rfl came
  | deliver | edit => exact agrees_after stepped rfl rfl agrees
  | conclude closing =>
    rw [Agrees, closing] at agrees
    exact agrees_after stepped rfl rfl ⟨timed.now, rfl, agrees⟩

theorem Agrees.tick (agrees : timed.Agrees timing) (staged : timed.run.Staged)
    (attended : timed.run.Attended) (quiet : timed.isQuiet timing = true) :
    ({ timed with now := timed.now + 1 } : Timed).Agrees timing := by
  rcases stage_of_quiet staged attended quiet with ⟨watch, last, watching⟩ | ⟨result, atEnd⟩
  · rw [Agrees, watching] at agrees
    rw [Run.Staged, watching] at staged
    obtain ⟨done, pool, pools, watched⟩ := staged
    have waits := waits_of_quiet pools watched.sees.listening watching quiet
    rw [pools] at agrees
    obtain ⟨begin, front, before, prior, scheduled⟩ := Plan.Keeps.latest agrees
    rw [Agrees, watching]
    have found : timed.run.site.pools[last.toNat]? = some pool := by
      rw [pools, ← timed.run.plan.length_before watched.finished, List.getElem?_concat_length]
    have capacity : 0 < pool.capacity := by
      rw [watched.ledger.capacity_eq]
      omega
    obtain ⟨workers, calls⟩ := calling_of_quiet quiet found waits.empty waits.shut capacity
    refine ⟨begin, front, done, pool, pools, before, prior, ?_⟩
    refine scheduled.tick watched.ledger (fun worker member => ?_) calls
    rcases workers worker member with gone | ⟨job, calling, notOver⟩
    · exact .inl gone
    · refine .inr ⟨job, calling, fun duration takes => ?_⟩
      simpa [isOver, takes] using notOver
  · rw [Agrees, atEnd] at agrees ⊢
    exact agrees

end Timed

end Rollout
