import Rollout.Proofs.Rehearsal.Clocks
import Rollout.Proofs.Rehearsal.Steps
import Rollout.Proofs.Run.Alike

/-! Rehearsals follow runs on a clock. What is rehearsed at an instant can happen at it, and the
clock is moved on only where nothing else can happen before. -/

set_option autoImplicit false

namespace Rollout

/-- A watcher that is awake in one of two runs, and perhaps idle in the other. -/
theorem Stage.awake_cases {stage other : Stage} (same : other.awake = stage.awake)
    (awake : stage.awake = stage) : other = stage ∨
      ∃ watch last, stage = .watching watch false last ∧ other = .watching watch true last := by
  rw [awake] at same
  rcases other with ⟨phase, last⟩ | ⟨watch, idle, last⟩ | result | result
  case watching =>
    cases idle with
    | false => exact .inl same
    | true => exact .inr ⟨watch, last, same.symm, rfl⟩
  all_goals exact .inl same

namespace Run

def isWatch : Label → Bool
  | .receive | .seeEnd | .pass | .wake | .cancelDeadline | .quitDeadline => true
  | _ => false

variable {run next : Run} {label : Label}

theorem calls_watch (stepped : run.step label = some next) (watch : isWatch label = true) :
    next.site.calls = run.site.calls := by
  rcases calls_step stepped with same | ⟨place, i, -, -, -, rfl, -⟩
  · exact same
  · cases watch

theorem calls_other {index : Nat} {label : Pool.Label}
    (stepped : run.step (.work index label) = some next) (other : ∀ i, label ≠ .take i) :
    next.site.calls = run.site.calls := by
  rcases calls_step stepped with same | ⟨place, i, -, -, -, taking, -⟩
  · exact same
  · cases taking
    exact absurd rfl (other i)

theorem Alike.readable {other : Run} (alike : run.Alike other) :
    other.readable = run.readable := by
  rw [Run.readable, Run.readable, alike.plan, alike.site]

end Run

namespace Timed

variable {timing : Timing} {timed : Timed} {target : Nat}

theorem after_watch (timed : Timed) {label : Run.Label} (next : Run)
    (watch : Run.isWatch label = true ∨ ∃ forward, label = .deliver forward) :
    (timed.after label next).cancelAt = timed.cancelAt ∧
      (timed.after label next).quitAt = timed.quitAt ∧
      (timed.after label next).returnedAt = timed.returnedAt := by
  rcases watch with watch | ⟨forward, rfl⟩
  · cases label with
    | receive | seeEnd | pass | wake | cancelDeadline | quitDeadline => exact ⟨rfl, rfl, rfl⟩
    | begin | work | deliver | edit | conclude => cases watch
  · exact ⟨rfl, rfl, rfl⟩

theorem reaches_ticks (later : timed.now ≤ target)
    (quiet : ∀ instant, timed.now ≤ instant → instant < target →
      ({ timed with now := instant } : Timed).isQuiet timing = true) :
    Reaches (step timing) readable timed { timed with now := target } := by
  induction later with
  | refl => exact .refl
  | @step instant later ih =>
    have before := ih fun other after early => quiet other after (Nat.lt_succ_of_lt early)
    have tick := step_of_move (.tick (quiet instant later (Nat.lt_succ_self instant)))
    exact before.tail ⟨.tick, rfl, tick⟩

end Timed

namespace RunRehearsal

/-- A rehearsal is where a run on a clock is, but for the forwarding of updates. -/
structure Shows (script : Script) (rehearsal : RunRehearsal) (timed : Timed) : Prop where
  alike : rehearsal.run.Alike timed.run
  clock : rehearsal.clock.Shows script timed
  cancelAt : timed.cancelAt = rehearsal.cancelAt
  quitAt : timed.quitAt = rehearsal.quitAt
  returnedAt : timed.returnedAt = rehearsal.returnedAt

variable {script : Script} {plan : Plan} {source : OverridesSource} {directory : Directory}
  {observed : Bool} {rehearsal next : RunRehearsal} {timed : Timed} {index i : Nat}
  {pool after : Pool} {clock : Clock} {deeds : List Deed} {timing : Timing} {watch : Watch}
  {last : Bool}

theorem shows_start (script : Script) (plan : Plan) (source : OverridesSource)
    (directory : Directory) (observed : Bool) :
    Shows script { run := Run.start plan source directory observed }
      (Timed.start plan source directory observed) where
  alike := ⟨rfl, rfl, rfl, rfl, rfl, rfl⟩
  clock := ⟨rfl, rfl, rfl, fun _ _ _ _ found => nomatch found⟩
  cancelAt := rfl
  quitAt := rfl
  returnedAt := rfl

/-! ## Turns of workers -/

theorem Shows.work {label : Pool.Label} (shows : rehearsal.Shows script timed)
    (found : rehearsal.run.site.pools[index]? = some pool) (work : Run.isWork label = true)
    (moved : pool.step label = some after)
    (allowed : timed.allows timing (.work index label) = true)
    (told : ∀ run, timed.run.step (.work index label) = some run →
      clock.Shows script (timed.after (.work index label) run)) :
    ∃ later, Reaches (Timed.step timing) Timed.readable timed later ∧
      (rehearsal.performDeeds [.step index label] clock).Shows script later := by
  have stepped := Run.step_of_move (.work work (Site.step_of_pool found moved))
  obtain ⟨run, follows, alike⟩ := shows.alike.work stepped
  rw [performDeeds_of_step stepped]
  refine ⟨timed.after (.work index label) run,
    .single ⟨.act _, rfl, Timed.step_of_move (.act allowed follows)⟩, ?_⟩
  exact {
    alike := by
      rw [Timed.after_run]
      exact alike
    clock := (told run follows).counting _
    cancelAt := shows.cancelAt
    quitAt := shows.quitAt
    returnedAt := shows.returnedAt }

section
variable (reached : Reaches (Timed.step (script.timing plan)) Timed.readable
  (Timed.start plan source directory observed) timed)
include reached

/-- What the call of a worker is to it. -/
theorem timing_of_reaches {job : Job} (found : timed.run.site.pools[index]? = some pool)
    (here : pool.workers[i]? = some (.calling job)) :
    script.timing plan index job.position = (script.behaviour index job).task := by
  obtain ⟨last, rfl, onward⟩ := Run.pool_of_reaches (Timed.run_of_reaches reached) found
  have ledger := Pool.ledger_of_reaches onward
  have taken := ledger.inCall_taken job (Pool.mem_inCall.mpr (Pool.mem_of_found here))
  exact script.timing_eq plan (Pool.mem_jobs.mpr (ledger.taken_listed taken))

theorem Shows.allows_finish (shows : rehearsal.Shows script timed) {job : Job} {ends : Nat}
    (found : rehearsal.run.site.pools[index]? = some pool)
    (here : pool.workers[i]? = some (.calling job))
    (stage : rehearsal.clock.stage? index i = some (.underWay ends))
    (due : ends ≤ rehearsal.clock.now)
    (free : (script.behaviour index job).hangs = false ∨ rehearsal.clock.released = true) :
    timed.allows (script.timing plan)
      (.work index (.finish i (script.behaviour index job).succeeds)) = true := by
  rw [← shows.alike.site] at found
  have task := timing_of_reaches reached found here
  have free := free.resolve_right (by simp [shows.clock.held])
  rcases shows.clock.calling _ pool i job found here with ⟨gathering, -⟩ | underWay
  · cases stage.symm.trans gathering
  · cases stage.symm.trans underWay
    simp [Timed.allows, found, here, Timed.isOver, task, Behaviour.task, free, shows.clock.now, due]

theorem Shows.take (shows : rehearsal.Shows script timed) {job : Job} {rest : List Job}
    (found : rehearsal.run.site.pools[index]? = some pool)
    (here : pool.workers[i]? = some .taking) (waiting : pool.queue = job :: rest) :
    ∃ later, Reaches (Timed.step (script.timing plan)) Timed.readable timed later ∧
      (rehearsal.performDeeds [.step index (.take i)]
        { rehearsal.clock.withStage index i .gathering with
          starts := rehearsal.clock.starts ++ [rehearsal.clock.now] }).Shows script later := by
  refine shows.work found rfl (Pool.step_of_move (.take here waiting)) rfl fun run follows => ?_
  rw [← shows.alike.site] at found
  obtain ⟨last, -, onward⟩ := Run.pool_of_reaches (Timed.run_of_reaches reached) found
  have ledger := Pool.ledger_of_reaches onward
  have logged := Run.logged_of_reaches (Timed.run_of_reaches reached)
  have apart {other : Job} (taken : other ∈ pool.taken) : other.position ≠ job.position :=
    ledger.position_ne taken (by simp [waiting])
  refine shows.clock.take follows found here waiting (fun call member place => apart ?_)
    fun other calling => apart (ledger.inCall_taken other (Pool.mem_inCall.mpr calling))
  rw [← logged.taken found]
  exact List.mem_map_of_mem (List.mem_filter.mpr ⟨member, by simp [place]⟩)

/-- What can be done in a pool now can be done in the run. -/
theorem Shows.turn (shows : rehearsal.Shows script timed)
    (found : rehearsal.run.site.pools[index]? = some pool)
    (turn : Clock.Turn rehearsal.clock script index pool deeds clock) :
    ∃ later, Reaches (Timed.step (script.timing plan)) Timed.readable timed later ∧
      (rehearsal.performDeeds deeds clock).Shows script later := by
  have there : timed.run.site.pools[index]? = some pool := by rwa [shows.alike.site]
  have still {label : Pool.Label} (other : ∀ i, label ≠ .take i) (run : Run)
      (follows : timed.run.step (.work index label) = some run) :
      rehearsal.clock.Shows script (timed.after (.work index label) run) :=
    shows.clock.act follows (Run.calls_other follows other)
  rcases turn.deeds_cases with rfl | ⟨label, after, rfl, work, moved⟩
  · cases turn with
    | gather here stage =>
      refine ⟨timed, .refl, ?_⟩
      exact { shows with clock := (shows.clock.gather there here stage).counting _ }
  · cases turn with
    | check | send | close => exact shows.work found work moved rfl (still (by simp))
    | leave here empty =>
      refine shows.work found work moved rfl fun run follows => shows.clock.act follows ?_
      rcases Run.calls_step follows with
        same | ⟨place, j, other, job, rest, taking, known, -, waiting, -⟩
      · exact same
      · cases taking
        cases there.symm.trans known
        cases empty.symm.trans waiting
    | take here waiting => exact shows.take reached found here waiting
    | @finish i job ends here stage due free =>
      have allowed := shows.allows_finish reached found here stage due free
      refine shows.work found work moved allowed fun run follows => ?_
      refine (still (by simp) run follows).finish fun other task known calling => ?_
      -- the worker is about to send a status now
      rw [Timed.after_run] at known
      cases Run.move_of_step follows with
      | work _ stepped =>
        cases stepped.symm.trans (Site.step_of_pool there (Pool.step_of_move (.finish here)))
        rw [List.getElem?_set, if_pos rfl] at known
        split at known <;> cases known
        rw [Pool.become, List.getElem?_set, if_pos rfl] at calling
        split at calling <;> cases calling

end

/-! ## Steps of the watcher -/

theorem Shows.act {label : Run.Label} {run next : Run} (shows : rehearsal.Shows script timed)
    (follows : timed.run.step label = some next) (alike : run.Alike next)
    (calls : next.site.calls = timed.run.site.calls)
    (watch : Run.isWatch label = true ∨ ∃ forward, label = .deliver forward) :
    ({ rehearsal with run := run } : RunRehearsal).Shows script (timed.after label next) := by
  obtain ⟨cancelAt, quitAt, returnedAt⟩ := timed.after_watch next watch
  constructor
  case alike =>
    rw [Timed.after_run]
    exact alike
  case clock => exact shows.clock.act follows calls
  case cancelAt => exact cancelAt.trans shows.cancelAt
  case quitAt => exact quitAt.trans shows.quitAt
  case returnedAt => exact returnedAt.trans shows.returnedAt

/-- The watcher of a run does what that of a rehearsal does, where it is at the same. -/
theorem Shows.follow {label : Run.Label} {run next : Run} (shows : rehearsal.Shows script timed)
    (alike : run.Alike timed.run) (same : timed.run.stage = run.stage)
    (stepped : run.step label = some next) (watch : Run.isWatch label = true)
    (allowed : timed.allows timing label = true) :
    ∃ later, Reaches (Timed.step timing) Timed.readable timed later ∧
      ({ rehearsal with run := next } : RunRehearsal).Shows script later := by
  obtain ⟨after, follows, kept⟩ := alike.step same stepped
    (by rintro forward rfl; cases watch) (by rintro rfl; cases watch)
  have counted : timed.readable (.act label) = true := by
    cases label with
    | begin => cases watch
    | _ => rfl
  exact ⟨timed.after label after, .single ⟨.act label, counted,
    Timed.step_of_move (.act allowed follows)⟩,
    shows.act follows kept (Run.calls_watch follows watch) (.inl watch)⟩

/-- A watcher that has something to find looks up. -/
theorem Shows.exists_awake (timing : Timing) (shows : rehearsal.Shows script timed)
    (awake : rehearsal.run.stage.awake = rehearsal.run.stage) (news : timed.hasNews = true) :
    ∃ later, Reaches (Timed.step timing) Timed.readable timed later ∧
      rehearsal.Shows script later ∧ later.run.stage = rehearsal.run.stage := by
  rcases Stage.awake_cases shows.alike.stage awake with same | ⟨watch, last, watching, idle⟩
  · exact ⟨timed, .refl, shows, same⟩
  · have woken := Run.step_of_move (.wake idle)
    have alike : rehearsal.run.Alike { timed.run with stage := .watching watch false last } :=
      ⟨shows.alike.plan, shows.alike.site, by rw [watching], shows.alike.delivery⟩
    refine ⟨timed.after .wake _, .single ⟨.act .wake, rfl, Timed.step_of_move (.act news woken)⟩,
      shows.act woken alike rfl (.inl rfl), ?_⟩
    rw [Timed.after_run, watching]

/-- A watcher that has found nothing in the channel waits. -/
theorem Shows.exists_idle (timing : Timing) (shows : rehearsal.Shows script timed)
    (waits : rehearsal.run.Waits watch last pool) :
    ∃ later, Reaches (Timed.step timing) Timed.readable timed later ∧
      rehearsal.Shows script later ∧ later.run.stage = .watching watch true last := by
  have awake : rehearsal.run.stage.awake = rehearsal.run.stage := by
    rw [waits.watching]
    rfl
  rcases Stage.awake_cases shows.alike.stage awake with same | ⟨other, final, watching, idle⟩
  · have found := waits.found
    rw [Run.current, ← shows.alike.site] at found
    have passed := Run.step_of_move
      (.pass (same.trans waits.watching) found waits.empty waits.opened)
    have alike : rehearsal.run.Alike { timed.run with stage := .watching watch true last } :=
      ⟨shows.alike.plan, shows.alike.site, by rw [waits.watching]; rfl, shows.alike.delivery⟩
    refine ⟨timed.after .pass _, .single ⟨.act .pass, rfl, Timed.step_of_move (.act rfl passed)⟩,
      shows.act passed alike rfl (.inl rfl), ?_⟩
    rw [Timed.after_run]
  · cases waits.watching.symm.trans watching
    exact ⟨timed, .refl, shows, idle⟩

/-- What the watcher looks at is there in the run as well. -/
theorem Shows.look {label : Run.Label} {next : Run} (timing : Timing)
    (shows : rehearsal.Shows script timed)
    (awake : rehearsal.run.stage.awake = rehearsal.run.stage)
    (which : label = .receive ∨ label = .seeEnd) (stepped : rehearsal.run.step label = some next) :
    ∃ later, Reaches (Timed.step timing) Timed.readable timed later ∧
      ({ rehearsal with run := next } : RunRehearsal).Shows script later := by
  have news : timed.hasNews = true := by
    rw [Timed.hasNews, Run.current, shows.alike.site]
    rcases which with rfl | rfl
    · cases Run.move_of_step stepped with
      | receive watching found waiting =>
        rw [Run.current] at found
        simp [found, waiting]
    · cases Run.move_of_step stepped with
      | seeEnd watching found drained closed =>
        rw [Run.current] at found
        simp [found, closed]
  obtain ⟨woken, onward, shown, same⟩ := shows.exists_awake timing awake news
  have follow : ∃ later, Reaches (Timed.step timing) Timed.readable woken later ∧
      ({ rehearsal with run := next } : RunRehearsal).Shows script later := by
    rcases which with rfl | rfl
    · exact shown.follow shown.alike same stepped rfl rfl
    · exact shown.follow shown.alike same stepped rfl rfl
  obtain ⟨later, further, shown⟩ := follow
  exact ⟨later, onward.trans further, shown⟩

theorem Shows.deadline {label : Run.Label} {next : Run} (timing : Timing)
    (shows : rehearsal.Shows script timed) (waits : rehearsal.run.Waits watch last pool)
    (due : rehearsal.Due watch label)
    (stepped : (rehearsal.run.resting watch last).step label = some next) :
    ∃ later, Reaches (Timed.step timing) Timed.readable timed later ∧
      ({ rehearsal with run := next } : RunRehearsal).Shows script later := by
  obtain ⟨idle, onward, shown, same⟩ := shows.exists_idle timing waits
  have alike : (rehearsal.run.resting watch last).Alike idle.run := by
    refine ⟨shown.alike.plan, shown.alike.site, ?_, shown.alike.delivery⟩
    rw [same]
    rfl
  have follow : ∃ later, Reaches (Timed.step timing) Timed.readable idle later ∧
      ({ rehearsal with run := next } : RunRehearsal).Shows script later := by
    cases due with
    | cancel early passed =>
      refine shown.follow alike same stepped rfl ?_
      simpa [Timed.allows, shown.cancelAt, shown.clock.now] using passed
    | quit early passed =>
      refine shown.follow alike same stepped rfl ?_
      cases seen : watch.timedOut with
      | true =>
        simpa [Timed.allows, Timed.timedOut, same, seen, shown.quitAt, shown.clock.now] using passed
      | false =>
        simpa [Timed.allows, Timed.timedOut, same, seen, shown.quitAt, shown.cancelAt,
          shown.clock.now] using ⟨passed, early seen⟩
  obtain ⟨later, further, shown⟩ := follow
  exact ⟨later, onward.trans further, shown⟩

/-! ## The clock goes on -/

/-- The observer hears all that has been sent. -/
theorem Shows.exists_delivered (timing : Timing) (shows : rehearsal.Shows script timed) :
    ∃ later, Reaches (Timed.step timing) Timed.readable timed later ∧
      rehearsal.Shows script later ∧ later.run.stage = timed.run.stage ∧
      ∀ forward, later.run.delivery.step forward = none := by
  induction weight : timed.run.delivery.weight using Nat.strongRecOn generalizing timed with
  | ind bound ih =>
    by_cases able : ∃ forward delivery, timed.run.delivery.step forward = some delivery
    · obtain ⟨forward, delivery, moved⟩ := able
      have follows := Run.step_of_move (.deliver moved)
      have alike : rehearsal.run.Alike { timed.run with delivery := delivery } :=
        ⟨shows.alike.plan, shows.alike.site, shows.alike.stage, shows.alike.delivery.step moved⟩
      have next := shows.act follows alike rfl (.inr ⟨forward, rfl⟩)
      have less := Delivery.weight_step moved
      obtain ⟨later, reached, shown, stage, silent⟩ := ih _ (weight ▸ less) next rfl
      refine ⟨later, .head ⟨.act _, rfl, Timed.step_of_move (.act rfl follows)⟩ reached, shown, ?_,
        silent⟩
      rw [stage, Timed.after_run]
    · refine ⟨timed, .refl, shows, rfl, fun forward => ?_⟩
      exact Option.eq_none_iff_forall_ne_some.mpr fun delivery moved =>
        able ⟨forward, delivery, moved⟩

section
variable (reached : Reaches (Timed.step (script.timing plan)) Timed.readable
  (Timed.start plan source directory observed) timed)
include reached

/-- No worker has anything to do before a call is over. -/
theorem Shows.no_work {instant : Nat} {label : Pool.Label} (shows : rehearsal.Shows script timed)
    (plain : script.Plain) (none : rehearsal.clock.next script rehearsal.run.site = none)
    (before : ∀ ends, rehearsal.clock.Pending ends → instant < ends)
    (found : timed.run.site.pools[index]? = some pool) (work : Run.isWork label = true)
    (allowed : ({ timed with now := instant } : Timed).allows (script.timing plan)
      (.work index label) = true) : ¬ Pool.Move pool label after := by
  intro move
  rw [← shows.alike.site] at none
  have idle {deeds : List Deed} {clock : Clock} :
      ¬ Clock.Turn rehearsal.clock script index pool deeds clock :=
    Clock.no_turn_of_next plain none found
  cases move with
  | leaveCancelled here | goOn here => exact idle (.check here)
  | leaveEmpty here empty => exact idle (.leave here empty)
  | take here waiting => exact idle (.take here waiting)
  | lose here shut => exact idle (.send here (.inl shut))
  | send here _ room => exact idle (.send here (.inr room))
  | close opened gone => exact idle (.close opened gone)
  | receive | cancel | drop => cases work
  | @finish i job succeeded here =>
    simp only [Timed.allows, found, Option.bind_some, here, Bool.and_eq_true, Timed.isOver,
      Option.any_eq_true, decide_eq_true_eq] at allowed
    obtain ⟨⟨duration, takes, passed⟩, -⟩ := allowed
    rw [timing_of_reaches reached found here, Behaviour.task] at takes
    split at takes <;> cases takes
    rename_i free
    rcases shows.clock.calling index pool i job found here with ⟨gathering, -⟩ | underWay
    · exact idle (.gather here gathering)
    · rcases Nat.lt_or_ge rehearsal.clock.now
          (timed.since index job.position + (script.behaviour index job).delay) with later | due
      · exact absurd passed (Nat.not_le.mpr (before _ (Clock.pending_of_stage underWay later)))
      · exact idle (.finish here underWay due (.inl (by simpa using free)))

/-- Nothing can happen before the next call is over or the next deadline passes. -/
theorem Shows.isQuiet {instant : Nat} (shows : rehearsal.Shows script timed) (plain : script.Plain)
    (waits : rehearsal.run.Waits watch last pool)
    (none : rehearsal.clock.next script rehearsal.run.site = none)
    (watching : timed.run.stage = .watching watch true last)
    (silent : ∀ forward, timed.run.delivery.step forward = .none)
    (early : watch.timedOut = false → instant < rehearsal.cancelAt)
    (going : instant < rehearsal.quitAt)
    (before : ∀ ends, rehearsal.clock.Pending ends → instant < ends) :
    ({ timed with now := instant } : Timed).isQuiet (script.timing plan) = true := by
  refine List.all_eq_true.mpr fun label member => ?_
  rw [Bool.not_eq_true', ← Bool.not_eq_true, Bool.and_eq_true, Option.isSome_iff_exists]
  rintro ⟨allowed, next, stepped⟩
  cases Run.move_of_step stepped with
  | opened here | refused here | receive here | seeEnd here | pass here | conclude here =>
    cases watching.symm.trans here
  | work work moved =>
    obtain ⟨pool, after, found, moved, -⟩ := Site.step_inv moved
    exact shows.no_work reached plain none before found work allowed (Pool.move_of_step moved)
  | wake =>
    have news : timed.hasNews = true := allowed
    have found := waits.found
    rw [Run.current] at found
    rw [Timed.hasNews, Run.current, shows.alike.site, found] at news
    simp [waits.empty, waits.opened] at news
  | cancelDeadline here prompt =>
    cases watching.symm.trans here
    have due : timed.cancelAt ≤ instant := by simpa [Timed.allows] using allowed
    exact absurd (early prompt) (Nat.not_lt.mpr (shows.cancelAt ▸ due))
  | quitDeadline here =>
    simp only [Timed.allows, Bool.and_eq_true, decide_eq_true_eq] at allowed
    exact absurd going (Nat.not_lt.mpr (shows.quitAt ▸ allowed.1))
  | @deliver forward delivery moved =>
    rw [silent] at moved
    cases moved
  | edit => cases Timed.inner_candidates member

theorem Shows.wait (shows : rehearsal.Shows script timed) (plain : script.Plain)
    (waits : rehearsal.run.Waits watch last pool)
    (none : rehearsal.clock.next script rehearsal.run.site = none)
    (early : watch.timedOut = false → rehearsal.clock.now < rehearsal.cancelAt)
    (going : rehearsal.clock.now < rehearsal.quitAt) :
    ∃ later, Reaches (Timed.step (script.timing plan)) Timed.readable timed later ∧
      ({ rehearsal with
        clock := rehearsal.clock.advance (rehearsal.nextInstant watch.timedOut) } :
          RunRehearsal).Shows script later := by
  obtain ⟨idle, onward, shown, watching⟩ := shows.exists_idle (script.timing plan) waits
  obtain ⟨heard, further, shown, same, silent⟩ := shown.exists_delivered (script.timing plan)
  have bounds := upcoming_nextInstant early going
  have quiet (instant : Nat) (first : instant < rehearsal.nextInstant watch.timedOut) :=
    shown.isQuiet (reached.trans (onward.trans further)) plain waits none (same.trans watching)
      silent (fun prompt => Nat.lt_of_lt_of_le first (bounds.cancel prompt))
      (Nat.lt_of_lt_of_le first bounds.quit)
      fun ends pending => Nat.lt_of_lt_of_le first (bounds.pending ends pending)
  refine ⟨{ heard with now := rehearsal.nextInstant watch.timedOut },
    onward.trans (further.trans (Timed.reaches_ticks ?_ fun instant _ => quiet instant)), ?_⟩
  · rw [shown.clock.now]
    exact Nat.le_of_lt bounds.later
  · rw [← shown.alike.site] at none
    exact {
      alike := shown.alike
      clock := shown.clock.advance plain none (Nat.le_of_lt bounds.later)
      cancelAt := shown.cancelAt
      quitAt := shown.quitAt
      returnedAt := shown.returnedAt }

end

/-! ## Whatever happens -/

theorem Shows.begin {next : Run} (timing : Timing) (shows : rehearsal.Shows script timed)
    (sound : rehearsal.run.Sound) (stepped : rehearsal.run.step .begin = some next) :
    ∃ later, Reaches (Timed.step timing) Timed.readable timed later ∧
      ({ rehearsal with
        run := next
        cancelAt := rehearsal.clock.now +
          (rehearsal.run.plan.settings.cancelTimeout.nanos - rehearsal.clock.now)
        quitAt := rehearsal.clock.now +
          (rehearsal.run.plan.settings.quitTimeout.nanos - rehearsal.clock.now) } :
            RunRehearsal).Shows script later := by
  have same : timed.run.stage = rehearsal.run.stage := by
    rcases Stage.awake_cases shows.alike.stage sound.awake with same | ⟨watch, last, watching, -⟩
    · exact same
    · simp [Run.step, watching] at stepped
  obtain ⟨after, follows, alike⟩ := shows.alike.step same stepped (by simp) (by simp)
  have counted : timed.readable (.act .begin) = true := shows.alike.readable.trans sound.readable
  have calls : after.site.calls = timed.run.site.calls := by
    rcases Run.calls_step follows with same | ⟨place, i, -, -, -, taking, -⟩
    · exact same
    · cases taking
  refine ⟨timed.after .begin after, .single ⟨.act .begin, counted,
    Timed.step_of_move (.act rfl follows)⟩, ?_⟩
  constructor
  case alike =>
    rw [Timed.after_run]
    exact alike
  case clock => exact shows.clock.act follows calls
  case cancelAt =>
    change timed.now + (timed.run.plan.settings.cancelTimeout.nanos - timed.now) = _
    rw [shows.clock.now, shows.alike.plan]
  case quitAt =>
    change timed.now + (timed.run.plan.settings.quitTimeout.nanos - timed.now) = _
    rw [shows.clock.now, shows.alike.plan]
  case returnedAt => exact shows.returnedAt

theorem Shows.conclude {result : Except RunError Unit} {next : Run}
    (reached : Reaches (Timed.step timing) Timed.readable
      (Timed.start plan source directory observed) timed)
    (shows : rehearsal.Shows script timed) (closing : rehearsal.run.stage = .closing result)
    (stepped : rehearsal.run.step .conclude = some next) :
    ∃ later, Reaches (Timed.step timing) Timed.readable timed later ∧
      ({ rehearsal with run := next, returnedAt := some rehearsal.clock.now } :
        RunRehearsal).Shows script later := by
  obtain ⟨heard, onward, shown, same, silent⟩ := shows.exists_delivered timing
  have awake : rehearsal.run.stage.awake = rehearsal.run.stage := by
    rw [closing]
    rfl
  have ready : heard.run.stage = .closing result := by
    rcases Stage.awake_cases shown.alike.stage awake with there | ⟨watch, last, watching, -⟩
    · exact there.trans closing
    · cases closing.symm.trans watching
  have attended := (Timed.punctual_of_reaches (reached.trans onward)).attended
  obtain ⟨label, after, ⟨forward, rfl⟩ | rfl, follows⟩ := attended.exists_closing_step ready
  · -- nothing is left to be told
    cases Run.move_of_step follows with
    | deliver moved => cases (silent forward).symm.trans moved
  · refine ⟨heard.after .conclude after, onward.tail ⟨.act .conclude, rfl,
      Timed.step_of_move (.act rfl follows)⟩, ?_⟩
    cases Run.move_of_step follows with
    | conclude here =>
      cases ready.symm.trans here
      cases Run.move_of_step stepped with
      | conclude there =>
        cases closing.symm.trans there
        exact {
          alike := ⟨shown.alike.plan, shown.alike.site, rfl, shown.alike.delivery⟩
          clock := shown.clock.act follows rfl
          cancelAt := shown.cancelAt
          quitAt := shown.quitAt
          returnedAt := congrArg some shown.clock.now }

/-- Whatever happens in a rehearsal can happen in the run. -/
theorem Shows.happens (plain : script.Plain)
    (reached : Reaches (Timed.step (script.timing plan)) Timed.readable
      (Timed.start plan source directory observed) timed)
    (shows : rehearsal.Shows script timed) (sound : rehearsal.run.Sound)
    (happens : Happens script rehearsal next) :
    ∃ later, Reaches (Timed.step (script.timing plan)) Timed.readable timed later ∧
      next.Shows script later := by
  cases happens with
  | turn found turn => exact shows.turn reached found turn
  | begin stepped => exact shows.begin _ sound stepped
  | look which stepped => exact shows.look _ sound.awake which stepped
  | deadline waits due stepped => exact shows.deadline _ waits due stepped
  | wait waits none early going => exact shows.wait reached plain waits none early going
  | deliver stepped =>
    refine ⟨timed, .refl, { shows with alike := ?_ }⟩
    cases Run.move_of_step stepped with
    | deliver moved =>
      obtain ⟨sent, closed, observed⟩ := Delivery.step_frame moved
      have delivery := shows.alike.delivery
      exact ⟨shows.alike.plan, shows.alike.site, shows.alike.stage, delivery.sent.trans sent.symm,
        delivery.closed.trans closed.symm, delivery.observed.trans observed.symm⟩
  | conclude closing stepped => exact shows.conclude reached closing stepped

end RunRehearsal

end Rollout
