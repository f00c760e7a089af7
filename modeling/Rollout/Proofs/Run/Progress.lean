import Rollout.Proofs.Overrides.Reading
import Rollout.Proofs.Pool.Ending
import Rollout.Proofs.Run.Completion
import Rollout.Proofs.Run.Weight

/-! Runs in which nothing goes wrong: overrides can be read, every helm call succeeds, and the
watcher finds each channel closed and empty before it looks at a deadline. Such a run cannot
fail, and what is left of it can always be done. -/

set_option autoImplicit false

namespace Rollout

/-- The overrides that a phase hands to helm can be read now, if it needs any. -/
def Run.readable (run : Run) : Bool :=
  match run.plan.action with
  | .install => (run.site.source.read run.site.directory).isOk
  | .uninstall => true

/-- The guard under which nothing goes wrong. -/
def Run.smooth (run : Run) : Label → Bool
  | .begin => run.readable
  | .work _ (.finish _ succeeded) => succeeded
  | .cancelDeadline | .quitDeadline => false
  | _ => true

namespace Pool

structure Calm (pool : Pool) : Prop where
  running : pool.cancelled = false
  clean : ∀ job ∈ pool.ended, job.component.status ≠ .error

variable {pool next : Pool} {label : Label}

theorem calm_start (action : Action) (workers : Nat) (components : List Component) :
    (start action workers components).Calm := by
  rw [start_eq]
  exact ⟨rfl, fun _ member => nomatch member⟩

theorem outcome_true (action : Action) : action.outcome true ≠ .error := by
  cases action <;> exact Status.noConfusion

theorem Calm.step (calm : pool.Calm) (stepped : pool.step label = some next)
    (uncancelled : label ≠ .cancel) (well : ∀ i, label ≠ .finish i false) : next.Calm := by
  cases move_of_step stepped with
  | @finish i job succeeded =>
    refine ⟨calm.running, fun other member => ?_⟩
    cases succeeded with
    | false => exact absurd rfl (well i)
    | true =>
      rcases List.mem_append.mp member with before | new
      · exact calm.clean other before
      · rw [List.mem_singleton.mp new]
        exact outcome_true pool.action
  | cancel => exact absurd rfl uncancelled
  | _ => exact ⟨calm.running, calm.clean⟩

end Pool

namespace Delivery

def Told (delivery : Delivery) : Prop :=
  delivery.forwarder = .gone → delivery.drained = true

variable {delivery next : Delivery} {label : Label}

theorem told_start (observed : Bool) : (start observed).Told := by
  cases observed
  · exact fun _ => rfl
  · exact fun gone => nomatch gone

theorem told_step (stepped : delivery.step label = some next) : next.Told := by
  cases move_of_step stepped with
  | drain => exact fun _ => rfl
  | call | returned | seeEnd => exact fun gone => nomatch gone

theorem Told.sendAll (told : delivery.Told) (updates : List Update) :
    (delivery.sendAll updates).Told := by
  unfold Delivery.sendAll
  induction updates generalizing delivery with
  | nil => exact told
  | cons update rest ih =>
    refine ih ?_
    unfold send
    split <;> exact told

end Delivery

theorem Site.calm_step {site next : Site} {index : Nat} {label : Pool.Label}
    (calm : ∀ pool ∈ site.pools, pool.Calm) (stepped : site.step index label = some next)
    (uncancelled : label ≠ .cancel) (well : ∀ i, label ≠ .finish i false) :
    ∀ pool ∈ next.pools, pool.Calm := by
  obtain ⟨pool, after, found, moved, rfl⟩ := step_inv stepped
  intro other member
  rcases List.mem_or_eq_of_mem_set member with before | rfl
  · exact calm other before
  · exact (calm pool (List.mem_of_getElem? found)).step moved uncancelled well

namespace Run

variable {run next : Run} {label : Label}

/-! ## Nothing goes wrong -/

/-- The updates of a run whose phases are over will all have been forwarded at some time. -/
structure Attended (run : Run) : Prop where
  told : run.delivery.Told
  closing : ∀ result, run.stage = .closing result → run.delivery.closed = true

structure Calm (run : Run) : Prop where
  staged : run.Staged
  pools : ∀ pool ∈ run.site.pools, pool.Calm
  well : ∀ error, run.stage ≠ .closing (.error error) ∧ run.stage ≠ .over (.error error)
  attended : run.Attended

theorem attended_start (plan : Plan) (source : OverridesSource) (directory : Directory)
    (observed : Bool) : (start plan source directory observed).Attended where
  told := Delivery.told_start observed
  closing _ same := Stage.noConfusion same

theorem calm_start (plan : Plan) (source : OverridesSource) (directory : Directory)
    (observed : Bool) : (start plan source directory observed).Calm where
  staged := staged_start plan source directory observed
  pools _ member := nomatch member
  well _ := ⟨Stage.noConfusion, Stage.noConfusion⟩
  attended := attended_start plan source directory observed

theorem Calm.verdict {watch : Watch} {idle last : Bool} (calm : run.Calm)
    (watching : run.stage = .watching watch idle last) : watch.verdict = none := by
  have staged := calm.staged
  rw [Staged, watching] at staged
  obtain ⟨done, pool, pools, watched⟩ := staged
  have quiet := calm.pools pool (by simp [pools])
  have errors : pool.received.countP (·.component.status == .error) = 0 := by
    refine List.countP_eq_zero.mpr fun job member => ?_
    have ended : job ∈ pool.ended :=
      watched.ledger.ended_settled.mem_iff.mpr (by simp [Pool.settled, member])
    simpa using quiet.clean job ended
  rw [Watch.verdict, watched.sees.failed, errors, watched.sees.timedOut, quiet.running]
  rfl

theorem Staged.action {phase : Phase} {last : Bool} (staged : run.Staged)
    (ready : run.stage = .ready phase last) : phase.action = run.plan.action := by
  rw [Staged, ready] at staged
  rw [staged.1, Plan.action_phase]

theorem Staged.opens {phase : Phase} {last : Bool} (staged : run.Staged)
    (ready : run.stage = .ready phase last) (readable : run.readable = true) :
    ∃ site, run.site.openPool phase.action (run.plan.workers phase)
      (.ok (run.plan.components phase)) = .ok site := by
  have action := staged.action ready
  rw [Run.readable] at readable
  cases same : run.plan.action with
  | uninstall =>
    rw [action, same]
    exact ⟨_, rfl⟩
  | install =>
    rw [action, same, Site.openPool]
    cases read : run.site.source.read run.site.directory with
    | ok source => exact ⟨_, rfl⟩
    | error error =>
      rw [same, read] at readable
      cases readable

theorem Calm.pools_step (calm : run.Calm) (counted : run.smooth label = true)
    (stepped : run.step label = some next) : ∀ pool ∈ next.site.pools, pool.Calm := by
  cases move_of_step stepped with
  | opened ready opened =>
    obtain ⟨source, rfl, -⟩ := Site.openPool_inv opened
    intro pool member
    rcases List.mem_append.mp member with before | new
    · exact calm.pools pool before
    · rw [List.mem_singleton.mp new]
      exact Pool.calm_start _ _ _
  | @work index label site work moved =>
    refine Site.calm_step calm.pools moved (fun same => ?_) (fun i same => ?_)
    · rw [same] at work
      cases work
    · rw [same] at counted
      cases counted
  | receive _ _ _ moved => exact Site.calm_step calm.pools moved (by simp) (by simp)
  | cancelDeadline | quitDeadline => cases counted
  | seeEnd => simpa using calm.pools
  | refused | pass | wake | deliver | edit | conclude => exact calm.pools

theorem Calm.well_step (calm : run.Calm) (counted : run.smooth label = true)
    (stepped : run.step label = some next) (error : RunError) :
    next.stage ≠ .closing (.error error) ∧ next.stage ≠ .over (.error error) := by
  cases move_of_step stepped with
  | refused ready refused =>
    -- overrides can be read, so that the phase is not refused
    obtain ⟨site, opened⟩ := calm.staged.opens ready counted
    cases opened.symm.trans refused
  | @seeEnd watch last pool watching =>
    rw [calm.verdict watching]
    cases last <;> simp [afterPhase, close]
  | cancelDeadline | quitDeadline => cases counted
  | conclude closing =>
    refine ⟨Stage.noConfusion, fun same => (calm.well error).1 ?_⟩
    cases same
    exact closing
  | work | deliver | edit => exact calm.well error
  | opened | receive | pass | wake => exact ⟨Stage.noConfusion, Stage.noConfusion⟩

theorem Attended.told_step (attended : run.Attended) (stepped : run.step label = some next) :
    next.delivery.Told := by
  have told := attended.told
  cases move_of_step stepped with
  | opened | receive => exact told.sendAll _
  | refused => exact (told.sendAll _).sendAll _
  | @seeEnd watch last pool =>
    rcases outcome : watch.verdict with _ | failure
    · cases last <;> exact told.sendAll _
    · exact told.sendAll _
  | quitDeadline => exact told.sendAll _
  | deliver moved => exact Delivery.told_step moved
  | work | pass | wake | cancelDeadline | edit | conclude => exact told

theorem Attended.closing_step (attended : run.Attended) (stepped : run.step label = some next)
    (result : Except RunError Unit) (here : next.stage = .closing result) :
    next.delivery.closed = true := by
  cases move_of_step stepped with
  | opened | receive | pass | wake | cancelDeadline | conclude => cases here
  | refused | quitDeadline => rfl
  | @seeEnd watch last pool =>
    rcases outcome : watch.verdict with _ | failure
    · rw [outcome] at here
      cases last with
      | true => rfl
      | false => cases here
    · rfl
  | deliver moved =>
    have closed := attended.closing result here
    cases Delivery.move_of_step moved <;> exact closed
  | work | edit => exact attended.closing result here

theorem Attended.keep (attended : run.Attended) (stepped : run.step label = some next) :
    next.Attended where
  told := attended.told_step stepped
  closing := attended.closing_step stepped

theorem Calm.keep (calm : run.Calm) (counted : run.smooth label = true)
    (stepped : run.step label = some next) : next.Calm where
  staged := calm.staged.keep stepped
  pools := calm.pools_step counted stepped
  well := calm.well_step counted stepped
  attended := calm.attended.keep stepped

theorem calm_of_reaches {plan : Plan} {source : OverridesSource} {directory : Directory}
    {observed : Bool} (reached : Reaches step smooth (start plan source directory observed) run) :
    run.Calm :=
  reached.invariant Calm (calm_start plan source directory observed) fun calm counted stepped =>
    calm.keep counted stepped

/-! ## Something can be done -/

section
variable {watch : Watch} {last : Bool} {pool : Pool}

-- A watcher that looks at the channel finds a status, the end, or nothing.
theorem exists_look (staged : run.Staged) (watching : run.stage = .watching watch false last) :
    ∃ label next, (label = .receive ∨ label = .seeEnd ∨ label = .pass) ∧
      run.step label = some next := by
  rw [Staged, watching] at staged
  obtain ⟨done, pool, pools, watched⟩ := staged
  have found := found_of_pools pools
  cases waiting : pool.channel with
  | cons job rest =>
    have moved := Site.step_of_pool found
      (Pool.step_of_move (.receive watched.sees.listening waiting))
    exact ⟨_, _, .inl rfl, step_of_move (.receive watching found waiting moved)⟩
  | nil =>
    cases shut : pool.closed with
    | true => exact ⟨_, _, .inr (.inl rfl), step_of_move (.seeEnd watching found waiting shut)⟩
    | false => exact ⟨_, _, .inr (.inr rfl), step_of_move (.pass watching found waiting shut)⟩

theorem exists_cancel (watching : run.stage = .watching watch true last)
    (early : watch.timedOut = false) (found : run.site.pools[run.current]? = some pool) :
    ∃ next, run.step .cancelDeadline = some next := by
  have moved := Site.step_of_pool found (Pool.step_of_move .cancel)
  exact ⟨_, step_of_move (.cancelDeadline watching early moved)⟩

theorem exists_quit (watching : run.stage = .watching watch true last)
    (listening : pool.receiverGone = false) (found : run.site.pools[run.current]? = some pool) :
    ∃ next, run.step .quitDeadline = some next := by
  obtain ⟨middle, cancelled, same⟩ := Site.exists_step found (Pool.step_of_move .cancel)
  have latest : middle.pools[middle.pools.length - 1]? = some { pool with cancelled := true } := by
    obtain ⟨bound, -⟩ := List.getElem?_eq_some_iff.mp found
    rw [same, List.length_set]
    exact List.getElem?_set_self bound
  obtain ⟨site, dropped, -⟩ := Site.exists_step latest (Pool.step_of_move (.drop listening))
  exact ⟨_, step_of_move (.quitDeadline watching cancelled dropped)⟩

end

-- The watcher has something to do, or one of the workers.
theorem Calm.exists_watch_step {watch : Watch} {last : Bool} (calm : run.Calm)
    (watching : run.stage = .watching watch false last) :
    ∃ label next, run.smooth label = true ∧ isBusy label = true ∧ run.step label = some next := by
  have staged := calm.staged
  rw [Staged, watching] at staged
  obtain ⟨done, pool, pools, watched⟩ := staged
  have found := found_of_pools pools
  cases waiting : pool.channel with
  | cons job rest =>
    have moved := Site.step_of_pool found
      (Pool.step_of_move (.receive watched.sees.listening waiting))
    exact ⟨_, _, rfl, rfl, step_of_move (.receive watching found waiting moved)⟩
  | nil =>
    cases shut : pool.closed with
    | true => exact ⟨.seeEnd, _, rfl, rfl, step_of_move (.seeEnd watching found waiting shut)⟩
    | false =>
      -- the channel is empty and can hold one status at least
      have room : pool.channel.length < pool.capacity := by
        rw [waiting, watched.ledger.capacity_eq, List.length_nil]
        omega
      obtain ⟨label, after, work, well, moved⟩ := Pool.exists_work shut room
      have stepped := Site.step_of_pool found moved
      refine ⟨.work run.current label, _, ?_, rfl, by simp [step, work, stepped]; rfl⟩
      cases label with
      | finish i succeeded =>
        cases succeeded with
        | true => rfl
        | false => exact absurd rfl (well i)
      | _ => rfl

-- The forwarding of updates goes on, or the run returns.
theorem Attended.exists_closing_step {result : Except RunError Unit} (attended : run.Attended)
    (closing : run.stage = .closing result) :
    ∃ label next, ((∃ forward, label = .deliver forward) ∨ label = .conclude) ∧
      run.step label = some next := by
  have closed := attended.closing result closing
  have forward {label : Delivery.Label} {delivery : Delivery}
      (move : Delivery.Move run.delivery label delivery) :
      run.step (.deliver label) = some { run with delivery := delivery } := by
    rw [step, Delivery.step_of_move move]
    rfl
  cases there : run.delivery.forwarder with
  | receiving =>
    cases waiting : run.delivery.queue with
    | nil => exact ⟨_, _, .inl ⟨_, rfl⟩, forward (.seeEnd there waiting closed)⟩
    | cons update rest => exact ⟨_, _, .inl ⟨_, rfl⟩, forward (.call there waiting)⟩
  | calling => exact ⟨_, _, .inl ⟨_, rfl⟩, forward (.returned there)⟩
  | leaving => exact ⟨_, _, .inl ⟨_, rfl⟩, forward (.drain there)⟩
  | gone =>
    have done : run.delivery.isDone = true := by
      rw [Delivery.isDone, closed, attended.told there]
      rfl
    exact ⟨.conclude, _, .inr rfl, by simp [step, closing, done]; rfl⟩

-- Files that do not change are read again as before.
theorem Staged.source_step (staged : run.Staged) (stepped : run.step label = some next)
    (inside : ∀ change, label ≠ .edit change) (install : run.plan.action = .install) :
    next.site.directory = run.site.directory ∧ (next.site.source = run.site.source ∨
      run.site.source.read run.site.directory = .ok next.site.source) := by
  have there {site next : Site} {index : Nat} {label : Pool.Label}
      (moved : site.step index label = some next) :
      next.directory = site.directory ∧ next.source = site.source := by
    obtain ⟨pool, after, found, moved, rfl⟩ := Site.step_inv moved
    exact ⟨rfl, rfl⟩
  cases move_of_step stepped with
  | opened ready opened =>
    obtain ⟨source, rfl, read⟩ := Site.openPool_inv opened
    exact ⟨rfl, .inr (read ((staged.action ready).trans install))⟩
  | work _ moved | receive _ _ _ moved | cancelDeadline _ _ moved =>
    exact (there moved).imp_right .inl
  | quitDeadline _ first second =>
    exact ⟨(there second).1.trans (there first).1, .inl ((there second).2.trans (there first).2)⟩
  | seeEnd => simp
  | refused | pass | wake | deliver | conclude => exact ⟨rfl, .inl rfl⟩
  | edit => exact absurd rfl (inside _)

theorem Staged.readable_step (staged : run.Staged) (stepped : run.step label = some next)
    (inside : ∀ change, label ≠ .edit change) (readable : run.readable = true) :
    next.readable = true := by
  unfold Run.readable at readable ⊢
  rw [plan_step stepped]
  cases install : run.plan.action with
  | uninstall => rfl
  | install =>
    obtain ⟨directory, unread | read⟩ := staged.source_step stepped inside install
    · simpa [install, directory, unread] using readable
    · simp only [directory, OverridesSource.read_again read]
      rfl

/-- A run that is not over can go on, and has less to do then. -/
theorem Calm.progress (calm : run.Calm) (readable : run.readable = true)
    (going : ∀ result, run.stage ≠ .over result) :
    ∃ next, Reaches step smooth run next ∧ next.readable = true ∧ next.weight < run.weight := by
  have advance {run : Run} (calm : run.Calm) (readable : run.readable = true)
      (able : ∃ label next, run.smooth label = true ∧ isBusy label = true ∧
        run.step label = some next) :
      ∃ next, Reaches step smooth run next ∧ next.readable = true ∧ next.weight < run.weight := by
    obtain ⟨label, next, counted, busy, stepped⟩ := able
    have less := weight_step stepped
    rw [busy, Bool.toNat_true] at less
    have inside (change : Directory → Directory) : label ≠ .edit change := by
      rintro rfl
      cases busy
    exact ⟨next, .single ⟨label, counted, stepped⟩,
      calm.staged.readable_step stepped inside readable, less⟩
  rcases stage : run.stage with ⟨phase, last⟩ | ⟨watch, idle, last⟩ | result | result
  · exact advance calm readable ⟨.begin, _, readable, rfl, by rw [step, stage]⟩
  · cases idle with
    | false => exact advance calm readable (calm.exists_watch_step stage)
    | true =>
      -- the watcher looks at the channel again first
      have woken : run.step .wake = some { run with stage := .watching watch false last } := by
        rw [step, stage]
      have awake := calm.keep rfl woken
      obtain ⟨next, reached, still, less⟩ :=
        advance awake readable (awake.exists_watch_step rfl)
      exact ⟨next, .head ⟨.wake, rfl, woken⟩ reached, still,
        Nat.lt_of_lt_of_le less (weight_step woken)⟩
  · obtain ⟨label, next, which, stepped⟩ := calm.attended.exists_closing_step stage
    refine advance calm readable ⟨label, next, ?_, ?_, stepped⟩
    all_goals rcases which with ⟨forward, rfl⟩ | rfl <;> rfl
  · exact absurd stage (going result)

/-- A run in which nothing has gone wrong can be brought to a good end. -/
theorem Calm.finishes (calm : run.Calm) (readable : run.readable = true) :
    ∃ final, Reaches step smooth run final ∧ final.stage = .over (.ok ()) := by
  -- by induction on what is left to do, which every step but waiting takes from
  induction weight : run.weight using Nat.strongRecOn generalizing run with
  | ind bound ih =>
    by_cases returned : ∃ result, run.stage = .over result
    · obtain ⟨result, here⟩ := returned
      refine ⟨run, .refl, ?_⟩
      cases result with
      | ok => exact here
      | error error => exact absurd here (calm.well error).2
    · obtain ⟨next, reached, still, less⟩ :=
        calm.progress readable fun result here => returned ⟨result, here⟩
      have later : next.Calm :=
        reached.invariant Calm calm fun calm counted stepped => calm.keep counted stepped
      obtain ⟨final, onward, ended⟩ := ih next.weight (weight ▸ less) later still rfl
      exact ⟨final, reached.trans onward, ended⟩

end Run

end Rollout
