import Rollout.Proofs.Overrides.Reading
import Rollout.Proofs.Run.Order

/-! Each phase has the overrides as they are when it begins. They are read once, behind the list
of its components and before its first call; what becomes of their file afterwards is for the
next phase to see. -/

set_option autoImplicit false

namespace Rollout.Run

/-- A phase begins with the components that are listed for it, or cannot begin if that fails. The
list of a plan is always there (`step_begin`). -/
def beginWith (run : Run) (phase : Phase) (last : Bool)
    (components : Except ComponentListError (List Component)) : Run :=
  let run := run.tell [{ phase := phase, event := .start }]
  match run.site.openPool phase.action (run.plan.workers phase) components with
  | .ok site => { run with site := site, stage := .watching { phase := phase } false last }
  | .error error =>
    let error : RunError := ⟨phase, .notStarted error⟩
    (run.tell [Update.failed error]).close (.error error)

/-- A run that stopped where a phase was to begin: no call was made for it. -/
structure Stopped (run before : Run) (last : Bool) (error : StartError) : Prop where
  result : run.stage.result? = some (.error ⟨before.plan.phase last, .notStarted error⟩)
  calls : run.site.calls = before.site.calls
  none : ∀ call ∈ run.site.calls, call.pool ≠ last.toNat
  /-- The overrides are those that were read last, before an earlier phase or never. -/
  source : run.site.source = before.site.source

variable {run next before after : Run} {label : Label} {labels : List Label}
  {guard : Run → Label → Bool} {plan : Plan} {source : OverridesSource} {directory : Directory}
  {observed last : Bool}

theorem step_begin {phase : Phase} (ready : run.stage = .ready phase last) :
    run.step .begin = some (run.beginWith phase last (.ok (run.plan.components phase))) := by
  rw [step, ready]
  rfl

/-! ## Where overrides are read -/

-- Pools are opened and overrides read where a phase begins, and nowhere else.
theorem reading_step (stepped : run.step label = some next) :
    next.site.source = run.site.source ∧ next.site.pools.length = run.site.pools.length ∨
      label = .begin ∧ (∃ phase last, run.stage = .ready phase last) ∧
        next.site.pools.length = run.site.pools.length + 1 := by
  have still {site after : Site} {index : Nat} {label : Pool.Label}
      (stepped : site.step index label = some after) :
      after.source = site.source ∧ after.pools.length = site.pools.length := by
    obtain ⟨pool, other, -, -, rfl⟩ := Site.step_inv stepped
    exact ⟨rfl, List.length_set⟩
  cases move_of_step stepped with
  | opened ready opened =>
    obtain ⟨source, rfl, -⟩ := Site.openPool_inv opened
    exact .inr ⟨rfl, ⟨_, _, ready⟩, List.length_append⟩
  | work _ moved | receive _ _ _ moved | cancelDeadline _ _ moved => exact .inl (still moved)
  | quitDeadline _ first second =>
    exact .inl ⟨(still second).1.trans (still first).1, (still second).2.trans (still first).2⟩
  | seeEnd => simp
  | refused | pass | wake | deliver | edit | conclude => exact .inl ⟨rfl, rfl⟩

/-- Where a phase is about to begin, its pool will be the next one. -/
theorem ready_of_reaches {phase : Phase}
    (reached : Reaches step guard (start plan source directory observed) run)
    (ready : run.stage = .ready phase last) :
    phase = plan.phase last ∧ run.site.pools.length = last.toNat ∧
      List.Forall₂ plan.Finished (plan.before last) run.site.pools := by
  have staged := staged_of_reaches reached
  rw [Staged, ready, plan_of_reaches reached] at staged
  exact ⟨staged.1, plan.length_before staged.2, staged.2⟩

/-- Every pool of a run belongs to a phase that began in it. -/
theorem begins_of_walk (reached : Reaches step guard (start plan source directory observed) before)
    (walked : walk step guard labels before = some run) {index : Nat}
    (behind : before.site.pools.length ≤ index) (bound : index < run.site.pools.length) :
    ∃ front rest middle last, labels = front ++ .begin :: rest ∧
      walk step guard front before = some middle ∧
      middle.stage = .ready (plan.phase last) last ∧ index = last.toNat := by
  induction labels generalizing before with
  | nil =>
    cases walked
    exact absurd bound (Nat.not_lt.mpr behind)
  | cons label rest ih =>
    obtain ⟨next, counted, stepped, walked⟩ := walk_cons walked
    have onward : Reaches step guard (start plan source directory observed) next :=
      reached.tail ⟨label, counted, stepped⟩
    have later (behind : next.site.pools.length ≤ index) :
        ∃ front rest' middle last, label :: rest = front ++ .begin :: rest' ∧
          walk step guard front before = some middle ∧
          middle.stage = .ready (plan.phase last) last ∧ index = last.toNat := by
      obtain ⟨front, rest', middle, last, split, first, ready, place⟩ := ih onward walked behind
      refine ⟨label :: front, rest', middle, last, by rw [split]; rfl, ?_, ready, place⟩
      rw [walk, if_pos counted, stepped]
      exact first
    rcases reading_step stepped with ⟨-, length⟩ | ⟨rfl, ⟨phase, last, ready⟩, length⟩
    · exact later (length ▸ behind)
    · rcases Nat.lt_or_ge before.site.pools.length index with beyond | here
      · exact later (by omega)
      · obtain ⟨rfl, place, -⟩ := ready_of_reaches reached ready
        exact ⟨[], rest, before, last, rfl, rfl, ready, by omega⟩

/-! ## A phase that begins -/

/-- The calls of a pool are made with the values of one source, and while the pool is the latest
that is the source at hand. -/
structure Supplied (index : Nat) (source : OverridesSource) (run : Run) : Prop where
  opened : index < run.site.pools.length
  atHand : run.site.pools.length = index + 1 → run.site.source = source
  values : ∀ call ∈ run.site.calls, call.pool = index →
    call.values = some (source.resolve call.job.component.name)

theorem Supplied.keep {index : Nat} {supply : OverridesSource} (install : plan.action = .install)
    (reached : Reaches step guard (start plan source directory observed) run)
    (supplied : run.Supplied index supply) (stepped : run.step label = some next) :
    next.Supplied index supply := by
  obtain ⟨opened, atHand, values⟩ := supplied
  have grown := reading_step stepped
  refine ⟨by omega, fun latest => ?_, fun call member mine => ?_⟩
  · rcases grown with ⟨same, length⟩ | ⟨-, -, length⟩
    · rw [same]
      exact atHand (length ▸ latest)
    · omega
  · rcases calls_step stepped with same | ⟨place, i, pool, job, rest, -, found, -, -, calls⟩
    · exact values call (same ▸ member) mine
    · rw [calls] at member
      rcases List.mem_append.mp member with old | new
      · exact values call old mine
      · -- the new call is one of the latest pool, so the source at hand is the one
        rw [List.mem_singleton] at new
        subst new
        obtain ⟨last, done, latest, -, pools, finished, inPhase, -⟩ :=
          call_begins reached stepped calls
        have length := plan.length_before finished
        have here : run.site.source = supply := by
          apply atHand
          rw [pools, List.length_append, List.length_singleton]
          omega
        obtain ⟨other, -, onward⟩ := pool_of_reaches reached found
        have action : pool.action = .install := by
          rw [(Pool.ledger_of_reaches onward).action_eq, plan.action_phase, install]
        simp only [Site.callFor, action, here]

theorem supplied_of_reaches {index : Nat} {supply : OverridesSource}
    (install : plan.action = .install)
    (reached : Reaches step guard (start plan source directory observed) before)
    (supplied : before.Supplied index supply) (onward : Reaches step guard before run) :
    run.Supplied index supply := by
  induction onward with
  | refl => exact supplied
  | tail steps follows ih =>
    obtain ⟨label, -, stepped⟩ := follows
    exact ih.keep install (reached.trans steps) stepped

/-! ## A phase that cannot begin -/

-- Where all phases so far have ended well and no other begins, there is nothing left to call.
theorem still_of_result {phases : List Phase} {result : Except RunError Unit}
    (finished : List.Forall₂ plan.Finished phases before.site.pools)
    (ended : before.stage.result? = some result) (onward : Reaches step guard before run) :
    run.stage.result? = some result ∧ run.site.calls = before.site.calls ∧
      run.site.source = before.site.source := by
  have kept := onward.invariant (fun run => run.site.pools = before.site.pools ∧
    run.stage.result? = some result ∧ run.site.calls = before.site.calls ∧
      run.site.source = before.site.source) ⟨rfl, ended, rfl, rfl⟩ ?_
  · exact kept.2
  rintro s t label ⟨pools, ended, same⟩ - stepped
  cases move_of_step stepped with
  | opened stage | refused stage | receive stage | seeEnd stage | pass stage | wake stage
  | cancelDeadline stage | quitDeadline stage =>
    rw [stage] at ended
    cases ended
  | work work moved => exact absurd moved (Site.idle (pools ▸ finished) work)
  | deliver | edit => exact ⟨pools, ended, same⟩
  | conclude closing =>
    rw [closing] at ended
    exact ⟨pools, ended, same⟩

theorem stopped_of_refused {components : Except ComponentListError (List Component)}
    {error : StartError}
    (reached : Reaches step guard (start plan source directory observed) before)
    (ready : before.stage = .ready (plan.phase last) last)
    (refused : before.site.openPool (plan.phase last).action (before.plan.workers (plan.phase last))
      components = .error error)
    (onward : Reaches step anyStep (before.beginWith (plan.phase last) last components) run) :
    run.Stopped before last error := by
  obtain ⟨-, length, finished⟩ := ready_of_reaches reached ready
  have site : (before.beginWith (plan.phase last) last components).site = before.site := by
    simp only [beginWith, tell_site, tell_plan, refused, close_site]
  have stage : (before.beginWith (plan.phase last) last components).stage =
      .closing (.error ⟨plan.phase last, .notStarted error⟩) := by
    simp only [beginWith, tell_site, tell_plan, refused, close_stage]
  obtain ⟨result, calls, source⟩ := still_of_result (site ▸ finished) (congrArg Stage.result? stage)
    onward
  rw [site] at calls source
  rw [← plan_of_reaches reached] at result
  refine ⟨result, calls, fun call member => ?_, source⟩
  have known := (logged_of_reaches reached).known call (calls ▸ member)
  omega

/-! ## Layered overrides -/

variable {inline current : OverridesFile} {path : Option String}

theorem layered_of_reaches (install : plan.action = .install)
    (reached : Reaches step guard (start plan (.layered inline path current) directory observed)
      run) : ∃ kept, run.site.source = .layered inline path kept := by
  induction reached with
  | refl => exact ⟨current, rfl⟩
  | tail before follows ih =>
    obtain ⟨label, -, stepped⟩ := follows
    obtain ⟨kept, source⟩ := ih
    rcases reading_step stepped with ⟨same, -⟩ | ⟨rfl, ⟨phase, last, ready⟩, -⟩
    · exact ⟨kept, same.trans source⟩
    · cases move_of_step stepped with
      | refused => exact ⟨kept, source⟩
      | opened ready opened =>
        obtain ⟨read, rfl, taken⟩ := Site.openPool_inv opened
        obtain ⟨rfl, -⟩ := ready_of_reaches before ready
        have read := taken ((plan.action_phase _).trans install)
        rw [source] at read
        obtain ⟨file, -, rfl⟩ := OverridesSource.snapshot_of_read read
        exact ⟨file, rfl⟩

/-- The pool of a phase that has just begun is supplied with what was read. -/
theorem supplied_opened {file : OverridesFile} (install : plan.action = .install)
    (reached : Reaches step guard (start plan (.layered inline path current) directory observed)
      before)
    (ready : before.stage = .ready (plan.phase last) last)
    (taken : inline.snapshot path before.site.directory = .ok file)
    (began : before.step .begin = some after) :
    after.Supplied last.toNat (.layered inline path file) := by
  obtain ⟨-, length, -⟩ := ready_of_reaches reached ready
  obtain ⟨kept, source⟩ := layered_of_reaches install reached
  have action : (plan.phase last).action = .install := (plan.action_phase last).trans install
  have read : before.site.source.read before.site.directory = .ok (.layered inline path file) := by
    rw [source, OverridesSource.read_layered, taken]
    rfl
  rw [step_begin ready] at began
  simp only [beginWith, tell_site, tell_plan, Site.openPool, action, read] at began
  cases began
  constructor
  case opened => simp [length]
  case atHand => exact fun _ => rfl
  case values =>
    -- all calls so far are those of earlier phases
    intro call member mine
    have known := (logged_of_reaches reached).known call member
    omega

/-- Every call of a deployment is made with the overrides that its phase found when it began,
laid over the values given with them, whatever has become of their file since. Where they cannot
be read the run stops without a call of that phase; where its components cannot be listed it does
so too, without a look at the overrides. -/
theorem overrides_snapshot (plan : Plan) (inline current : OverridesFile) (path : Option String)
    (directory : Directory) (observed : Bool) (install : plan.action = .install) :
    let first := start plan (.layered inline path current) directory observed
    (∀ labels run, walk step anyStep labels first = some run → ∀ call ∈ run.site.calls,
      ∃ front rest before last, labels = front ++ .begin :: rest ∧
        walk step anyStep front first = some before ∧
        before.stage = .ready (plan.phase last) last ∧ call.pool = last.toNat) ∧
    (∀ before after run last, Reaches step anyStep first before →
      before.stage = .ready (plan.phase last) last → before.step .begin = some after →
      Reaches step anyStep after run →
      (∀ file, inline.snapshot path before.site.directory = .ok file →
        ∀ call ∈ run.site.calls, call.pool = last.toNat →
          call.values = some (file.resolve call.job.component.name)) ∧
      ∀ error, inline.snapshot path before.site.directory = .error error →
        run.Stopped before last (.overrides error)) ∧
    ∀ before run last error, Reaches step anyStep first before →
      before.stage = .ready (plan.phase last) last →
      Reaches step anyStep (before.beginWith (plan.phase last) last (.error error)) run →
      run.Stopped before last (.components error) := by
  intro first
  refine ⟨fun labels run walked call member => ?begins,
    fun before after run last reached ready began onward =>
      ⟨fun file taken call => ?values, fun error taken => ?unreadable⟩,
    fun before run last error reached ready => stopped_of_refused reached ready rfl⟩
  case begins =>
    have bound := (logged_of_reaches (reaches_of_walk walked)).known call member
    exact begins_of_walk .refl walked (Nat.zero_le _) bound
  case values =>
    have whole : Reaches step anyStep first after := reached.tail ⟨.begin, rfl, began⟩
    exact (supplied_of_reaches install whole
      (supplied_opened install reached ready taken began) onward).values call
  case unreadable =>
    obtain ⟨kept, source⟩ := layered_of_reaches install reached
    rw [step_begin ready, Option.some_inj] at began
    refine stopped_of_refused reached ready ?_ (began ▸ onward)
    simp only [Site.openPool, plan.action_phase, install, source, OverridesSource.read_layered,
      taken, Except.map]

/-- The file is deleted when the first phase has begun. The call of that phase has its values all
the same, and the second phase cannot begin, as it could not without a list. -/
theorem overrides_snapshot_deleted :
    let plan : Plan := {
      action := .install
      settings := {}
      list := { prerequisites := [{ name := "istio" }], components := [{ name := "dex" }] } }
    let directory := Directory.put {} "o.yaml" (Text.encode "global: \x7bdomain: local\x7d")
    let first := start plan (.layered {} (some "o.yaml") {}) directory false
    ∃ file, OverridesFile.snapshot {} (some "o.yaml") directory = .ok file ∧
      ∃ run, Reaches step anyStep first run ∧ run.stage = .ready .installComponents true ∧
        run.site.calls.map (·.values) = [some (file.resolve "istio")] ∧
        (∃ after error, run.step .begin = some after ∧
          after.Stopped run true (.overrides error)) ∧
        (run.beginWith .installComponents true (.error .emptyName)).Stopped run true
          (.components .emptyName) := by
  intro plan directory first
  have read : (OverridesFile.snapshot {} (some "o.yaml") directory).toOption.isSome = true := by
    decide +kernel
  let labels : List Label := [.edit (·.remove "o.yaml"), .work 0 (.check 0), .work 0 (.take 0),
    .work 0 (.finish 0 true), .work 0 (.send 0), .receive, .work 0 (.check 0), .work 0 (.take 0),
    .work 0 .close, .seeEnd]
  have walked : ((step first .begin).bind fun after =>
      (walk step anyStep labels after).map fun run =>
        (run.stage, run.site.calls.map fun call => (call.pool, call.job.component.name),
          (OverridesFile.snapshot {} (some "o.yaml") run.site.directory).toOption.isSome)) =
      some (.ready .installComponents true, [(0, "istio")], false) := by decide +kernel
  obtain ⟨after, began, walked⟩ := Option.bind_eq_some_iff.mp walked
  obtain ⟨run, walked, shown⟩ := Option.map_eq_some_iff.mp walked
  simp only [Prod.mk.injEq] at shown
  obtain ⟨ready, called, unreadable⟩ := shown
  have onward := reaches_of_walk walked
  have reached : Reaches step anyStep first run := .head ⟨.begin, rfl, began⟩ onward
  obtain ⟨-, begins, unlisted⟩ := overrides_snapshot plan {} {} (some "o.yaml") directory false rfl
  cases taken : OverridesFile.snapshot {} (some "o.yaml") directory with
  | error error =>
    rw [taken] at read
    cases read
  | ok file =>
    refine ⟨file, rfl, run, reached, ready, ?_, ?_, unlisted run _ true _ reached ready .refl⟩
    · obtain ⟨values, -⟩ := begins first after run false .refl rfl began onward
      obtain ⟨call, calls, shown⟩ := List.map_eq_singleton_iff.mp called
      obtain ⟨place, name⟩ := Prod.mk.inj shown
      rw [calls, List.map_singleton, values file taken call (by simp [calls]) place, name]
    · cases late : OverridesFile.snapshot {} (some "o.yaml") run.site.directory with
      | ok file =>
        rw [late] at unreadable
        cases unreadable
      | error error =>
        have stopped := begins run _ _ true reached ready (step_begin ready) .refl
        exact ⟨_, error, step_begin ready, stopped.2 error late⟩

end Rollout.Run
