import Rollout.Proofs.Pool.Moves
import Rollout.Run

/-! The steps of a run, each with all that makes it possible and all that it changes. -/

set_option autoImplicit false

namespace Rollout

namespace Site

theorem step_inv {site next : Site} {index : Nat} {label : Pool.Label}
    (stepped : site.step index label = some next) :
    ∃ pool after, site.pools[index]? = some pool ∧ pool.step label = some after ∧
      next = { site with
        pools := site.pools.set index after
        calls := site.calls ++ (site.newCall? index pool label).toList } := by
  obtain ⟨pool, found, rest⟩ := Option.bind_eq_some_iff.mp stepped
  obtain ⟨after, moved, same⟩ := Option.bind_eq_some_iff.mp rest
  exact ⟨pool, after, found, moved, (Option.some.inj same).symm⟩

/-- A pool behind a step is one from before it, or that one after its step. -/
theorem found_step {site next : Site} {index place : Nat} {label : Pool.Label} {pool : Pool}
    (stepped : site.step place label = some next) (found : next.pools[index]? = some pool) :
    ∃ old, site.pools[index]? = some old ∧
      (pool = old ∨ place = index ∧ old.step label = some pool) := by
  obtain ⟨old, after, there, moved, rfl⟩ := step_inv stepped
  rw [List.getElem?_set] at found
  split at found
  · rename_i same
    subst same
    split at found <;> cases found
    exact ⟨old, there, .inr ⟨rfl, moved⟩⟩
  · exact ⟨pool, found, .inl rfl⟩

theorem step_of_pool {site : Site} {index : Nat} {label : Pool.Label} {pool after : Pool}
    (found : site.pools[index]? = some pool) (moved : pool.step label = some after) :
    site.step index label = some { site with
      pools := site.pools.set index after
      calls := site.calls ++ (site.newCall? index pool label).toList } := by
  rw [step, found, Option.bind_eq_bind, Option.bind_some, moved]
  rfl

theorem exists_step {site : Site} {index : Nat} {label : Pool.Label} {pool after : Pool}
    (found : site.pools[index]? = some pool) (moved : pool.step label = some after) :
    ∃ next, site.step index label = some next ∧ next.pools = site.pools.set index after :=
  ⟨_, step_of_pool found moved, rfl⟩

theorem openPool_inv {site next : Site} {action : Action} {workers : Nat}
    {components : List Component}
    (opened : site.openPool action workers (.ok components) = .ok next) :
    ∃ source, next = { site with
        source := source
        pools := site.pools ++ [Pool.start action workers components] } ∧
      (action = .install → site.source.read site.directory = .ok source) := by
  cases action with
  | uninstall => exact ⟨site.source, (Except.ok.inj opened).symm, fun same => nomatch same⟩
  | install =>
    simp only [openPool] at opened
    split at opened <;> cases opened
    rename_i source read
    exact ⟨source, rfl, fun _ => read⟩

end Site

namespace Run

inductive Move (run : Run) : Label → Run → Prop where
  | opened {phase : Phase} {last : Bool} {site : Site} : run.stage = .ready phase last →
      run.site.openPool phase.action (run.plan.workers phase)
        (.ok (run.plan.components phase)) = .ok site →
      Move run .begin { run.tell [{ phase := phase, event := .start }] with
        site := site, stage := .watching { phase := phase } false last }
  | refused {phase : Phase} {last : Bool} {error : StartError} : run.stage = .ready phase last →
      run.site.openPool phase.action (run.plan.workers phase)
        (.ok (run.plan.components phase)) = .error error →
      Move run .begin (((run.tell [{ phase := phase, event := .start }]).tell
        [Update.failed ⟨phase, .notStarted error⟩]).close (.error ⟨phase, .notStarted error⟩))
  | work {index : Nat} {label : Pool.Label} {site : Site} : isWork label = true →
      run.site.step index label = some site → Move run (.work index label) { run with site := site }
  | receive {watch : Watch} {last : Bool} {pool : Pool} {job : Job} {rest : List Job}
      {site : Site} : run.stage = .watching watch false last →
      run.site.pools[run.current]? = some pool → pool.channel = job :: rest →
      run.site.step run.current .receive = some site →
      Move run .receive { run.tell [Update.processed watch.phase job.component] with
        site := site, stage := .watching (watch.noting job.component) false last }
  | seeEnd {watch : Watch} {last : Bool} {pool : Pool} :
      run.stage = .watching watch false last → run.site.pools[run.current]? = some pool →
      pool.channel = [] → pool.closed = true →
      Move run .seeEnd ((run.tell [Watch.endUpdate watch.phase watch.verdict]).afterPhase
        watch.phase last watch.verdict)
  | pass {watch : Watch} {last : Bool} {pool : Pool} : run.stage = .watching watch false last →
      run.site.pools[run.current]? = some pool → pool.channel = [] → pool.closed = false →
      Move run .pass { run with stage := .watching watch true last }
  | wake {watch : Watch} {last : Bool} : run.stage = .watching watch true last →
      Move run .wake { run with stage := .watching watch false last }
  | cancelDeadline {watch : Watch} {last : Bool} {site : Site} :
      run.stage = .watching watch true last → watch.timedOut = false →
      run.site.step run.current .cancel = some site →
      Move run .cancelDeadline { run with
        site := site, stage := .watching watch.overdue false last }
  | quitDeadline {watch : Watch} {last : Bool} {middle site : Site} :
      run.stage = .watching watch true last →
      run.site.step run.current .cancel = some middle →
      middle.step (middle.pools.length - 1) .drop = some site →
      Move run .quitDeadline (({ run with site := site }.tell
        [Watch.endUpdate watch.phase (some .forceQuit)]).close (.error ⟨watch.phase, .forceQuit⟩))
  | deliver {label : Delivery.Label} {delivery : Delivery} :
      run.delivery.step label = some delivery →
      Move run (.deliver label) { run with delivery := delivery }
  | edit {change : Directory → Directory} :
      Move run (.edit change) { run with site := run.site.edit change }
  | conclude {result : Except RunError Unit} : run.stage = .closing result →
      run.delivery.isDone = true → Move run .conclude { run with stage := .over result }

variable {run next : Run} {label : Label}

theorem poolStep_inv {label : Pool.Label} (stepped : run.poolStep label = some next) :
    ∃ site, run.site.step run.current label = some site ∧ next = { run with site := site } := by
  obtain ⟨site, moved, same⟩ := Option.bind_eq_some_iff.mp stepped
  exact ⟨site, moved, (Option.some.inj same).symm⟩

theorem move_of_step (stepped : run.step label = some next) : Move run label next := by
  cases label with
  | begin =>
    simp only [step] at stepped
    split at stepped <;> cases stepped
    rename_i phase last ready
    rw [beginPhase]
    split
    · exact .opened ready ‹_›
    · exact .refused ready ‹_›
  | work index label =>
    simp only [step] at stepped
    split at stepped
    · rename_i work
      obtain ⟨site, moved, same⟩ := Option.bind_eq_some_iff.mp stepped
      cases same
      exact .work work moved
    · cases stepped
  | receive =>
    simp only [step] at stepped
    split at stepped
    · rename_i watch last pool watching found
      split at stepped
      · cases stepped
      · rename_i job rest waiting
        obtain ⟨after, received, same⟩ := Option.bind_eq_some_iff.mp stepped
        obtain ⟨site, moved, rfl⟩ := poolStep_inv received
        cases same
        exact .receive watching found waiting moved
    · cases stepped
  | seeEnd =>
    simp only [step] at stepped
    split at stepped
    · rename_i watch last pool watching found
      split at stepped <;> cases stepped
      rename_i ended
      rw [Bool.and_eq_true, List.isEmpty_iff] at ended
      exact .seeEnd watching found ended.1 ended.2
    · cases stepped
  | pass =>
    simp only [step] at stepped
    split at stepped
    · rename_i watch last pool watching found
      split at stepped <;> cases stepped
      rename_i quiet
      rw [Bool.and_eq_true, List.isEmpty_iff, Bool.not_eq_true'] at quiet
      exact .pass watching found quiet.1 quiet.2
    · cases stepped
  | wake =>
    simp only [step] at stepped
    split at stepped <;> cases stepped
    exact .wake ‹_›
  | cancelDeadline =>
    simp only [step] at stepped
    split at stepped
    · rename_i watch last watching
      split at stepped
      · cases stepped
      · rename_i early
        obtain ⟨after, cancelled, same⟩ := Option.bind_eq_some_iff.mp stepped
        obtain ⟨site, moved, rfl⟩ := poolStep_inv cancelled
        cases same
        exact .cancelDeadline watching (by simpa using early) moved
    · cases stepped
  | quitDeadline =>
    simp only [step] at stepped
    split at stepped
    · rename_i watch last watching
      obtain ⟨cancelling, cancelled, rest⟩ := Option.bind_eq_some_iff.mp stepped
      obtain ⟨leaving, dropped, same⟩ := Option.bind_eq_some_iff.mp rest
      obtain ⟨middle, first, rfl⟩ := poolStep_inv cancelled
      obtain ⟨site, second, rfl⟩ := poolStep_inv dropped
      cases same
      exact .quitDeadline watching first second
    · cases stepped
  | deliver label =>
    obtain ⟨delivery, moved, same⟩ := Option.bind_eq_some_iff.mp stepped
    cases same
    exact .deliver moved
  | edit change =>
    cases stepped
    exact .edit
  | conclude =>
    simp only [step] at stepped
    split at stepped
    · rename_i result closing
      split at stepped <;> cases stepped
      exact .conclude closing ‹_›
    · cases stepped

theorem step_of_move (move : Move run label next) : run.step label = some next := by
  cases move with
  | opened ready opened | refused ready opened => simp [step, ready, beginPhase, tell, opened]
  | work work moved => simp [step, work, moved]
  | receive watching found waiting moved =>
    simp [step, watching, found, waiting, poolStep, moved]
    rfl
  | seeEnd watching found drained closed =>
    simp [step, watching, found, drained, closed, react, Watch.react]
  | pass watching found drained opened => simp [step, watching, found, drained, opened]
  | wake watching => simp [step, watching]
  | cancelDeadline watching early moved =>
    simp [step, watching, early, poolStep, moved]
    rfl
  | quitDeadline watching first second =>
    rw [current] at first
    simp [step, watching, poolStep, current, first, second]
    rfl
  | deliver moved => simp [step, moved]
  | edit => rfl
  | conclude closing done => simp [step, closing, done]

end Run

end Rollout
