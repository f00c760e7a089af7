import Rollout.Proofs.Run.Snapshot
import Rollout.Proofs.Timed.Return

/-! A removal does not look at overrides. It takes the same steps at the same instants whatever
their source and its files are, and it leaves the source as it is. -/

set_option autoImplicit false

namespace Rollout

/-! ## Other overrides -/

def Site.supply (site : Site) (source : OverridesSource) (directory : Directory) : Site :=
  { site with source := source, directory := directory }

def Run.supply (run : Run) (source : OverridesSource) (directory : Directory) : Run :=
  { run with site := run.site.supply source directory }

def Timed.supply (timed : Timed) (source : OverridesSource) (directory : Directory) : Timed :=
  { timed with run := timed.run.supply source directory }

namespace Site

variable {site next : Site} {index : Nat} {pool : Pool} {label : Pool.Label}
  {source : OverridesSource} {directory : Directory}

theorem newCall?_supply (removal : pool.action = .uninstall) :
    (site.supply source directory).newCall? index pool label = site.newCall? index pool label := by
  unfold newCall?
  simp only [callFor, removal]

theorem step_supply (removal : ∀ pool ∈ site.pools, pool.action = .uninstall)
    (stepped : site.step index label = some next) :
    (site.supply source directory).step index label = some (next.supply source directory) := by
  obtain ⟨pool, after, found, moved, rfl⟩ := step_inv stepped
  have same : (site.supply source directory).newCall? index pool label =
      site.newCall? index pool label := newCall?_supply (removal pool (List.mem_of_getElem? found))
  have there : (site.supply source directory).step index label = _ := step_of_pool found moved
  rw [there, same]
  rfl

/-- The pools are for the same as before. -/
theorem removal_step (removal : ∀ pool ∈ site.pools, pool.action = .uninstall)
    (stepped : site.step index label = some next) :
    ∀ pool ∈ next.pools, pool.action = .uninstall := by
  obtain ⟨pool, after, found, moved, rfl⟩ := step_inv stepped
  intro other member
  rcases List.mem_or_eq_of_mem_set member with old | rfl
  · exact removal other old
  · rw [(Pool.frame_step moved).1]
    exact removal pool (List.mem_of_getElem? found)

end Site

namespace Run

variable {run next : Run} {label : Label} {source : OverridesSource} {directory : Directory}

/-- What a run has begun, and what it is about to begin, are removals. -/
structure Removing (run : Run) : Prop where
  ready : ∀ phase last, run.stage = .ready phase last → phase.action = .uninstall
  pools : ∀ pool ∈ run.site.pools, pool.action = .uninstall

theorem removing_of_reaches {guard : Run → Label → Bool} {plan : Plan} {observed : Bool}
    (removal : plan.action = .uninstall)
    (reached : Reaches step guard (start plan source directory observed) run) :
    run.Removing := by
  constructor
  case ready =>
    intro phase last ready
    obtain ⟨rfl, -⟩ := ready_of_reaches reached ready
    exact (plan.action_phase last).trans removal
  case pools =>
    intro pool member
    obtain ⟨index, found⟩ := List.mem_iff_getElem?.mp member
    obtain ⟨last, -, onward⟩ := pool_of_reaches reached found
    rw [(Pool.ledger_of_reaches onward).action_eq, plan.action_phase, removal]

theorem Removing.forward (removing : run.Removing) (source : OverridesSource)
    (directory : Directory) (stepped : run.step label = some next)
    (inside : ∀ change, label ≠ .edit change) :
    (run.supply source directory).step label = some (next.supply source directory) := by
  have pools := removing.pools
  cases move_of_step stepped with
  | @opened phase last site ready opened =>
    have here : (run.supply source directory).site.openPool phase.action (run.plan.workers phase)
        (.ok (run.plan.components phase)) = .ok (site.supply source directory) := by
      rw [removing.ready phase last ready] at opened ⊢
      cases opened
      rfl
    exact step_of_move (.opened ready here)
  | @refused phase last error ready refused =>
    rw [removing.ready phase last ready] at refused
    cases refused
  | work work moved => exact step_of_move (.work work (Site.step_supply pools moved))
  | receive watching found waiting moved =>
    exact step_of_move (.receive watching found waiting (Site.step_supply pools moved))
  | @seeEnd watch last pool watching found drained closed =>
    have ended : (run.supply source directory).step .seeEnd = _ :=
      step_of_move (.seeEnd watching found drained closed)
    rw [ended]
    cases watch.verdict <;> cases last <;> rfl
  | pass watching found drained opened =>
    exact step_of_move (.pass watching found drained opened)
  | wake watching => exact step_of_move (.wake watching)
  | cancelDeadline watching early moved =>
    exact step_of_move (.cancelDeadline watching early (Site.step_supply pools moved))
  | quitDeadline watching first second =>
    exact step_of_move (.quitDeadline watching (Site.step_supply pools first)
      (Site.step_supply (Site.removal_step pools first) second))
  | deliver moved => exact step_of_move (.deliver moved)
  | edit => exact absurd rfl (inside _)
  | conclude closing done => exact step_of_move (.conclude closing done)

/-- With other overrides a run that removes takes the same steps. -/
theorem Removing.step_supply (removing : run.Removing) (source : OverridesSource)
    (directory : Directory) (inside : ∀ change, label ≠ .edit change) :
    (run.supply source directory).step label =
      (run.step label).map (·.supply source directory) := by
  cases stepped : run.step label with
  | some next => exact removing.forward source directory stepped inside
  | none =>
    -- a step from there would be one from here, with the overrides put back
    cases other : (run.supply source directory).step label with
    | none => rfl
    | some next =>
      have again : (run.supply source directory).Removing := ⟨removing.ready, removing.pools⟩
      have back := again.forward run.site.source run.site.directory other inside
      exact nomatch stepped.symm.trans back

end Run

namespace Timed

variable {timing : Timing} {timed : Timed} {source : OverridesSource} {directory : Directory}

theorem allows_supply (label : Run.Label) :
    (timed.supply source directory).allows timing label = timed.allows timing label := by
  cases label <;> rfl

theorem after_supply (label : Run.Label) (next : Run) :
    (timed.supply source directory).after label (next.supply source directory) =
      (timed.after label next).supply source directory := by
  cases label <;> rfl

theorem isQuiet_supply (removing : timed.run.Removing) :
    (timed.supply source directory).isQuiet timing = timed.isQuiet timing := by
  have same (label : Run.Label) : ((timed.run.supply source directory).step label).isSome =
      (timed.run.step label).isSome := by
    by_cases edit : ∃ change, label = .edit change
    · obtain ⟨change, rfl⟩ := edit
      rfl
    · rw [removing.step_supply source directory fun change here => edit ⟨change, here⟩,
        Option.isSome_map]
  unfold isQuiet
  congr 1
  funext label
  rw [allows_supply]
  exact congrArg (fun able => !(timed.allows timing label && able)) (same label)

theorem step_supply {label : Label} (removing : timed.run.Removing) (source : OverridesSource)
    (directory : Directory) (inner : isInner label = true) :
    (timed.supply source directory).step timing label =
      (timed.step timing label).map (·.supply source directory) := by
  cases label with
  | tick =>
    rw [step, step, isQuiet_supply removing]
    cases timed.isQuiet timing <;> rfl
  | act label =>
    have inside : ∀ change, label ≠ .edit change := by
      rintro change rfl
      cases inner
    have moved : (timed.supply source directory).run.step label =
        (timed.run.step label).map (·.supply source directory) :=
      removing.step_supply source directory inside
    rw [step, step, allows_supply, moved]
    split
    · rw [Option.map_map, Option.map_map]
      exact Option.map_congr fun next _ => after_supply label next
    · rfl

theorem exists_edit {label : Label} (outer : ¬ isInner label = true) :
    ∃ change, label = .act (.edit change) := by
  cases label with
  | tick => exact absurd rfl outer
  | act label =>
    cases label with
    | edit change => exact ⟨change, rfl⟩
    | _ => exact absurd rfl outer

/-- A change of the files is all that a step for it comes to. -/
theorem step_edit (timing : Timing) (timed : Timed) (change : Directory → Directory) :
    timed.step timing (.act (.edit change)) =
      some (timed.supply timed.run.site.source (change timed.run.site.directory)) := by
  have since : (timed.after (.edit change) { timed.run with
      site := timed.run.site.edit change }).since = timed.since := by
    funext pool position
    simp [after_since, hasBegun, Site.edit]
  exact congrArg (fun since => some { timed.supply timed.run.site.source
    (change timed.run.site.directory) with since := since }) since

variable {plan : Plan} {observed : Bool}

theorem source_of_reaches (removal : plan.action = .uninstall)
    (reached : Reaches (step timing) anyStep (start plan source directory observed) timed) :
    timed.run.site.source = source := by
  induction reached with
  | refl => rfl
  | @tail middle timed before follows ih =>
    obtain ⟨label, -, stepped⟩ := follows
    have removing := Run.removing_of_reaches removal (run_of_reaches before)
    by_cases inner : isInner label = true
    · -- the step from the same place is one that leaves the overrides as they are
      have kept : timed = timed.supply middle.run.site.source middle.run.site.directory := by
        have same : middle.step timing label = _ :=
          step_supply removing middle.run.site.source middle.run.site.directory inner
        rw [stepped] at same
        exact Option.some.inj same
      rw [kept]
      exact ih
    · obtain ⟨change, rfl⟩ := exists_edit inner
      rw [step_edit] at stepped
      cases stepped
      exact ih

/-- With other overrides, and with files that nobody changes, the same happens at the same
instants. -/
theorem walk_supply (removal : plan.action = .uninstall) (labels : List Label)
    (reached : Reaches (step timing) anyStep (start plan source directory observed) timed)
    (other : OverridesSource) (files : Directory) :
    walk (step timing) anyStep (labels.filter isInner) (timed.supply other files) =
      (walk (step timing) anyStep labels timed).map (·.supply other files) := by
  induction labels generalizing timed with
  | nil => rfl
  | cons label rest ih =>
    have removing := Run.removing_of_reaches removal (run_of_reaches reached)
    simp only [walk, anyStep, if_true]
    by_cases inner : isInner label = true
    · rw [List.filter_cons_of_pos inner]
      simp only [walk, anyStep, if_true, step_supply removing other files inner]
      cases stepped : timed.step timing label with
      | none => rfl
      | some next => exact ih (reached.tail ⟨label, rfl, stepped⟩)
    · rw [List.filter_cons_of_neg inner]
      obtain ⟨change, rfl⟩ := exists_edit inner
      have stepped := step_edit timing timed change
      rw [stepped]
      exact ih (reached.tail ⟨_, rfl, stepped⟩)

/-- Whatever its overrides are, a removal takes the same steps at the same instants, and all that
it does is the same: its stages and updates, its calls and the pools that make them. The overrides
stay as they were given. Changes of the files on the way, the same ones or others, do not matter
either. -/
theorem removal_ignores_overrides (plan : Plan) (removal : plan.action = .uninstall)
    (timing : Timing) (observed : Bool) (source other : OverridesSource)
    (directory elsewhere : Directory) (labels others : List Label)
    (alike : labels.filter isInner = others.filter isInner) (timed : Timed)
    (walked : walk (step timing) anyStep labels (start plan source directory observed) =
      some timed) :
    timed.run.site.source = source ∧
      ∃ files, walk (step timing) anyStep others (start plan other elsewhere observed) =
        some (timed.supply other files) := by
  have reached := reaches_of_walk walked
  have first : walk (step timing) anyStep (labels.filter isInner)
      ((start plan source directory observed).supply other elsewhere) = _ :=
    walk_supply removal labels .refl other elsewhere
  have second : walk (step timing) anyStep (others.filter isInner)
      ((start plan other elsewhere observed).supply other elsewhere) = _ :=
    walk_supply removal others .refl other elsewhere
  rw [walked, alike] at first
  -- both starts are the same when their overrides are
  obtain ⟨later, onward, same⟩ := Option.map_eq_some_iff.mp (second.symm.trans first)
  refine ⟨source_of_reaches removal reached, later.run.site.directory, ?_⟩
  have kept : later = later.supply other later.run.site.directory := by
    rw [← source_of_reaches removal (reaches_of_walk onward)]
    rfl
  rw [onward, kept]
  exact congrArg (fun timed => some (timed.supply other later.run.site.directory)) same

/-- A component cannot be removed. It makes no difference whether overrides come from a file that
is replaced by one that cannot be read, or cannot be read at all. -/
theorem removal_ignores_overrides_unreadable :
    let plan : Plan := ⟨.uninstall, { workers := 1 }, { components := [{ name := "dex" }] }⟩
    let timing : Timing := fun _ _ => { duration := some 2, fails := true }
    let source := OverridesSource.fresh {} (some "overrides.yaml")
    let directory : Directory := ({} : Directory).put "overrides.yaml" []
    let enter : List Label := [.act .begin, .act (.work 0 (.check 0)), .act (.work 0 (.take 0)),
      .act .pass]
    let leave : List Label := [.tick, .tick, .act (.work 0 (.finish 0 false)),
      .act (.work 0 (.send 0)), .act .wake, .act .receive, .act (.work 0 (.check 0)),
      .act (.work 0 (.take 0)), .act (.work 0 .close), .act .seeEnd, .act .conclude]
    let edit : Label := .act (.edit (·.put "overrides.yaml" [0x2d, 0xff]))
    let result := Except.error ⟨.uninstallComponents, .execution 1⟩
    ∃ timed, timed.run.stage = .over result ∧ timed.run.site.source = source ∧
      walk (step timing) anyStep (enter ++ edit :: leave) (start plan source directory false) =
        some timed ∧
      ∃ files, walk (step timing) anyStep (enter ++ leave)
        (start plan (.broken "shut") {} false) = some (timed.supply (.broken "shut") files) := by
  intro plan timing source directory enter leave edit result
  have walked : (walk (step timing) anyStep (enter ++ edit :: leave)
      (start plan source directory false)).map (·.run.stage) = some (.over result) := by
    decide +kernel
  obtain ⟨timed, walked, atEnd⟩ := Option.map_eq_some_iff.mp walked
  obtain ⟨kept, ignored⟩ := removal_ignores_overrides plan rfl timing false source (.broken "shut")
    directory {} (enter ++ edit :: leave) (enter ++ leave) rfl timed walked
  exact ⟨timed, atEnd, kept, walked, ignored⟩

end Timed

end Rollout
