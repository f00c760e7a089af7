import Rollout.Components.List
import Rollout.Proofs.Pool.Serial

/-! The order in which a pool handles its jobs: they are taken in the order of the list, never
more at once than there are workers, and a single worker also reports them in that order. -/

set_option autoImplicit false

namespace Rollout

/-- The job as it was handed out, with no word of how it ended. -/
def Job.fresh (job : Job) : Job :=
  { job with component := { job.component with status := .notStarted } }

namespace Pool

/-- The statuses sent, in the order of their sends. Those that nobody receives count too: when
the receiver leaves, what is in the channel goes before what is sent later. -/
def sent (pool : Pool) : List Job :=
  pool.received ++ pool.channel ++ pool.lost

def sentBy (pool : Pool) : Label → Option Job
  | .send i => pool.workers[i]?.bind Worker.sending?
  | _ => none

variable {pool next : Pool} {label : Label} {action : Action} {workers : Nat}
  {components : List Component}

theorem map_fresh_settle (action : Action) (jobs : List Job) :
    (jobs.map (settle action · true)).map Job.fresh = jobs.map Job.fresh := by
  rw [List.map_map]
  rfl

namespace Ledger

variable (ledger : Ledger action workers components pool)
include ledger

theorem underWay_le : pool.underWay ≤ max workers 1 := by
  rw [underWay_eq, ← ledger.workers_length]
  exact List.length_filterMap_le _ _

theorem taken_eq_take : pool.taken = (jobs components).take pool.taken.length := by
  rw [← ledger.listed, List.take_left]

theorem queue_eq_drop : pool.queue = (jobs components).drop pool.taken.length := by
  rw [← ledger.listed, List.drop_left]

theorem lost_nil_of_open (shut : pool.closed = false) : pool.lost = [] := by
  refine ledger.kept (Bool.eq_false_iff.mpr fun dropped => ?_)
  rw [(ledger.dropped dropped).1] at shut
  cases shut

-- Whatever else a step does with statuses leaves them in their order.
theorem sent_step (stepped : pool.step label = some next) :
    next.sent = pool.sent ++ (pool.sentBy label).toList := by
  cases move_of_step stepped with
  | lose found shut => simp [sent, sentBy, found, Worker.sending?]
  | send found shut => simp [sent, sentBy, found, Worker.sending?, ledger.lost_nil_of_open shut]
  | receive _ waiting => simp [sent, sentBy, waiting]
  | drop listening => simp [sent, sentBy, ledger.kept listening]
  | _ => simp [sent, sentBy]

end Ledger

/-! ## A single worker -/

/-- What has ended has been sent, up to the status that the worker holds. -/
structure Reports (pool : Pool) : Prop where
  serial : pool.Serial
  ended : pool.ended = pool.sent ++ pool.pending

theorem Reports.step (reports : pool.Reports) (ledger : Ledger action workers components pool)
    (stepped : pool.step label = some next) : next.Reports := by
  obtain ⟨serial, ended⟩ := reports
  refine ⟨serial.step stepped, ?_⟩
  rw [ledger.sent_step stepped]
  rw [pending] at ended ⊢
  -- the worker holds a status from the end of a call up to the send that follows
  cases move_of_step stepped with
  | leaveCancelled found | leaveEmpty found | goOn found | take found | finish found
  | lose found | send found =>
    obtain ⟨before, after⟩ := held_single Worker.sending? serial.single found
    rw [before] at ended
    rw [become, after]
    simpa [sentBy, found, Worker.sending?] using ended
  | close | receive | cancel | drop => simpa [sentBy] using ended

theorem reports_start (single : max workers 1 = 1) :
    (start action workers components).Reports := by
  rw [start_eq, single]
  exact ⟨⟨rfl, rfl⟩, rfl⟩

theorem reports_of_reaches {guard : Pool → Label → Bool} (single : max workers 1 = 1)
    (reached : Reaches step guard (start action workers components) pool) : pool.Reports := by
  refine (reached.invariant (fun pool => Ledger action workers components pool ∧ pool.Reports)
    ⟨ledger_start .., reports_start single⟩ ?_).2
  rintro _ _ _ ⟨ledger, reports⟩ - stepped
  exact ⟨ledger.keep stepped, reports.step ledger stepped⟩

/-- Without their outcomes, the statuses sent, the one held and the call under way are the
jobs taken, in this order. -/
theorem Reports.taken (reports : pool.Reports) :
    (pool.sent ++ pool.pending ++ pool.inCall).map Job.fresh = pool.taken.map Job.fresh := by
  rw [← reports.ended, ← map_fresh_settle pool.action, reports.serial.inTurn, map_fresh_settle]

theorem Reports.received (reports : pool.Reports)
    (ledger : Ledger action workers components pool) :
    pool.received.map Job.fresh <+: (jobs components).map Job.fresh := by
  rw [← ledger.listed, List.map_append, ← reports.taken, sent]
  simp only [List.map_append, List.append_assoc]
  exact List.prefix_append _ _

theorem Reports.quiet (reports : pool.Reports) {i : Nat}
    (taking : pool.workers[i]? = some .taking) :
    pool.underWay = 0 ∧ pool.ended.map Job.fresh = pool.taken.map Job.fresh := by
  have idle := (inCall_single reports.serial.single taking).1
  have taken := reports.taken
  rw [← reports.ended, idle] at taken
  exact ⟨reports.serial.quiet taking, by simpa [Worker.calling?] using taken⟩

theorem taking_of_taken (stepped : pool.step label = some next) {job : Job}
    (began : next.taken = pool.taken ++ [job]) :
    ∃ i : Nat, pool.workers[i]? = some .taking := by
  cases move_of_step stepped with
  | take taking => exact ⟨_, taking⟩
  | _ => simp at began

/-- The components come from their provider in the order of the group, or for removal in
reverse. In every state that a pool can come to, the jobs taken are the first ones of its list,
at most one for each worker is in a call, and statuses are received in the order in which they
are sent. A single worker calls for one job at a time and reports the jobs in the order of the
list. -/
theorem jobs_in_sequence (action : Action) (workers : Nat) :
    (∀ path group, (ComponentList.charted path group (action = .uninstall)).map
        (fun component => (component.name, component.releaseNamespace)) =
      match action with
      | .install => group
      | .uninstall => group.reverse) ∧
    ∀ components pool, Reaches step anyStep (start action workers components) pool →
      pool.underWay ≤ max workers 1 ∧
      (∃ k, pool.taken = (jobs components).take k ∧ pool.queue = (jobs components).drop k) ∧
      (∀ label next, pool.step label = some next →
        next.sent = pool.sent ++ (pool.sentBy label).toList) ∧
      (max workers 1 = 1 →
        (∀ label next job, pool.step label = some next → next.taken = pool.taken ++ [job] →
          pool.underWay = 0 ∧ pool.ended.map Job.fresh = pool.taken.map Job.fresh) ∧
        (pool.sent ++ pool.pending ++ pool.inCall).map Job.fresh = pool.taken.map Job.fresh ∧
        pool.received.map Job.fresh <+: (jobs components).map Job.fresh) := by
  refine ⟨fun path group => ?handed, fun components pool reached => ?reached⟩
  case handed =>
    rw [ComponentList.charted]
    cases action <;> simp [List.map_map, Function.comp_def]
  case reached =>
    have ledger := ledger_of_reaches reached
    refine ⟨ledger.underWay_le, ⟨_, ledger.taken_eq_take, ledger.queue_eq_drop⟩,
      fun _ _ => ledger.sent_step, fun single => ?_⟩
    have reports := reports_of_reaches single reached
    refine ⟨fun label next job stepped began => ?_, reports.taken, reports.received ledger⟩
    obtain ⟨i, taking⟩ := taking_of_taken stepped began
    exact reports.quiet taking

/-- A removal for which no worker was asked for has one. It is about to take its second job,
behind a call that failed. -/
theorem jobs_in_sequence_removal :
    let components := ComponentList.charted "r" [("dex", "kyma"), ("ory", "auth")] true
    ∃ pool next job,
      Reaches step anyStep (start .uninstall 0 components) pool ∧ max 0 1 = 1 ∧
      pool.step (.take 0) = some next ∧ next.taken = pool.taken ++ [job] ∧
      pool.received.map (·.component.name) = ["ory"] ∧
      pool.underWay = 0 ∧ pool.ended.map Job.fresh = pool.taken.map Job.fresh ∧
      pool.received.map Job.fresh <+: (jobs components).map Job.fresh := by
  intro components
  let ory : Job := ⟨0, { name := "ory", releaseNamespace := "auth", chart := "r/ory" }⟩
  let dex : Job := ⟨1, { name := "dex", releaseNamespace := "kyma", chart := "r/dex" }⟩
  let labels : List Label :=
    [.check 0, .take 0, .finish 0 false, .send 0, .receive, .check 0]
  have walked : (walk step anyStep labels (start .uninstall 0 components)).map
      (fun pool => (pool.received.map (·.component.name), pool.taken,
        (pool.step (.take 0)).map (·.taken))) =
      some (["ory"], [ory], some [ory, dex]) := by decide +kernel
  obtain ⟨pool, walked, seen⟩ := Option.map_eq_some_iff.mp walked
  obtain ⟨names, taken, began⟩ := Prod.mk.inj seen |>.imp_right Prod.mk.inj
  obtain ⟨next, stepped, both⟩ := Option.map_eq_some_iff.mp began
  have reached := reaches_of_walk walked
  have grown : next.taken = pool.taken ++ [dex] := by rw [both, taken]; rfl
  obtain ⟨-, -, -, alone⟩ := (jobs_in_sequence .uninstall 0).2 components pool reached
  obtain ⟨calls, -, received⟩ := alone rfl
  obtain ⟨quiet, ended⟩ := calls _ next dex stepped grown
  exact ⟨pool, next, dex, reached, rfl, stepped, grown, names, quiet, ended, received⟩

end Pool

end Rollout
