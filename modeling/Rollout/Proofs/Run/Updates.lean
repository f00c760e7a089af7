import Rollout.Proofs.Delivery.Order
import Rollout.Proofs.Run.Completion
import Rollout.Proofs.Run.Endings

/-! What the observer of a run is told: phase by phase, each with a start, the components that
came out of the hands of workers, and one end. -/

set_option autoImplicit false

namespace Rollout

/-- A phase as its observer learns of it. -/
structure Account where
  phase : Phase
  received : List Component
  outcome : Watch.Outcome

namespace Account

def opening (phase : Phase) (received : List Component) : List Update :=
  { phase := phase, event := .start } :: received.map (Update.processed phase)

def updates (account : Account) : List Update :=
  opening account.phase account.received ++ [Watch.endUpdate account.phase account.outcome]

def narrate (accounts : List Account) : List Update :=
  accounts.flatMap updates

theorem narrate_append (accounts : List Account) (account : Account) :
    narrate (accounts ++ [account]) = narrate accounts ++ account.updates := by
  simp [narrate]

theorem opening_append (phase : Phase) (received : List Component) (component : Component) :
    opening phase (received ++ [component]) =
      opening phase received ++ [Update.processed phase component] := by
  simp [opening]

theorem events_updates (account : Account) :
    account.updates.map (·.event) = .start :: (List.replicate account.received.length .running ++
      [(Watch.endUpdate account.phase account.outcome).event]) := by
  have running : (account.received.map (Update.processed account.phase)).map (·.event) =
      List.replicate account.received.length .running := by
    rw [List.map_map, ← List.map_const']
    rfl
  rw [updates, opening, List.map_append, List.map_cons, running]
  rfl

theorem phase_updates {account : Account} {update : Update} (member : update ∈ account.updates) :
    update.phase = account.phase := by
  rcases List.mem_append.mp member with opening | ended
  · rcases List.mem_cons.mp opening with rfl | running
    · rfl
    · obtain ⟨component, -, rfl⟩ := List.mem_map.mp running
      rfl
  · rw [List.mem_singleton.mp ended]
    cases account.outcome <;> rfl

theorem finished_iff (account : Account) :
    (Watch.endUpdate account.phase account.outcome).event = .finished ↔ account.outcome = none := by
  rcases account.outcome with _ | failure
  · exact ⟨fun _ => rfl, fun _ => rfl⟩
  · cases failure <;> simp [Watch.event_endUpdate]

-- Of the updates of a phase, only the last one is its end.
theorem terminal_updates (account : Account) :
    (account.updates.map (·.event)).filter UpdateEvent.isTerminal =
      [(Watch.endUpdate account.phase account.outcome).event] := by
  have running : (List.replicate account.received.length UpdateEvent.running).filter
      UpdateEvent.isTerminal = [] := by
    apply List.filter_eq_nil_iff.mpr
    intro event member
    rw [List.eq_of_mem_replicate member]
    exact Bool.false_ne_true
  rw [events_updates, List.filter_cons_of_neg Bool.false_ne_true, List.filter_append, running,
    List.nil_append, List.filter_singleton, Watch.isTerminal_endUpdate]
  rfl

theorem terminal_narrate (accounts : List Account) :
    ((narrate accounts).map (·.event)).filter UpdateEvent.isTerminal =
      accounts.map fun account => (Watch.endUpdate account.phase account.outcome).event := by
  induction accounts with
  | nil => rfl
  | cons account rest ih =>
    have split : narrate (account :: rest) = account.updates ++ narrate rest := rfl
    rw [split, List.map_append, List.filter_append, terminal_updates, ih]
    rfl

theorem getLast?_narrate (accounts : List Account) (account : Account) :
    (narrate (accounts ++ [account])).getLast? =
      some (Watch.endUpdate account.phase account.outcome) := by
  rw [narrate_append, updates, ← List.append_assoc, List.getLast?_append]
  rfl

end Account

def Site.heard (site : Site) : List (List Component) :=
  site.pools.map fun pool => pool.received.map (·.component)

/-- What ends with a phase, if the phase does not end well or is the last one. -/
def RunError.resultOf (phase : Phase) : Watch.Outcome → Except RunError Unit
  | none => .ok ()
  | some failure => .error ⟨phase, failure⟩

namespace Plan

variable (plan : Plan)

def accounts (last : Bool) (heard : List (List Component)) : List Account :=
  List.zipWith (⟨·, ·, none⟩) (plan.before last) heard

/-- The phases of a run with a result, by what was received in them. -/
inductive Reported : Except RunError Unit → List (List Component) → List Account → Prop where
  | notStarted {last : Bool} {front : List (List Component)} {error : StartError} :
      front.length = last.toNat →
      Reported (.error ⟨plan.phase last, .notStarted error⟩) front
        (plan.accounts last front ++ [⟨plan.phase last, [], some (.notStarted error)⟩])
  | ended {last : Bool} {front : List (List Component)} {latest : List Component}
      {outcome : Watch.Outcome} :
      front.length = last.toNat → (outcome = none → last = true) →
      Reported (RunError.resultOf (plan.phase last) outcome) (front ++ [latest])
        (plan.accounts last front ++ [⟨plan.phase last, latest, outcome⟩])

def Told (heard : List (List Component)) (sent : List Update) : Stage → Prop
  | .ready _ last => heard.length = last.toNat ∧ sent = Account.narrate (plan.accounts last heard)
  | .watching _ _ last =>
    ∃ front latest, heard = front ++ [latest] ∧ front.length = last.toNat ∧
      sent = Account.narrate (plan.accounts last front) ++
        Account.opening (plan.phase last) latest
  | .closing result | .over result =>
    ∃ accounts, plan.Reported result heard accounts ∧ sent = Account.narrate accounts

variable {plan} {heard : List (List Component)} {sent : List Update} {last : Bool}

theorem Told.opened {phase : Phase} (told : plan.Told heard sent (.ready phase last))
    (watch : Watch) (idle : Bool) :
    plan.Told (heard ++ [[]]) (sent ++ [{ phase := plan.phase last, event := .start }])
      (.watching watch idle last) := by
  obtain ⟨length, rfl⟩ := told
  exact ⟨heard, [], rfl, length, rfl⟩

theorem Told.refused {phase : Phase} (told : plan.Told heard sent (.ready phase last))
    (error : StartError) :
    plan.Told heard (sent ++ [{ phase := plan.phase last, event := .start },
        Update.failed ⟨plan.phase last, .notStarted error⟩])
      (.closing (.error ⟨plan.phase last, .notStarted error⟩)) := by
  obtain ⟨length, rfl⟩ := told
  refine ⟨_, .notStarted length, ?_⟩
  rw [Account.narrate_append]
  rfl

theorem Told.receive {watch later : Watch} {idle : Bool} {front : List (List Component)}
    {latest : List Component}
    (told : plan.Told (front ++ [latest]) sent (.watching watch idle last))
    (component : Component) : plan.Told (front ++ [latest ++ [component]])
      (sent ++ [Update.processed (plan.phase last) component]) (.watching later idle last) := by
  obtain ⟨front', latest', same, length, rfl⟩ := told
  obtain ⟨rfl, rfl⟩ := List.append_singleton_inj.mp same
  refine ⟨front, _, rfl, length, ?_⟩
  rw [Account.opening_append, List.append_assoc]

theorem Told.failed {watch : Watch} {idle : Bool}
    (told : plan.Told heard sent (.watching watch idle last)) (failure : PhaseFailure) :
    plan.Told heard (sent ++ [Watch.endUpdate (plan.phase last) (some failure)])
      (.closing (.error ⟨plan.phase last, failure⟩)) := by
  obtain ⟨front, latest, rfl, length, rfl⟩ := told
  have reported : plan.Reported (RunError.resultOf (plan.phase last) (some failure))
      (front ++ [latest]) _ := .ended length fun same => nomatch same
  refine ⟨_, reported, ?_⟩
  rw [Account.narrate_append, List.append_assoc]
  rfl

theorem Told.finished {watch : Watch} {idle : Bool}
    (told : plan.Told heard sent (.watching watch idle last)) :
    plan.Told heard (sent ++ [Watch.endUpdate (plan.phase last) none])
      (if last then .closing (.ok ()) else .ready plan.secondPhase true) := by
  obtain ⟨front, latest, rfl, length, rfl⟩ := told
  cases last with
  | true =>
    have reported : plan.Reported (RunError.resultOf (plan.phase true) none)
        (front ++ [latest]) _ := .ended length fun _ => rfl
    refine ⟨_, reported, ?_⟩
    rw [Account.narrate_append, List.append_assoc]
    rfl
  | false =>
    obtain rfl := List.length_eq_zero_iff.mp length
    refine ⟨rfl, ?_⟩
    simp [Account.narrate, accounts, before, phase, Account.updates]

end Plan

namespace Site

variable {site next : Site} {index : Nat} {label : Pool.Label} {done : List Pool} {pool : Pool}

theorem heard_eq (pools : site.pools = done ++ [pool]) :
    site.heard = done.map (fun pool => pool.received.map (·.component)) ++
      [pool.received.map (·.component)] := by
  rw [heard, pools, List.map_append, List.map_singleton]

-- Only the watcher receives.
theorem heard_step (moved : site.step index label = some next) (other : label ≠ .receive) :
    next.heard = site.heard := by
  obtain ⟨pool, after, found, stepped, rfl⟩ := step_inv moved
  have same : after.received = pool.received := by
    cases Pool.move_of_step stepped with
    | receive => exact absurd rfl other
    | _ => rfl
  obtain ⟨bound, rfl⟩ := List.getElem?_eq_some_iff.mp found
  have within : index < (site.pools.map fun pool => pool.received.map (·.component)).length := by
    simpa using bound
  have kept := List.set_getElem_self within
  rw [List.getElem_map] at kept
  rw [heard, List.map_set, same]
  exact kept

theorem heard_receive {job : Job} {rest : List Job} (pools : site.pools = done ++ [pool])
    (waiting : pool.channel = job :: rest) (moved : site.step done.length .receive = some next) :
    next.heard = done.map (fun pool => pool.received.map (·.component)) ++
      [pool.received.map (·.component) ++ [job.component]] := by
  obtain ⟨after, stepped, same⟩ := step_latest pools moved
  rw [heard_eq same]
  cases Pool.move_of_step stepped with
  | receive _ front =>
    cases waiting.symm.trans front
    simp

end Site

namespace Run

variable {run next : Run} {label : Label}

/-- An observed run has sent what belongs to its stage, and nothing has been lost of it. -/
structure Narrated (run : Run) : Prop where
  orderly : run.delivery.Orderly
  observed : run.delivery.observed = true
  opened : run.stage.result? = none → run.delivery.closed = false
  returned : ∀ result, run.stage = .over result → run.delivery.isDone = true
  told : run.plan.Told run.site.heard run.delivery.sent run.stage

theorem narrated_start (plan : Plan) (source : OverridesSource) (directory : Directory) :
    (start plan source directory true).Narrated where
  orderly := Delivery.orderly_start true
  observed := rfl
  opened _ := rfl
  returned _ atEnd := nomatch atEnd
  told := ⟨rfl, rfl⟩

theorem Narrated.phase {phase : Phase} {last : Bool} (staged : run.Staged)
    (ready : run.stage = .ready phase last) : phase = run.plan.phase last := by
  rw [Staged, ready] at staged
  exact staged.1

theorem afterPhase_delivery (run : Run) (phase : Phase) (last : Bool) (outcome : Watch.Outcome) :
    (run.afterPhase phase last outcome).delivery = run.delivery ∨
      (run.afterPhase phase last outcome).delivery = run.delivery.close := by
  rcases outcome with _ | failure
  · cases last with
    | false => exact .inl rfl
    | true => exact .inr rfl
  · exact .inr rfl

theorem afterPhase_sent (run : Run) (phase : Phase) (last : Bool) (outcome : Watch.Outcome) :
    (run.afterPhase phase last outcome).delivery.sent = run.delivery.sent := by
  rcases afterPhase_delivery run phase last outcome with same | same <;> rw [same]
  rfl

theorem Narrated.orderly_step (narrated : run.Narrated) (stepped : run.step label = some next) :
    next.delivery.Orderly := by
  have orderly := narrated.orderly
  cases move_of_step stepped with
  | opened | receive => exact orderly.sendAll _
  | refused => exact ((orderly.sendAll _).sendAll _).close
  | @seeEnd watch last =>
    have told := orderly.sendAll [Watch.endUpdate watch.phase watch.verdict]
    rcases afterPhase_delivery (run.tell [Watch.endUpdate watch.phase watch.verdict]) watch.phase
      last watch.verdict with same | same <;> rw [same]
    · exact told
    · exact told.close
  | quitDeadline => exact (orderly.sendAll _).close
  | deliver moved => exact orderly.step moved
  | work | pass | wake | cancelDeadline | edit | conclude => exact orderly

theorem Narrated.observed_step (narrated : run.Narrated) (stepped : run.step label = some next) :
    next.delivery.observed = true := by
  have observed := narrated.observed
  have tell (run : Run) (updates : List Update) :
      (run.tell updates).delivery.observed = run.delivery.observed :=
    (Delivery.sendAll_frame _ _).2
  cases move_of_step stepped with
  | opened | receive | quitDeadline => exact (tell _ _).trans observed
  | refused => exact ((tell _ _).trans (tell _ _)).trans observed
  | @seeEnd watch last =>
    rcases afterPhase_delivery (run.tell [Watch.endUpdate watch.phase watch.verdict]) watch.phase
      last watch.verdict with same | same <;> rw [same] <;> exact (tell _ _).trans observed
  | deliver moved => exact (Delivery.step_frame moved).2.2.trans observed
  | work | pass | wake | cancelDeadline | edit | conclude => exact observed

theorem Narrated.opened_step (narrated : run.Narrated) (stepped : run.step label = some next)
    (going : next.stage.result? = none) : next.delivery.closed = false := by
  have opened := narrated.opened
  have tell (run : Run) (updates : List Update) :
      (run.tell updates).delivery.closed = run.delivery.closed :=
    (Delivery.sendAll_frame _ _).1
  cases move_of_step stepped with
  | opened ready | receive ready =>
    refine (tell _ _).trans (opened ?_)
    rw [ready, Stage.result?]
  | refused | quitDeadline | conclude => cases going
  | @seeEnd watch last pool watching =>
    cases outcome : watch.verdict with
    | some failure =>
      rw [outcome] at going
      cases going
    | none =>
      rw [outcome] at going
      cases last with
      | true => cases going
      | false =>
        refine (tell _ _).trans (opened ?_)
        rw [watching, Stage.result?]
  | pass watching | wake watching | cancelDeadline watching =>
    refine opened ?_
    rw [watching, Stage.result?]
  | deliver moved => exact (Delivery.step_frame moved).2.1.trans (opened going)
  | work | edit => exact opened going

theorem Narrated.sent_tell (narrated : run.Narrated) (going : run.stage.result? = none)
    (updates : List Update) :
    (run.tell updates).delivery.sent = run.delivery.sent ++ updates :=
  Delivery.sendAll_sent narrated.observed (narrated.opened going) updates

theorem told_ended {watch : Watch} {last : Bool} {sent : List Update} (plan : Plan)
    {heard : List (List Component)} (told : plan.Told heard sent (.watching watch false last))
    (phase : watch.phase = plan.phase last) (run : Run) (same : run.plan = plan) :
    plan.Told heard (sent ++ [Watch.endUpdate watch.phase watch.verdict])
      (run.afterPhase watch.phase last watch.verdict).stage := by
  subst same
  rw [phase]
  cases watch.verdict with
  | some failure => exact told.failed failure
  | none =>
    have finished := told.finished
    cases last <;> exact finished

theorem Narrated.told_step (narrated : run.Narrated) (staged : run.Staged)
    (stepped : run.step label = some next) :
    next.plan.Told next.site.heard next.delivery.sent next.stage := by
  have told := narrated.told
  cases move_of_step stepped with
  | @opened phase last site ready opened =>
    have same := Narrated.phase staged ready
    rw [ready] at told
    obtain ⟨source, rfl, -⟩ := Site.openPool_inv opened
    have heard : (run.site.pools ++ [Pool.start phase.action (run.plan.workers phase)
        (run.plan.components phase)]).map (fun pool => pool.received.map (·.component)) =
        run.site.heard ++ [[]] := by
      rw [List.map_append, Pool.start_eq]
      rfl
    have sent := narrated.sent_tell (by rw [ready, Stage.result?])
      [{ phase := phase, event := .start }]
    simp only [Site.heard] at heard ⊢
    rw [heard, sent, same]
    exact told.opened _ _
  | @refused phase last error ready =>
    have same := Narrated.phase staged ready
    rw [ready] at told
    have going : run.stage.result? = none := by rw [ready, Stage.result?]
    have first := narrated.sent_tell going [{ phase := phase, event := .start }]
    have second : ((run.tell [{ phase := phase, event := .start }]).tell
        [Update.failed ⟨phase, .notStarted error⟩]).delivery.sent = _ :=
      Delivery.sendAll_sent ((Delivery.sendAll_frame _ _).2.trans narrated.observed)
        ((Delivery.sendAll_frame _ _).1.trans (narrated.opened going)) _
    have ended := told.refused error
    rw [← same, ← List.singleton_append, ← List.append_assoc, ← first] at ended
    exact second ▸ ended
  | @work index label site work moved =>
    have other : label ≠ .receive := fun same => by
      rw [same] at work
      cases work
    simp only [Site.heard_step moved other]
    exact told
  | @receive watch last pool job rest site watching found waiting moved =>
    rw [Staged, watching] at staged
    obtain ⟨done, latest, pools, watched⟩ := staged
    cases found_latest pools found
    rw [current_eq pools] at moved
    rw [watching, Site.heard_eq pools] at told
    have sent := narrated.sent_tell (by rw [watching, Stage.result?])
      [Update.processed watch.phase job.component]
    simp only [Site.heard_receive pools waiting moved]
    rw [sent, watched.phase]
    exact told.receive job.component
  | @seeEnd watch last pool watching =>
    rw [Staged, watching] at staged
    obtain ⟨done, latest, pools, watched⟩ := staged
    rw [watching] at told
    have sent := narrated.sent_tell (by rw [watching, Stage.result?])
      [Watch.endUpdate watch.phase watch.verdict]
    rw [afterPhase_plan, afterPhase_site, afterPhase_sent, sent]
    exact told_ended run.plan told watched.phase (run.tell _) rfl
  | pass watching | wake watching =>
    rw [watching] at told
    exact told
  | cancelDeadline watching early moved =>
    rw [watching] at told
    simp only [Site.heard_step moved Pool.Label.noConfusion]
    exact told
  | @quitDeadline watch last middle site watching first second =>
    rw [Staged, watching] at staged
    obtain ⟨done, latest, pools, watched⟩ := staged
    rw [watching, ← Site.heard_step first Pool.Label.noConfusion,
      ← Site.heard_step second Pool.Label.noConfusion] at told
    have sent := narrated.sent_tell (by rw [watching, Stage.result?])
      [Watch.endUpdate watch.phase (some .forceQuit)]
    have ended := told.failed .forceQuit
    rw [← watched.phase, ← sent] at ended
    exact ended
  | deliver moved =>
    simp only [(Delivery.step_frame moved).1]
    exact told
  | edit => exact told
  | conclude closing =>
    rw [closing] at told
    exact told

theorem over_step {result : Except RunError Unit} (orderly : run.delivery.Orderly)
    (done : run.delivery.isDone = true) (atEnd : run.stage = .over result)
    (stepped : run.step label = some next) :
    next.stage = .over result ∧ next.delivery = run.delivery := by
  cases move_of_step stepped with
  | work | edit => exact ⟨atEnd, rfl⟩
  | deliver moved =>
    rw [orderly.still done] at moved
    cases moved
  | opened here | refused here | receive here | seeEnd here | pass here | wake here
  | cancelDeadline here | quitDeadline here | conclude here =>
    rw [atEnd] at here
    cases here

theorem Narrated.returned_step (narrated : run.Narrated) (stepped : run.step label = some next)
    (result : Except RunError Unit) (atEnd : next.stage = .over result) :
    next.delivery.isDone = true := by
  have still {earlier : Except RunError Unit} (here : run.stage = .over earlier) :
      next.delivery.isDone = true := by
    have done := narrated.returned earlier here
    rwa [(over_step narrated.orderly done here stepped).2]
  cases move_of_step stepped with
  | conclude closing done => exact done
  | work | edit | deliver => exact still atEnd
  | opened | refused | receive | pass | wake | cancelDeadline | quitDeadline => cases atEnd
  | @seeEnd watch last =>
    cases outcome : watch.verdict with
    | some failure =>
      rw [outcome] at atEnd
      cases atEnd
    | none =>
      rw [outcome] at atEnd
      cases last <;> cases atEnd

theorem Narrated.keep (narrated : run.Narrated) (staged : run.Staged)
    (stepped : run.step label = some next) : next.Narrated where
  orderly := narrated.orderly_step stepped
  observed := narrated.observed_step stepped
  opened := narrated.opened_step stepped
  returned := narrated.returned_step stepped
  told := narrated.told_step staged stepped

theorem narrated_of_reaches {guard : Run → Label → Bool} {plan : Plan} {source : OverridesSource}
    {directory : Directory} (reached : Reaches step guard (start plan source directory true) run) :
    run.Narrated := by
  have both := reached.invariant (fun run => run.Staged ∧ run.Narrated)
    ⟨staged_start plan source directory true, narrated_start plan source directory⟩
    fun kept _ stepped => ⟨kept.1.keep stepped, kept.2.keep kept.1 stepped⟩
  exact both.2

-- Nothing is delivered any more after a run has returned.
theorem Narrated.delivered_later {guard : Run → Label → Bool} {later : Run}
    {result : Except RunError Unit} (narrated : run.Narrated) (atEnd : run.stage = .over result)
    (reached : Reaches step guard run later) : later.delivery = run.delivery := by
  have done := narrated.returned result atEnd
  have both := reached.invariant
    (fun later => later.stage = .over result ∧ later.delivery = run.delivery) ⟨atEnd, rfl⟩ ?_
  · exact both.2
  · intro s t label kept _ stepped
    have step := over_step (kept.2 ▸ narrated.orderly) (kept.2 ▸ done) kept.1 stepped
    exact ⟨step.1, step.2.trans kept.2⟩

end Run

/-! ## Updates and helm calls -/

theorem Plan.Judged.length_received {plan : Plan} {phase : Phase} {outcome : Watch.Outcome}
    {pool : Pool} (judged : plan.Judged phase outcome pool) :
    pool.received.length = pool.taken.length := by
  have calls := judged.ledger.calls.length_eq
  rw [(judged.ledger.no_hands judged.closed judged.listening).1, List.nil_append,
    List.length_map, List.length_map] at calls
  have sent := (judged.ledger.ended_sent judged.closed judged.listening).length_eq
  rw [judged.drained, List.append_nil] at sent
  exact sent.symm.trans calls

end Rollout
