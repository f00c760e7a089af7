import Rollout.Proofs.Run.Success
import Rollout.Proofs.Run.Updates

/-! The grammar of the updates that an observer is called with, and how it goes with the result
of the run and with its helm calls. -/

set_option autoImplicit false

namespace Rollout

namespace Plan

variable {plan : Plan} {last : Bool} {front : List (List Component)} {index : Nat}
  {account : Account}

theorem length_accounts (plan : Plan) (length : front.length = last.toNat) :
    (plan.accounts last front).length = front.length := by
  rw [accounts, List.length_zipWith, length]
  cases last <;> rfl

theorem received_of_accounts (found : (plan.accounts last front)[index]? = some account) :
    front[index]? = some account.received ∧ account.outcome = none := by
  rw [accounts, List.getElem?_zipWith_eq_some] at found
  obtain ⟨phase, received, -, here, rfl⟩ := found
  exact ⟨here, rfl⟩

variable {result : Except RunError Unit} {heard : List (List Component)}
  {accounts : List Account}

/-- Where a phase began, what its account has was received from the pool of that place. Only
the latest pool can be that of a failure. -/
theorem Reported.received (reported : plan.Reported result heard accounts)
    (found : accounts[index]? = some account)
    (started : ∀ error, account.outcome ≠ some (.notStarted error)) :
    heard[index]? = some account.received ∧
      (account.outcome ≠ none → index + 1 = heard.length) := by
  have earlier {last : Bool} {front : List (List Component)} (rest : List (List Component))
      (here : (plan.accounts last front)[index]? = some account) :
      (front ++ rest)[index]? = some account.received ∧
        (account.outcome ≠ none → index + 1 = (front ++ rest).length) := by
    obtain ⟨received, well⟩ := received_of_accounts here
    obtain ⟨bound, -⟩ := List.getElem?_eq_some_iff.mp received
    exact ⟨(List.getElem?_append_left bound).trans received, absurd well⟩
  cases reported with
  | @notStarted last front error length =>
    have same := length_accounts plan length
    rcases Nat.lt_or_ge index heard.length with before | behind
    · rw [List.getElem?_append_left (same ▸ before)] at found
      simpa using earlier [] found
    · rw [List.getElem?_append_right (same ▸ behind), List.getElem?_singleton] at found
      split at found <;> cases found
      exact absurd rfl (started error)
  | @ended last front latest outcome length well =>
    have same := length_accounts plan length
    rcases Nat.lt_or_ge index front.length with before | behind
    · rw [List.getElem?_append_left (same ▸ before)] at found
      exact earlier [latest] found
    · rw [List.getElem?_append_right (same ▸ behind), List.getElem?_singleton, same] at found
      split at found <;> cases found
      obtain rfl : index = front.length := by omega
      exact ⟨List.getElem?_concat_length, fun _ => by simp⟩

-- The pool of a phase that was given up is the latest one.
theorem Reported.given_up {phase : Phase}
    (reported : plan.Reported (.error ⟨phase, .forceQuit⟩) heard accounts)
    (found : accounts[index]? = some account) (latest : index + 1 = heard.length) :
    account.outcome = some .forceQuit := by
  generalize forced : (.error ⟨phase, .forceQuit⟩ : Except RunError Unit) = given at reported
  cases reported with
  | notStarted => cases forced
  | @ended last front latest outcome length =>
    have same := length_accounts plan length
    rw [List.length_append, List.length_singleton] at latest
    obtain rfl : index = front.length := by omega
    rw [← same, List.getElem?_concat_length] at found
    cases found
    cases outcome <;> cases forced
    rfl

theorem Reported.phases (reported : plan.Reported result heard accounts) :
    (∃ failure, result = .error ⟨plan.firstPhase, failure⟩ ∧
      accounts.map (fun account => (account.phase, account.outcome)) =
        [(plan.firstPhase, some failure)]) ∨
    (∃ outcome, result = RunError.resultOf plan.secondPhase outcome ∧
      accounts.map (fun account => (account.phase, account.outcome)) =
        [(plan.firstPhase, none), (plan.secondPhase, outcome)]) := by
  cases reported with
  | @notStarted last front error length =>
    cases last with
    | false => exact .inl ⟨_, rfl, by simp [Plan.accounts, before, phase]⟩
    | true =>
      obtain ⟨received, rfl⟩ := List.length_eq_one_iff.mp length
      exact .inr ⟨some (.notStarted error), rfl, rfl⟩
  | @ended last front latest outcome length well =>
    cases last with
    | false =>
      cases outcome with
      | none => cases well rfl
      | some failure => exact .inl ⟨failure, rfl, by simp [Plan.accounts, before, phase]⟩
    | true =>
      obtain ⟨received, rfl⟩ := List.length_eq_one_iff.mp length
      exact .inr ⟨outcome, rfl, rfl⟩

theorem Reported.getLast? {error : RunError}
    (reported : plan.Reported (.error error) heard accounts) :
    (Account.narrate accounts).getLast? = some (Update.failed error) := by
  generalize failed : (.error error : Except RunError Unit) = given at reported
  cases reported with
  | notStarted =>
    cases failed
    exact Account.getLast?_narrate _ _
  | @ended last front latest outcome =>
    cases outcome <;> cases failed
    exact Account.getLast?_narrate _ _

theorem Reported.ok_iff (reported : plan.Reported result heard accounts) :
    result = .ok () ↔ ((Account.narrate accounts).map (·.event)).filter UpdateEvent.isTerminal =
      [.finished, .finished] := by
  have ends (pairs : List (Phase × Watch.Outcome))
      (same : accounts.map (fun account => (account.phase, account.outcome)) = pairs) :
      ((Account.narrate accounts).map (·.event)).filter UpdateEvent.isTerminal =
        pairs.map fun pair => (Watch.endUpdate pair.1 pair.2).event := by
    rw [Account.terminal_narrate, ← same, List.map_map]
    rfl
  rcases reported.phases with ⟨failure, rfl, phases⟩ | ⟨outcome, rfl, phases⟩
  · rw [ends _ phases]
    simp
  · rw [ends _ phases]
    rcases outcome with _ | failure
    · exact ⟨fun _ => rfl, fun _ => rfl⟩
    · cases failure <;> simp [RunError.resultOf, Watch.event_endUpdate]

end Plan

namespace Run

variable {run : Run} {result : Except RunError Unit} {index : Nat} {pool : Pool}

/-- As many components came out of the hands of workers as helm calls were made. -/
theorem received_calls {plan : Plan} {accounts : List Account} {account : Account}
    (same : run.plan = plan) (staged : run.Staged) (settled : run.Settled)
    (logged : run.site.Logged) (ended : run.stage.result? = some result)
    (reported : plan.Reported result run.site.heard accounts)
    (found : accounts[index]? = some account)
    (started : ∀ error, account.outcome ≠ some (.notStarted error))
    (stayed : account.outcome ≠ some .forceQuit) :
    account.received.length = run.site.calls.countP (·.pool == index) := by
  subst same
  obtain ⟨received, -⟩ := reported.received found started
  rw [Site.heard, List.getElem?_map, Option.map_eq_some_iff] at received
  obtain ⟨pool, here, received⟩ := received
  rcases judged_of_result staged settled ended here with
    ⟨phase, outcome, judged⟩ | ⟨phase, forced, -, latest⟩
  · have taken := congrArg List.length (logged.taken here)
    rw [List.length_map] at taken
    rw [← received, List.length_map, judged.length_received, ← taken,
      List.countP_eq_length_filter]
  · subst forced
    refine absurd (reported.given_up found ?_) stayed
    rw [Site.heard, List.length_map, latest]

/-- An observer is told of the first phase, and of the second one if and only if the first ended
well: its start, every component that came out of the hands of a worker, and its end. When the
run has returned all of that has been delivered, and nothing more ever is. -/
theorem updates_grammar (plan : Plan) (source : OverridesSource) (directory : Directory) :
    ∀ run result, Reaches step anyStep (start plan source directory true) run →
      run.stage = .over result →
      (∃ accounts : List Account, run.delivery.delivered = Account.narrate accounts ∧
        ((∃ failure, result = .error ⟨plan.firstPhase, failure⟩ ∧
          accounts.map (fun account => (account.phase, account.outcome)) =
            [(plan.firstPhase, some failure)]) ∨
        (∃ outcome, result = RunError.resultOf plan.secondPhase outcome ∧
          accounts.map (fun account => (account.phase, account.outcome)) =
            [(plan.firstPhase, none), (plan.secondPhase, outcome)])) ∧
        (∀ account ∈ accounts, (∀ update ∈ account.updates, update.phase = account.phase) ∧
          ∃ last, last.isTerminal = true ∧ (last = .finished ↔ account.outcome = none) ∧
            account.updates.map (·.event) =
              .start :: (List.replicate account.received.length .running ++ [last])) ∧
        ∀ index account, accounts[index]? = some account →
          (∀ error, account.outcome ≠ some (.notStarted error)) →
          account.outcome ≠ some .forceQuit →
          account.received.length = run.site.calls.countP (·.pool == index)) ∧
      (result = .ok () ↔
        (run.delivery.delivered.map (·.event)).filter UpdateEvent.isTerminal =
          [.finished, .finished]) ∧
      (∀ error, result = .error error → ∃ last : Update,
        run.delivery.delivered.getLast? = some last ∧ last.phase = error.phase ∧
        last.event = (match error.failure with
          | .execution _ | .notStarted _ => .executionFailure
          | .timeout => .timeoutFailure
          | .forceQuit => .forceQuitFailure) ∧
        last.error = some error.message) ∧
      ∀ later, Reaches step anyStep run later →
        later.delivery.delivered = run.delivery.delivered := by
  intro run result reached atEnd
  have narrated := narrated_of_reaches reached
  have ended : run.stage.result? = some result := by rw [atEnd, Stage.result?]
  have same := plan_of_reaches reached
  have delivered := narrated.orderly.delivered_of_done (narrated.returned result atEnd)
  have told := narrated.told
  rw [same, atEnd] at told
  obtain ⟨accounts, reported, sent⟩ := told
  rw [delivered, sent]
  refine ⟨⟨accounts, rfl, reported.phases, fun account _ => ⟨?_, ?_⟩, ?_⟩, reported.ok_iff, ?_, ?_⟩
  · exact fun update => Account.phase_updates
  · exact ⟨_, Watch.isTerminal_endUpdate _ _, Account.finished_iff account, account.events_updates⟩
  · intro index account found started stayed
    exact received_calls same (staged_of_reaches reached) (settled_of_reaches reached)
      (logged_of_reaches reached) ended reported found started stayed
  · rintro ⟨phase, failure⟩ rfl
    refine ⟨_, reported.getLast?, rfl, ?_, rfl⟩
    cases failure <;> rfl
  · intro later onward
    rw [narrated.delivered_later atEnd onward, delivered, sent]

/-- A run that is given up while a helm call is under way tells of that, and not of the end of
the call. -/
theorem updates_grammar_forced :
    let plan : Plan := {
      action := .install
      settings := {}
      list := { prerequisites := [{ name := "istio" }], components := [{ name := "dex" }] } }
    let error : RunError := ⟨.installComponents, .forceQuit⟩
    ∃ run later, Reaches step anyStep (start plan (.fresh {} none) {} true) run ∧
      run.stage = .over (.error error) ∧ Reaches step anyStep run later ∧
      run.site.underWay = 1 ∧ later.site.underWay = 0 ∧
      later.delivery.delivered = run.delivery.delivered ∧
      ∃ last : Update, run.delivery.delivered.getLast? = some last ∧
        last.event = .forceQuitFailure ∧
        last.error = some "Force quit: Kyma deployment failed due to the timeout" := by
  intro plan error
  let enter (pool : Nat) : List Label := [.work pool (.check 0), .work pool (.take 0)]
  let report (pool : Nat) : List Label := [.work pool (.finish 0 true), .work pool (.send 0)]
  let tell : List Label := [.deliver .call, .deliver .returned]
  let labels : List Label :=
    [.begin] ++ enter 0 ++ report 0 ++ [.receive] ++ enter 0 ++ [.work 0 .close, .seeEnd, .begin] ++
      enter 1 ++ [.pass, .cancelDeadline, .pass, .quitDeadline] ++ tell ++ tell ++ tell ++ tell ++
      tell ++ [.deliver .seeEnd, .deliver .drain, .conclude]
  have walked : ((walk step anyStep labels (start plan (.fresh {} none) {} true)).bind fun run =>
      (walk step anyStep (report 1) run).map fun later =>
        (run.stage, run.site.underWay, later.site.underWay)) =
      some (.over (.error error), 1, 0) := by decide +kernel
  obtain ⟨run, walked, onward⟩ := Option.bind_eq_some_iff.mp walked
  obtain ⟨later, onward, seen⟩ := Option.map_eq_some_iff.mp onward
  obtain ⟨returned, seen⟩ := Prod.mk.inj seen
  obtain ⟨busy, idle⟩ := Prod.mk.inj seen
  have reached := reaches_of_walk walked
  have behind := reaches_of_walk onward
  obtain ⟨-, -, last, still⟩ :=
    updates_grammar plan (.fresh {} none) {} run (.error error) reached returned
  obtain ⟨update, final, -, event, text⟩ := last error rfl
  refine ⟨run, later, reached, returned, behind, busy, idle, still later behind, update,
     final, event, text.trans ?_⟩
  decide +kernel

end Run

end Rollout
