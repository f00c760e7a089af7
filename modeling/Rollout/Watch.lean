import Rollout.Update

/-! Watching a phase until it ends.

The watcher receives the statuses of components until their channel is closed. At one
deadline it gives the cancel signal and goes on, at another it gives up. Statuses and the end
of the channel go before deadlines, and the first deadline before the second. -/

set_option autoImplicit false

namespace Rollout

structure Watch where
  phase : Phase
  /-- How many components have failed. -/
  failed : Nat := 0
  /-- Whether the first deadline has passed. -/
  timedOut : Bool := false
  deriving DecidableEq, Repr

namespace Watch

inductive Event where
  | status (component : Component)
  /-- The channel is closed, and nothing is left in it. -/
  | ended
  | cancelDeadline
  | quitDeadline
  deriving DecidableEq, Repr

/-- How a phase ended: in a failure, or else well. -/
abbrev Outcome := Option PhaseFailure

def endUpdate (phase : Phase) : Outcome → Update
  | none => { phase := phase, event := .finished }
  | some failure => Update.failed ⟨phase, failure⟩

/-- How the phase ended, if the channel was closed now. -/
def verdict (watch : Watch) : Outcome :=
  if 0 < watch.failed then some (.execution watch.failed)
  else if watch.timedOut then some .timeout
  else none

def noting (watch : Watch) (component : Component) : Watch :=
  if component.status = .error then { watch with failed := watch.failed + 1 } else watch

def overdue (watch : Watch) : Watch :=
  { watch with timedOut := true }

/-- The watcher after an event, or the end of the phase, and the update that it sends. -/
def react (watch : Watch) : Event → (Watch ⊕ Outcome) × List Update
  | .status component =>
    (.inl (watch.noting component), [Update.processed watch.phase component])
  | .ended => (.inr watch.verdict, [endUpdate watch.phase watch.verdict])
  | .cancelDeadline => (.inl watch.overdue, [])
  | .quitDeadline => (.inr (some .forceQuit), [endUpdate watch.phase (some .forceQuit)])

/-- What happens while a phase is watched: statuses with the instants at which they arrive,
in order, the instant at which the channel is closed behind them, if it ever is, and the two
deadlines. -/
structure History where
  arrivals : List (Nat × Component)
  closing : Option Nat
  cancelDeadline : Nat
  quitDeadline : Nat
  deriving DecidableEq, Repr

structure Report where
  outcome : Outcome
  /-- The instant at which it ended. -/
  instant : Nat
  updates : List Update
  /-- Whether the cancel signal was given. -/
  cancelled : Bool
  /-- Whether the receiver went away before the channel was closed. -/
  gaveUp : Bool
  deriving DecidableEq, Repr

def History.next (history : History) : Option Nat :=
  match history.arrivals with
  | (instant, _) :: _ => some instant
  | [] => history.closing

/-- Whether something comes out of the channel before the next deadline is looked at. -/
def History.comesFirst (history : History) (timedOut : Bool) : Bool :=
  history.next.any fun instant =>
    instant ≤ history.quitDeadline && (timedOut || instant ≤ history.cancelDeadline)

def follow (watch : Watch) (history : History) : Report :=
  if history.comesFirst watch.timedOut then
    match _h : history.arrivals with
    | (_, component) :: rest =>
      let report := follow (watch.noting component) { history with arrivals := rest }
      { report with updates := Update.processed watch.phase component :: report.updates }
    | [] => {
        outcome := watch.verdict
        instant := history.closing.getD 0
        updates := [endUpdate watch.phase watch.verdict]
        cancelled := watch.timedOut
        gaveUp := false }
  else if !watch.timedOut && history.cancelDeadline ≤ history.quitDeadline then
    follow watch.overdue history
  else {
    outcome := some .forceQuit
    instant := history.quitDeadline
    updates := [endUpdate watch.phase (some .forceQuit)]
    cancelled := true
    gaveUp := true }
termination_by (history.arrivals.length, if watch.timedOut then 0 else 1)
decreasing_by
  · simp [Prod.lex_def, _h]
  · rename_i h
    simp only [Bool.and_eq_true, Bool.not_eq_true'] at h
    simp [Prod.lex_def, h.1, overdue]

/-- The history in which statuses wait at the start, and others come in answer to the cancel
signal, a moment later. The channel is closed behind the first where `closed` holds, and
behind the others unless `leftOpen` does. -/
def History.answering (waiting : List Component) (closed : Bool)
    (answer : Option (List Component)) (leftOpen : Bool) (cancelDeadline quitDeadline : Nat) :
    History where
  arrivals := waiting.map ((0, ·)) ++
    (answer.getD []).map ((cancelDeadline + 1, ·))
  closing :=
    if closed then some 0
    else if answer.isSome && !leftOpen then some (cancelDeadline + 1)
    else none
  cancelDeadline := cancelDeadline
  quitDeadline := quitDeadline

end Watch

end Rollout
