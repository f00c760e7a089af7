import Rollout.Watch

/-! What watching a phase comes to, for every history. A history in which the channel is closed
by the second deadline is followed to its end; any other is given up at that deadline. -/

set_option autoImplicit false

namespace Rollout.Watch

structure History.InOrder (history : History) : Prop where
  ascending : history.arrivals.Pairwise (·.1 ≤ ·.1)
  behind : ∀ instant, history.closing = some instant →
    ∀ arrival ∈ history.arrivals, arrival.1 ≤ instant

variable {history : History} {watch : Watch}

theorem History.InOrder.tail (inOrder : history.InOrder) {first : Nat × Component}
    {rest : List (Nat × Component)} (arrivals : history.arrivals = first :: rest) :
    { history with arrivals := rest }.InOrder where
  ascending := by
    have ascending := inOrder.ascending
    rw [arrivals] at ascending
    exact ascending.tail
  behind instant closing arrival member :=
    inOrder.behind instant closing arrival (arrivals ▸ List.mem_cons_of_mem _ member)

-- While the end is still to come, what comes next is not behind it.
theorem History.InOrder.next_le (inOrder : history.InOrder) {instant : Nat}
    (closing : history.closing = some instant) :
    ∃ first, history.next = some first ∧ first ≤ instant := by
  rw [next]
  split
  · rename_i first _ _ arrivals
    exact ⟨first, rfl, inOrder.behind instant closing _ (arrivals ▸ List.mem_cons_self)⟩
  · exact ⟨instant, closing, Nat.le_refl _⟩

theorem History.comesFirst_of_next {first : Nat} (next : history.next = some first)
    (timedOut : Bool) :
    history.comesFirst timedOut = true ↔
      first ≤ history.quitDeadline ∧ (timedOut = true ∨ first ≤ history.cancelDeadline) := by
  simp [comesFirst, next]

def History.failures (arrivals : List (Nat × Component)) : Nat :=
  arrivals.countP (·.2.status == .error)

theorem noting_failed (watch : Watch) (instant : Nat) (component : Component)
    (rest : List (Nat × Component)) :
    (watch.noting component).failed + History.failures rest =
      watch.failed + History.failures ((instant, component) :: rest) := by
  by_cases error : component.status = .error
  · simp [noting, error, History.failures, Nat.add_assoc, Nat.add_comm]
  · simp [noting, error, History.failures]

@[simp] theorem noting_timedOut (watch : Watch) (component : Component) :
    (watch.noting component).timedOut = watch.timedOut := by
  rw [noting]
  split <;> rfl

@[simp] theorem noting_phase (watch : Watch) (component : Component) :
    (watch.noting component).phase = watch.phase := by
  rw [noting]
  split <;> rfl

def running (phase : Phase) (arrival : Nat × Component) : Update :=
  Update.processed phase arrival.2

/-- The watcher that has seen everything arrive, and the channel closed at an instant. -/
def atEnd (watch : Watch) (history : History) (instant : Nat) : Watch where
  phase := watch.phase
  failed := watch.failed + History.failures history.arrivals
  timedOut := watch.timedOut || decide (history.cancelDeadline < instant)

/-- The channel is closed in time: everything in it is received, and the watcher judges by that
and by the first deadline. -/
theorem follow_closed (inOrder : history.InOrder) {instant : Nat}
    (closing : history.closing = some instant) (inTime : instant ≤ history.quitDeadline) :
    follow watch history = {
      outcome := (watch.atEnd history instant).verdict
      instant := instant
      updates := history.arrivals.map (running watch.phase) ++
        [endUpdate watch.phase (watch.atEnd history instant).verdict]
      cancelled := (watch.atEnd history instant).timedOut
      gaveUp := false } := by
  fun_induction follow watch history with
  | case1 watch history first arrived component rest arrivals report ih =>
    have ended := ih (inOrder.tail arrivals) closing inTime
    have same : (watch.noting component).atEnd { history with arrivals := rest } instant =
        watch.atEnd history instant := by
      simp only [atEnd, arrivals, noting_phase, noting_timedOut,
        noting_failed watch arrived component]
    simp only [report, ended, same, arrivals, noting_phase, List.map_cons, running,
      List.cons_append]
  | case2 watch history first arrivals =>
    have next : history.next = some instant := by rw [History.next, arrivals, closing]
    obtain ⟨-, early⟩ := (History.comesFirst_of_next next _).mp first
    -- the end came before the first deadline, or that was behind the watcher already
    have same : watch.atEnd history instant = watch := by
      have timedOut : (watch.timedOut || decide (history.cancelDeadline < instant)) =
          watch.timedOut := by
        rcases early with late | early
        · simp [late]
        · simp [Nat.not_lt.mpr early]
      rw [atEnd, timedOut, arrivals]
      rfl
    simp [same, arrivals, closing]
  | case3 watch history notFirst overdue ih =>
    -- the first deadline passes before the next status, hence before the end
    obtain ⟨first, next, before⟩ := inOrder.next_le closing
    rw [History.comesFirst_of_next next] at notFirst
    simp only [Bool.and_eq_true, Bool.not_eq_true'] at overdue
    have late : history.cancelDeadline < instant :=
      Nat.lt_of_not_le fun early => notFirst ⟨by omega, .inr (by omega)⟩
    have same : watch.overdue.atEnd history instant = watch.atEnd history instant := by
      simp [atEnd, Watch.overdue, late]
    rw [ih inOrder closing inTime, same]
    rfl
  | case4 watch history notFirst notOverdue =>
    -- the watcher does not give up, for something comes by the second deadline
    obtain ⟨first, next, before⟩ := inOrder.next_le closing
    rw [History.comesFirst_of_next next] at notFirst
    cases timedOut : watch.timedOut with
    | true => exact absurd ⟨by omega, .inl timedOut⟩ notFirst
    | false =>
      simp only [timedOut, Bool.not_false, Bool.true_and, decide_eq_true_eq] at notOverdue
      exact absurd ⟨by omega, .inr (by omega)⟩ notFirst

/-- The channel is not closed in time: what arrives by the second deadline is received, and
there the watcher gives up. -/
theorem follow_abandoned (inOrder : history.InOrder)
    (leftOpen : ∀ instant, history.closing = some instant → history.quitDeadline < instant) :
    follow watch history = {
      outcome := some .forceQuit
      instant := history.quitDeadline
      updates := (history.arrivals.filter (·.1 ≤ history.quitDeadline)).map
        (running watch.phase) ++ [endUpdate watch.phase (some .forceQuit)]
      cancelled := true
      gaveUp := true } := by
  fun_induction follow watch history with
  | case1 watch history first arrived component rest arrivals report ih =>
    have next : history.next = some arrived := by rw [History.next, arrivals]
    obtain ⟨early, -⟩ := (History.comesFirst_of_next next _).mp first
    have ended := ih (inOrder.tail arrivals) leftOpen
    simp only [report, ended, arrivals, noting_phase, List.filter_cons_of_pos, early,
      decide_true, List.map_cons, running, List.cons_append]
  | case2 watch history first arrivals =>
    -- the end would have come by the second deadline
    cases closing : history.closing with
    | none => simp [History.comesFirst, History.next, arrivals, closing] at first
    | some instant =>
      have next : history.next = some instant := by rw [History.next, arrivals, closing]
      have early := ((History.comesFirst_of_next next _).mp first).1
      exact absurd (leftOpen instant closing) (Nat.not_lt.mpr early)
  | case3 watch history notFirst overdue ih => exact ih inOrder leftOpen
  | case4 watch history notFirst notOverdue =>
    -- the next status is too late, and with it all others
    have tooLate : ∀ arrival ∈ history.arrivals, history.quitDeadline < arrival.1 := by
      intro arrival member
      cases arrivals : history.arrivals with
      | nil => simp [arrivals] at member
      | cons first rest =>
        have next : history.next = some first.1 := by rw [History.next, arrivals]
        rw [History.comesFirst_of_next next] at notFirst
        have late : history.quitDeadline < first.1 := by
          cases timedOut : watch.timedOut with
          | true => exact Nat.lt_of_not_le fun early => notFirst ⟨early, .inl timedOut⟩
          | false =>
            simp only [timedOut, Bool.not_false, Bool.true_and, decide_eq_true_eq] at notOverdue
            exact Nat.lt_of_not_le fun early => notFirst ⟨early, .inr (by omega)⟩
        have ascending := inOrder.ascending
        rw [arrivals, List.pairwise_cons] at ascending
        rcases List.mem_cons.mp (arrivals ▸ member) with same | behind
        · exact same ▸ late
        · exact Nat.lt_of_lt_of_le late (ascending.1 arrival behind)
    have nothing : history.arrivals.filter (·.1 ≤ history.quitDeadline) = [] :=
      List.filter_eq_nil_iff.mpr fun arrival member =>
        mt of_decide_eq_true (Nat.not_le.mpr (tooLate arrival member))
    rw [nothing]
    rfl

/-! ## Event after event -/

/-- What a watcher comes to in a sequence of events, the last of which ends the phase. -/
def reports (watch : Watch) : List Event → Option (Outcome × List Update)
  | [] => none
  | event :: rest =>
    match watch.react event with
    | (.inl next, sent) => (reports next rest).map fun (outcome, updates) =>
      (outcome, sent ++ updates)
    | (.inr outcome, sent) => if rest.isEmpty then some (outcome, sent) else none

/-- Watching a history is reacting to one event after another. -/
theorem follow_reports (watch : Watch) (history : History) :
    ∃ events, reports watch events =
        some ((follow watch history).outcome, (follow watch history).updates) ∧
      ((follow watch history).cancelled = true ↔
        watch.timedOut = true ∨ Event.cancelDeadline ∈ events ∨ Event.quitDeadline ∈ events) ∧
      ((follow watch history).gaveUp = true ↔ Event.quitDeadline ∈ events) := by
  fun_induction follow watch history with
  | case1 watch history first arrived component rest arrivals report ih =>
    obtain ⟨events, same, cancelled, gaveUp⟩ := ih
    refine ⟨.status component :: events, ?_, ?_, ?_⟩
    · simp [reports, react, same, report]
    · simpa [report] using cancelled
    · simpa [report] using gaveUp
  | case2 watch history first arrivals => exact ⟨[.ended], by simp [reports, react]⟩
  | case3 watch history notFirst overdue ih =>
    obtain ⟨events, same, cancelled, gaveUp⟩ := ih
    refine ⟨.cancelDeadline :: events, ?_, ?_, ?_⟩
    · simp [reports, react, same]
    · simpa [Watch.overdue] using cancelled
    · simpa using gaveUp
  | case4 watch history notFirst notOverdue => exact ⟨[.quitDeadline], by simp [reports, react]⟩

/-! ## What is reported -/

def History.received (history : History) : List (Nat × Component) :=
  history.arrivals.filter (·.1 ≤ history.quitDeadline)

theorem History.InOrder.received_eq (inOrder : history.InOrder) {instant : Nat}
    (closing : history.closing = some instant) (inTime : instant ≤ history.quitDeadline) :
    history.received = history.arrivals :=
  List.filter_eq_self.mpr fun arrival member =>
    decide_eq_true (Nat.le_trans (inOrder.behind instant closing arrival member) inTime)

theorem follow_updates (inOrder : history.InOrder) (watch : Watch) :
    (follow watch history).updates = history.received.map (running watch.phase) ++
      [endUpdate watch.phase (follow watch history).outcome] := by
  cases closing : history.closing with
  | none => rw [follow_abandoned inOrder (by simp [closing])]; rfl
  | some instant =>
    rcases Nat.lt_or_ge history.quitDeadline instant with late | inTime
    · rw [follow_abandoned inOrder (by simp [closing, late])]
      rfl
    · rw [follow_closed inOrder closing inTime, inOrder.received_eq closing inTime]

theorem isTerminal_endUpdate (phase : Phase) (outcome : Outcome) :
    (endUpdate phase outcome).event.isTerminal = true := by
  rcases outcome with _ | failure
  · rfl
  · cases failure <;> rfl

theorem event_endUpdate (phase : Phase) (outcome : Outcome) :
    (endUpdate phase outcome).event = (match outcome with
      | none => .finished
      | some .timeout => .timeoutFailure
      | some .forceQuit => .forceQuitFailure
      | some _ => .executionFailure) := by
  rcases outcome with _ | failure
  · rfl
  · cases failure <;> rfl

theorem error_endUpdate (phase : Phase) (outcome : Outcome) :
    (endUpdate phase outcome).error =
      outcome.map fun failure => RunError.message ⟨phase, failure⟩ := by
  cases outcome <;> rfl

/-- Where the channel is closed by the second deadline everything in it counts, and else what
arrives by then. -/
theorem outcome_of_history (phase : Phase) (inOrder : history.InOrder) :
    let report := follow { phase := phase } history
    let received := history.received
    let failed := received.countP (·.2.status == .error)
    (∀ instant, history.closing = some instant → instant ≤ history.quitDeadline →
      report.instant = instant ∧ received = history.arrivals ∧
      report.outcome = (if 0 < failed then some (.execution failed)
        else if history.cancelDeadline < instant then some .timeout
        else none) ∧
      (report.cancelled = true ↔ history.cancelDeadline < instant) ∧
      report.gaveUp = false) ∧
    ((∀ instant, history.closing = some instant → history.quitDeadline < instant) →
      report.instant = history.quitDeadline ∧ report.outcome = some .forceQuit ∧
      report.cancelled = true ∧ report.gaveUp = true) ∧
    ∃ last : Update,
      report.updates = received.map (fun arrival => {
        phase := phase
        event := .running
        component := some {
          name := arrival.2.name
          releaseNamespace := arrival.2.releaseNamespace
          status := arrival.2.status } }) ++ [last] ∧
      last.phase = phase ∧ last.component = none ∧
      last.event.isTerminal = true ∧
      last.event = (match report.outcome with
        | none => .finished
        | some .timeout => .timeoutFailure
        | some .forceQuit => .forceQuitFailure
        | some _ => .executionFailure) ∧
      last.error = report.outcome.map fun failure => RunError.message ⟨phase, failure⟩ := by
  intro report received failed
  refine ⟨fun instant closing inTime => ?_, fun late => ?_, endUpdate phase report.outcome,
    follow_updates inOrder { phase := phase }, ?_, ?_, isTerminal_endUpdate phase report.outcome,
    event_endUpdate phase report.outcome, error_endUpdate phase report.outcome⟩
  · have all : received = history.arrivals := inOrder.received_eq closing inTime
    have counted : failed = History.failures history.arrivals := by rw [← all]; rfl
    have final : report = _ := follow_closed inOrder closing inTime
    simp only [final, counted, all, atEnd, verdict, Nat.zero_add, Bool.false_or,
      decide_eq_true_eq, and_self]
  · have final : report = _ := follow_abandoned inOrder late
    simp only [final, and_self]
  · cases report.outcome <;> rfl
  · cases report.outcome <;> rfl

/-- Statuses and the end of the channel at a deadline go before it, and one that is left open is
given up. -/
theorem outcome_of_history_ties :
    let component (name : String) (status : Status) : Component :=
      { name := name, releaseNamespace := "kyma-system", chart := name, status := status }
    let closed : History := {
      arrivals := [(4, component "istio" .installed), (4, component "dex" .error),
        (9, component "ory" .installed)]
      closing := some 9
      cancelDeadline := 4
      quitDeadline := 9 }
    let left : History := { closed with closing := some 10, quitDeadline := 7 }
    closed.InOrder ∧ left.InOrder ∧
      (follow { phase := .installComponents } closed).outcome = some (.execution 1) ∧
      (follow { phase := .installComponents } closed).cancelled = true ∧
      (follow { phase := .installComponents } left).outcome = some .forceQuit ∧
      (follow { phase := .installComponents } left).updates.length = 3 := by
  intro component closed left
  have ordered : closed.InOrder := by
    refine ⟨by decide, fun instant same => ?_⟩
    cases same
    decide
  have leftOrdered : left.InOrder := by
    refine ⟨by decide, fun instant same => ?_⟩
    cases same
    decide
  obtain ⟨inTime, -, -⟩ := outcome_of_history .installComponents ordered
  obtain ⟨-, -, outcome, cancelled, -⟩ := inTime 9 rfl (by decide)
  obtain ⟨-, late, last, updates, -⟩ := outcome_of_history .installComponents leftOrdered
  obtain ⟨-, leftOutcome, -⟩ := late fun instant same => by cases same; decide
  refine ⟨ordered, leftOrdered, outcome, cancelled.mpr (by decide), leftOutcome, ?_⟩
  rw [updates]
  rfl

end Rollout.Watch
