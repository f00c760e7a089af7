import Rollout.Handover
import Rollout.Proofs.Delivery.Order
import Rollout.Proofs.Run.Weight
import Rollout.Proofs.Signal

/-! Who closes the queue waits for a signal that is given behind the last update. It is woken
however the two tasks take turns, and then the observer has been called with everything. -/

set_option autoImplicit false

namespace Rollout

namespace Signal

variable {signal next : Signal} {label : Label} {i : Nat}

def weight (signal : Signal) : Nat :=
  signal.halfway + (signal.listeners.map fun listener => 4 - listener.stage).sum

theorem weight_move {listener : Listener} (there : signal.listeners[i]? = some listener)
    {after : Listener} (further : listener.stage < after.stage) :
    (signal.move i after).weight < signal.weight := by
  have bound : after.stage ≤ 4 := by cases after <;> simp [Listener.stage]
  have same := sum_set (fun listener => 4 - listener.stage) there after
  simp only [weight, move]
  omega

theorem weight_set (signal : Signal) (stepped : signal.step .set = some next) :
    next.weight ≤ signal.weight + 1 := by
  cases stepped
  simp only [weight]
  split <;> omega

theorem weight_wake (stepped : signal.step .wake = some next) : next.weight < signal.weight := by
  cases move_of_step stepped with
  | wake owed =>
    have same : (signal.listeners.map Listener.wake).map (fun listener => 4 - listener.stage) =
        signal.listeners.map fun listener => 4 - listener.stage := by
      rw [List.map_map]
      exact List.map_congr_left fun listener _ => congrArg (4 - ·) listener.stage_wake
    simp only [weight, owed, same]
    omega

-- The steps of a task that waits take it further.
theorem weight_wait (own : Handover.isWait label = true) (stepped : signal.step label = some next) :
    next.weight < signal.weight := by
  cases move_of_step stepped with
  | listen | set | wake => cases own
  | look there => exact weight_move there (by split <;> simp [Listener.stage])
  | register there => exact weight_move there (by simp [Listener.stage])
  | lookAgain there => exact weight_move there (by split <;> simp [Listener.stage])
  | awake there => exact weight_move there (by simp [Listener.stage])

end Signal

namespace Handover

inductive Move (handover : Handover) : Label → Handover → Prop where
  | send {update : Update} : handover.delivery.closed = false →
      Move handover (.send update) { handover with delivery := handover.delivery.send update }
  | close {signal : Signal} : handover.delivery.closed = false →
      handover.signal.step .listen = some signal →
      Move handover .close { handover with delivery := handover.delivery.close, signal := signal }
  | wait {label : Signal.Label} {signal : Signal} : isWait label = true →
      handover.signal.step label = some signal →
      Move handover (.wait label) { handover with signal := signal }
  | receive : handover.delivery.forwarder = .receiving → handover.delivery.queue ≠ [] →
      handover.holding = false → Move handover .receive { handover with holding := true }
  | call {delivery : Delivery} : handover.holding = true →
      handover.delivery.step .call = some delivery →
      Move handover .call { handover with delivery := delivery, holding := false }
  | returned {delivery : Delivery} : handover.delivery.step .returned = some delivery →
      Move handover .returned { handover with delivery := delivery }
  | seeEnd {delivery : Delivery} : handover.delivery.step .seeEnd = some delivery →
      Move handover .seeEnd { handover with delivery := delivery }
  | set {delivery : Delivery} {signal : Signal} : handover.delivery.step .drain = some delivery →
      handover.signal.step .set = some signal →
      Move handover .set { handover with delivery := delivery, signal := signal }
  | wake {signal : Signal} : handover.signal.step .wake = some signal →
      Move handover .wake { handover with signal := signal }

variable {handover next later : Handover} {label : Label} {labels : List Label}
  {guard : Handover → Label → Bool}

theorem move_of_step (stepped : handover.step label = some next) : Move handover label next := by
  cases label with
  | send update =>
    simp only [step] at stepped
    split at stepped <;> cases stepped
    exact .send (Bool.not_eq_true _ ▸ ‹¬_›)
  | close =>
    simp only [step] at stepped
    split at stepped <;> cases stepped
    exact .close (Bool.not_eq_true _ ▸ ‹¬_›) rfl
  | wait label =>
    simp only [step] at stepped
    split at stepped
    · obtain ⟨signal, moved, same⟩ := Option.bind_eq_some_iff.mp stepped
      cases same
      exact .wait ‹_› moved
    · cases stepped
  | receive =>
    simp only [step] at stepped
    split at stepped <;> cases stepped
    rename_i receiving waiting empty
    exact .receive receiving (by simp [waiting]) empty
  | call =>
    simp only [step] at stepped
    split at stepped
    · obtain ⟨delivery, moved, same⟩ := Option.bind_eq_some_iff.mp stepped
      cases same
      exact .call ‹_› moved
    · cases stepped
  | returned =>
    obtain ⟨delivery, moved, same⟩ := Option.bind_eq_some_iff.mp stepped
    cases same
    exact .returned moved
  | seeEnd =>
    obtain ⟨delivery, moved, same⟩ := Option.bind_eq_some_iff.mp stepped
    cases same
    exact .seeEnd moved
  | set =>
    obtain ⟨delivery, moved, rest⟩ := Option.bind_eq_some_iff.mp stepped
    obtain ⟨signal, given, same⟩ := Option.bind_eq_some_iff.mp rest
    cases same
    exact .set moved given
  | wake =>
    obtain ⟨signal, woken, same⟩ := Option.bind_eq_some_iff.mp stepped
    cases same
    exact .wake woken

theorem step_of_move (move : Move handover label next) : handover.step label = some next := by
  cases move with
  | send opened => simp [step, opened]
  | close opened listened => simp [step, opened, listened]
  | wait own moved => simp [step, own, moved]
  | receive receiving waiting empty =>
    obtain ⟨update, rest, queue⟩ := List.exists_cons_of_ne_nil waiting
    simp [step, receiving, queue, empty]
  | call held moved => simp [step, held, moved]
  | returned moved | seeEnd moved => simp [step, moved]
  | set moved given => simp [step, moved, given]
  | wake woken => simp [step, woken]

/-! ## What holds at any time -/

structure Sound (handover : Handover) : Prop where
  orderly : handover.delivery.Orderly
  signal : handover.signal.Sound
  flag : handover.signal.flag = handover.delivery.drained
  /-- Only the task that has closed the queue waits. -/
  listeners : handover.signal.listeners.length = handover.delivery.closed.toNat
  /-- Without an observer nobody has to be woken. -/
  unobserved : handover.delivery.observed = false → handover.signal.Given

theorem sound_start (observed : Bool) : (start observed).Sound := by
  cases observed with
  | true => exact ⟨Delivery.orderly_start true, Signal.sound_start, rfl, rfl, Bool.noConfusion⟩
  | false =>
    have kept : (Signal.notify {}).Sound :=
      (Signal.sound_start.step (Signal.step_of_move .set)).step (Signal.step_of_move (.wake rfl))
    exact ⟨Delivery.orderly_start false, kept, rfl, rfl, fun _ => ⟨rfl, rfl⟩⟩

theorem Sound.step (sound : handover.Sound) (stepped : handover.step label = some next) :
    next.Sound := by
  obtain ⟨orderly, signal, flag, listeners, unobserved⟩ := sound
  cases move_of_step stepped with
  | @send update =>
    obtain ⟨closed, observed, drained⟩ := Delivery.send_frame handover.delivery update
    exact ⟨orderly.send update, signal, flag.trans drained.symm, by rw [listeners, closed],
      observed ▸ unobserved⟩
  | close opened listened =>
    refine ⟨orderly.close, signal.step listened, ?_, ?_,
      fun none => (unobserved none).step listened⟩
    · rw [Signal.flag_of_step listened Signal.Label.noConfusion, flag]
      rfl
    · rw [Signal.length_step listened, listeners, opened]
      rfl
  | @wait label _ own moved =>
    have others : label ≠ .listen ∧ label ≠ .set := by
      constructor <;> rintro rfl <;> cases own
    refine ⟨orderly, signal.step moved, ?_, ?_, fun none => (unobserved none).step moved⟩
    · rw [Signal.flag_of_step moved others.2, flag]
    · rw [Signal.length_step moved, listeners, if_neg others.1]
      rfl
  | receive => exact ⟨orderly, signal, flag, listeners, unobserved⟩
  | call _ moved | returned moved | seeEnd moved =>
    obtain ⟨-, closed, observed⟩ := Delivery.step_frame moved
    have drained := Delivery.drained_of_step moved Delivery.Label.noConfusion
    exact ⟨orderly.step moved, signal, flag.trans drained.symm, by rw [listeners, closed],
      observed ▸ unobserved⟩
  | set moved given =>
    obtain ⟨-, closed, observed⟩ := Delivery.step_frame moved
    refine ⟨orderly.step moved, signal.step given, ?_, ?_,
      fun none => (unobserved (observed ▸ none)).step given⟩
    · cases Delivery.move_of_step moved
      exact (Signal.flag_step given).mpr (.inr rfl)
    · rw [Signal.length_step given, listeners, closed]
      rfl
  | wake woken =>
    refine ⟨orderly, signal.step woken, ?_, ?_, fun none => (unobserved none).step woken⟩
    · rw [Signal.flag_of_step woken Signal.Label.noConfusion, flag]
    · rw [Signal.length_step woken, listeners]
      rfl

theorem sound_of_reaches {observed : Bool}
    (reached : Reaches step guard (start observed) handover) : handover.Sound :=
  reached.invariant Sound (sound_start observed) fun sound _ stepped => sound.step stepped

def sentBy : Label → Option Update
  | .send update => some update
  | _ => none

theorem observed_step (stepped : handover.step label = some next) :
    next.delivery.observed = handover.delivery.observed := by
  cases move_of_step stepped with
  | send => exact (Delivery.send_frame _ _).2.1
  | call _ moved | returned moved | seeEnd moved | set moved =>
    exact (Delivery.step_frame moved).2.2
  | close | wait | receive | wake => rfl

-- Without an observer, nothing is kept of what is sent.
theorem sent_step (stepped : handover.step label = some next) :
    next.delivery.sent = handover.delivery.sent ++
      if handover.delivery.observed then (sentBy label).toList else [] := by
  cases move_of_step stepped with
  | @send update opened =>
    simp only [Delivery.send, opened, sentBy, Option.toList_some]
    cases handover.delivery.observed <;> simp
  | call _ moved | returned moved | seeEnd moved | set moved =>
    rw [(Delivery.step_frame moved).1]
    simp [sentBy]
  | close | wait | receive | wake => simp [sentBy, Delivery.close]

theorem sent_walk (walked : walk step guard labels handover = some later) :
    later.delivery.sent = handover.delivery.sent ++
      if handover.delivery.observed then labels.filterMap sentBy else [] := by
  induction labels generalizing handover with
  | nil =>
    cases walked
    simp
  | cons label rest ih =>
    obtain ⟨next, -, stepped, walked⟩ := walk_cons walked
    rw [ih walked, observed_step stepped, sent_step stepped, List.append_assoc,
      List.filterMap_cons]
    cases handover.delivery.observed <;> cases sentBy label <;> simp

theorem sent_of_walk {observed : Bool}
    (walked : walk step guard labels (start observed) = some handover) :
    handover.delivery.sent = if observed then labels.filterMap sentBy else [] := by
  rw [sent_walk walked]
  cases observed <;> rfl

theorem observed_of_reaches {observed : Bool}
    (reached : Reaches step guard (start observed) handover) :
    handover.delivery.observed = observed :=
  reached.invariant (·.delivery.observed = observed) (by cases observed <;> rfl)
    fun same _ stepped => (observed_step stepped).trans same

/-! ## The end -/

def weight (handover : Handover) : Nat :=
  2 * handover.delivery.weight + (!handover.holding).toNat + handover.signal.weight

theorem closed_step (closed : handover.delivery.closed = true)
    (stepped : handover.step label = some next) : next.delivery.closed = true := by
  cases move_of_step stepped with
  | send opened | close opened =>
    rw [closed] at opened
    cases opened
  | call _ moved | returned moved | seeEnd moved | set moved =>
    rw [(Delivery.step_frame moved).2.1, closed]
  | wait | receive | wake => exact closed

/-- Behind the closing of the queue every step leaves less to do. -/
theorem weight_step (closed : handover.delivery.closed = true)
    (stepped : handover.step label = some next) : next.weight < handover.weight := by
  cases move_of_step stepped with
  | send opened | close opened =>
    rw [closed] at opened
    cases opened
  | wait own moved =>
    have less := Signal.weight_wait own moved
    simp only [weight]
    omega
  | receive _ _ empty => simp [weight, empty]
  | call held moved =>
    have less := Delivery.weight_step moved
    simp only [weight, held, Bool.not_true, Bool.not_false, Bool.toNat_true, Bool.toNat_false]
    omega
  | returned moved | seeEnd moved =>
    have less := Delivery.weight_step moved
    simp only [weight]
    omega
  | set moved given =>
    have less := Delivery.weight_step moved
    have owed := Signal.weight_set _ given
    simp only [weight]
    omega
  | wake woken =>
    have less := Signal.weight_wake woken
    simp only [weight]
    omega

theorem length_walk (closed : handover.delivery.closed = true)
    (walked : walk step guard labels handover = some later) :
    labels.length + later.weight ≤ handover.weight := by
  induction labels generalizing handover with
  | nil =>
    cases walked
    simp
  | cons label rest ih =>
    obtain ⟨next, -, stepped, walked⟩ := walk_cons walked
    have less := weight_step closed stepped
    have others := ih (closed_step closed stepped) walked
    rw [List.length_cons]
    omega

theorem Sound.listener (sound : handover.Sound) (closed : handover.delivery.closed = true) :
    ∃ listener, handover.signal.listeners[0]? = some listener := by
  have bound : 0 < handover.signal.listeners.length := by
    rw [sound.listeners, closed]
    exact Nat.one_pos
  exact ⟨_, List.getElem?_eq_getElem bound⟩

theorem isWait_nextLabel (k : Nat) : isWait (Signal.nextLabel 0 k) = true := by
  unfold Signal.nextLabel
  split <;> rfl

/-- Who has closed the queue and still waits, or the forwarding task, has something to do. -/
theorem Sound.exists_step (sound : handover.Sound) (closed : handover.delivery.closed = true)
    (waiting : handover.hasReturned = false) : ∃ label next, handover.step label = some next := by
  cases there : handover.delivery.forwarder with
  | receiving =>
    cases queue : handover.delivery.queue with
    | nil =>
      have moved := Delivery.step_of_move (.seeEnd there queue closed)
      exact ⟨_, _, step_of_move (.seeEnd moved)⟩
    | cons update rest =>
      cases held : handover.holding with
      | true =>
        have moved := Delivery.step_of_move (.call there queue)
        exact ⟨_, _, step_of_move (.call held moved)⟩
      | false => exact ⟨_, _, step_of_move (.receive there (by simp [queue]) held)⟩
  | calling =>
    have moved := Delivery.step_of_move (.returned there)
    exact ⟨_, _, step_of_move (.returned moved)⟩
  | leaving =>
    have moved := Delivery.step_of_move (.drain there)
    exact ⟨_, _, step_of_move (.set moved (Signal.step_of_move .set))⟩
  | gone =>
    have flag : handover.signal.flag = true :=
      sound.flag.trans (sound.orderly.drained.mpr there)
    cases owed : handover.signal.halfway with
    | succ n => exact ⟨_, _, step_of_move (.wake (Signal.step_of_move (.wake owed)))⟩
    | zero =>
      obtain ⟨listener, found⟩ := sound.listener closed
      have unfinished : listener ≠ .finished := by
        rintro rfl
        simp [hasReturned, found] at waiting
      obtain ⟨signal, moved⟩ := sound.signal.exists_wait ⟨flag, owed⟩ found unfinished
      exact ⟨_, _, step_of_move (.wait (isWait_nextLabel _) moved)⟩

theorem Sound.ready (sound : handover.Sound) (closed : handover.delivery.closed = true)
    (unobserved : handover.delivery.observed = false) (waiting : handover.hasReturned = false) :
    (handover.signal.poll 0).2 = .ready := by
  obtain ⟨listener, found⟩ := sound.listener closed
  obtain ⟨bound, -⟩ := List.getElem?_eq_some_iff.mp found
  refine (sound.unobserved unobserved).ready sound.signal bound fun finished => ?_
  rw [hasReturned, finished] at waiting
  cases waiting

theorem Sound.isDone (sound : handover.Sound) (returned : handover.hasReturned = true) :
    handover.delivery.isDone = true := by
  have there : handover.signal.listeners[0]? = some .finished := by
    simpa [hasReturned] using returned
  have flag : handover.signal.flag = true := sound.signal.found there
  have closed : handover.delivery.closed = true := by
    obtain ⟨bound, -⟩ := List.getElem?_eq_some_iff.mp there
    rw [sound.listeners] at bound
    cases closed : handover.delivery.closed with
    | true => rfl
    | false => simp [closed] at bound
  rw [Delivery.isDone, closed, ← sound.flag, flag]
  rfl

theorem Sound.returned_step (sound : handover.Sound) (returned : handover.hasReturned = true)
    (stepped : handover.step label = some next) :
    next.hasReturned = true ∧ next.delivery = handover.delivery := by
  have there : handover.signal.listeners[0]? = some .finished := by
    simpa [hasReturned] using returned
  have done := sound.isDone returned
  have closed : handover.delivery.closed = true := (Bool.and_eq_true _ _ ▸ done).1
  have kept {label : Signal.Label} {signal : Signal}
      (moved : handover.signal.step label = some signal) :
      (signal.listeners[0]? == some .finished) = true := by
    obtain ⟨after, found, further⟩ := Signal.listener_step there moved
    cases after with
    | finished => simp [found]
    | _ => simp [Listener.stage] at further
  cases move_of_step stepped with
  | send opened | close opened =>
    rw [closed] at opened
    cases opened
  | wait _ moved | wake moved => exact ⟨kept moved, rfl⟩
  | receive => exact ⟨returned, rfl⟩
  | call _ moved | returned moved | seeEnd moved | set moved =>
    rw [sound.orderly.still done] at moved
    cases moved

end Handover

end Rollout
