import Rollout.Proofs.Reachability
import Rollout.Signal

/-! No task sleeps through a signal: whoever waits looks at the flag once more behind having
registered, and whoever gives the signal sets the flag before it wakes those registered. -/

set_option autoImplicit false

namespace Rollout

/-- How many of its steps a waiting task has behind it. -/
def Listener.stage : Listener → Nat
  | .fresh => 0
  | .missed => 1
  | .registered _ => 2
  | .waiting _ => 3
  | .finished => 4

/-- What a waiting task can have come to, by whether the flag is set and by how many tasks still
have to wake the others. -/
def Listener.Fits (flag : Bool) (halfway : Nat) : Listener → Prop
  | .finished | .registered true | .waiting true => flag = true
  | .waiting false => flag = true → 0 < halfway
  | .fresh | .missed | .registered false => True

theorem Listener.stage_wake (listener : Listener) : listener.wake.stage = listener.stage := by
  cases listener <;> rfl

namespace Signal

inductive Move (signal : Signal) : Label → Signal → Prop where
  | listen : Move signal .listen { signal with listeners := signal.listeners ++ [.fresh] }
  | look {i : Nat} : signal.listeners[i]? = some .fresh →
      Move signal (.look i) (signal.move i (if signal.flag then .finished else .missed))
  | register {i : Nat} : signal.listeners[i]? = some .missed →
      Move signal (.register i) (signal.move i (.registered false))
  | lookAgain {i : Nat} {woken : Bool} : signal.listeners[i]? = some (.registered woken) →
      Move signal (.lookAgain i)
        (signal.move i (if signal.flag then .finished else .waiting woken))
  | awake {i : Nat} : signal.listeners[i]? = some (.waiting true) →
      Move signal (.awake i) (signal.move i .finished)
  | set : Move signal .set { signal with
      flag := true
      halfway := if signal.flag then signal.halfway else signal.halfway + 1 }
  | wake {n : Nat} : signal.halfway = n + 1 →
      Move signal .wake { signal with
        halfway := n, listeners := signal.listeners.map Listener.wake }

variable {signal next later : Signal} {label : Label} {labels : List Label} {i k : Nat}
  {guard : Signal → Label → Bool}

theorem move_of_step (stepped : signal.step label = some next) : Move signal label next := by
  cases label with
  | listen =>
    cases stepped
    exact .listen
  | look i =>
    simp only [step] at stepped
    split at stepped <;> cases stepped
    exact .look ‹_›
  | register i =>
    simp only [step] at stepped
    split at stepped <;> cases stepped
    exact .register ‹_›
  | lookAgain i =>
    simp only [step] at stepped
    split at stepped <;> cases stepped
    exact .lookAgain ‹_›
  | awake i =>
    simp only [step] at stepped
    split at stepped <;> cases stepped
    exact .awake ‹_›
  | set =>
    cases stepped
    exact .set
  | wake =>
    simp only [step] at stepped
    split at stepped <;> cases stepped
    exact .wake ‹_›

theorem step_of_move (move : Move signal label next) : signal.step label = some next := by
  cases move with
  | listen | set => rfl
  | look there | register there | lookAgain there | awake there => simp [step, there]
  | wake owed => simp [step, owed]

/-! ## What holds at any time -/

structure Sound (signal : Signal) : Prop where
  /-- Only the task that has changed the flag wakes the others. -/
  halfway : signal.halfway ≤ signal.flag.toNat
  fits : ∀ listener ∈ signal.listeners, listener.Fits signal.flag signal.halfway

theorem sound_start : Sound {} :=
  ⟨Nat.le_refl _, fun _ member => absurd member List.not_mem_nil⟩

theorem Sound.found (sound : signal.Sound) {listener : Listener}
    (found : signal.listeners[i]? = some listener) :
    listener.Fits signal.flag signal.halfway :=
  sound.fits listener (List.mem_of_getElem? found)

theorem Sound.move (sound : signal.Sound) {listener : Listener}
    (fits : listener.Fits signal.flag signal.halfway) : (signal.move i listener).Sound where
  halfway := sound.halfway
  fits other member := by
    rcases List.mem_or_eq_of_mem_set member with old | rfl
    · exact sound.fits other old
    · exact fits

theorem Sound.step (sound : signal.Sound) (stepped : signal.step label = some next) :
    next.Sound := by
  cases move_of_step stepped with
  | listen =>
    refine ⟨sound.halfway, fun listener member => ?_⟩
    rcases List.mem_append.mp member with old | new
    · exact sound.fits listener old
    · rw [List.mem_singleton.mp new]
      trivial
  | look there =>
    refine sound.move ?_
    split
    · assumption
    · trivial
  | register there => exact sound.move trivial
  | @lookAgain i woken there =>
    refine sound.move ?_
    split
    · assumption
    · rename_i missed
      -- who falls asleep has seen that the flag is not set
      cases woken with
      | true =>
        have set : signal.flag = true := sound.found there
        exact absurd set missed
      | false => exact fun set => absurd set missed
  | awake there =>
    have set : signal.flag = true := sound.found there
    exact sound.move set
  | set =>
    have owed := sound.halfway
    refine ⟨?_, fun listener member => ?_⟩
    · cases flag : signal.flag <;> simp_all
    · have fits := sound.fits listener member
      cases flag : signal.flag with
      | true =>
        rw [flag] at fits
        exact fits
      | false =>
        cases listener with
        | waiting woken => cases woken <;> simp [Listener.Fits]
        | registered woken => cases woken <;> simp [Listener.Fits]
        | _ => simp [Listener.Fits]
  | @wake n owed =>
    have bound := sound.halfway
    have flag : signal.flag = true := by
      cases flag : signal.flag
      · rw [flag, owed] at bound
        cases bound
      · rfl
    refine ⟨by simp only; omega, fun listener member => ?_⟩
    obtain ⟨old, -, rfl⟩ := List.mem_map.mp member
    cases old <;> simp [Listener.wake, Listener.Fits, flag]

theorem sound_of_reaches (reached : Reaches step guard {} signal) : signal.Sound :=
  reached.invariant Sound sound_start fun sound _ stepped => sound.step stepped

theorem flag_step (stepped : signal.step label = some next) :
    next.flag = true ↔ signal.flag = true ∨ label = .set := by
  cases move_of_step stepped <;> simp [Signal.move]

theorem flag_of_step (stepped : signal.step label = some next) (other : label ≠ .set) :
    next.flag = signal.flag := by
  rw [Bool.eq_iff_iff, flag_step stepped]
  simp [other]

theorem length_step (stepped : signal.step label = some next) :
    next.listeners.length = signal.listeners.length + if label = .listen then 1 else 0 := by
  cases move_of_step stepped <;> simp [Signal.move]

theorem halfway_step (stepped : signal.step label = some next) :
    next.halfway + (if label = .wake then 1 else 0) + signal.flag.toNat =
      signal.halfway + next.flag.toNat := by
  cases move_of_step stepped with
  | listen | look | register | lookAgain | awake => simp [Signal.move]
  | set => cases flag : signal.flag <;> simp
  | wake owed => simp [owed]

theorem flag_walk (walked : walk step guard labels signal = some later) :
    later.flag = true ↔ signal.flag = true ∨ .set ∈ labels := by
  induction labels generalizing signal with
  | nil =>
    cases walked
    simp
  | cons label rest ih =>
    obtain ⟨next, -, stepped, walked⟩ := walk_cons walked
    rw [ih walked, flag_step stepped, List.mem_cons, or_assoc, eq_comm (a := label)]

theorem halfway_walk (walked : walk step guard labels signal = some later) :
    later.halfway + labels.count .wake + signal.flag.toNat =
      signal.halfway + later.flag.toNat := by
  induction labels generalizing signal with
  | nil =>
    cases walked
    simp
  | cons label rest ih =>
    obtain ⟨next, -, stepped, walked⟩ := walk_cons walked
    have first := halfway_step stepped
    have later := ih walked
    rw [List.count_cons]
    simp only [beq_iff_eq]
    omega

/-! ## A signal that has been given -/

structure Given (signal : Signal) : Prop where
  flag : signal.flag = true
  halfway : signal.halfway = 0

theorem Given.step (given : signal.Given) (stepped : signal.step label = some next) :
    next.Given := by
  have flag : next.flag = true := (flag_step stepped).mpr (.inl given.flag)
  have owed := halfway_step stepped
  rw [flag, given.flag, given.halfway] at owed
  exact ⟨flag, by omega⟩

theorem given_iff_wake (walked : walk step guard labels {} = some signal) :
    signal.Given ↔ .wake ∈ labels := by
  have owed := halfway_walk walked
  rw [← List.count_pos_iff]
  constructor
  · rintro ⟨flag, halfway⟩
    rw [flag, halfway] at owed
    simp at owed
    omega
  · intro woken
    cases flag : signal.flag with
    | false =>
      rw [flag] at owed
      simp at owed
      omega
    | true =>
      rw [flag] at owed
      simp at owed
      exact ⟨flag, by omega⟩

theorem perform_append (signal : Signal) (front rest : List Label) :
    signal.perform (front ++ rest) = (signal.perform front).perform rest :=
  List.foldl_append

theorem walk_perform (signal : Signal) (labels : List Label) :
    ∃ taken, taken.Sublist labels ∧
      walk step anyStep taken signal = some (signal.perform labels) := by
  induction labels generalizing signal with
  | nil => exact ⟨[], .slnil, rfl⟩
  | cons label rest ih =>
    cases stepped : signal.step label with
    | none =>
      obtain ⟨taken, listed, walked⟩ := ih signal
      refine ⟨taken, listed.cons label, ?_⟩
      rw [walked, perform, perform, List.foldl_cons, stepped, Option.getD_none]
    | some next =>
      obtain ⟨taken, listed, walked⟩ := ih next
      have counted : anyStep signal label = true := rfl
      refine ⟨label :: taken, listed.cons_cons label, ?_⟩
      rw [walk, if_pos counted, stepped, Option.bind_some, walked, perform, perform,
        List.foldl_cons, stepped, Option.getD_some]

theorem listener_step {listener : Listener} (there : signal.listeners[i]? = some listener)
    (stepped : signal.step label = some next) :
    ∃ after, next.listeners[i]? = some after ∧ listener.stage ≤ after.stage := by
  have moved {j : Nat} {before after : Listener} (found : signal.listeners[j]? = some before)
      (further : before.stage ≤ after.stage) :
      ∃ last, (signal.move j after).listeners[i]? = some last ∧ listener.stage ≤ last.stage := by
    rw [Signal.move, List.getElem?_set]
    split
    · rename_i same
      subst same
      obtain ⟨bound, -⟩ := List.getElem?_eq_some_iff.mp found
      cases found.symm.trans there
      exact ⟨after, by rw [if_pos bound], further⟩
    · exact ⟨listener, there, Nat.le_refl _⟩
  cases move_of_step stepped with
  | listen =>
    obtain ⟨bound, -⟩ := List.getElem?_eq_some_iff.mp there
    exact ⟨listener, (List.getElem?_append_left bound).trans there, Nat.le_refl _⟩
  | look found => exact moved found (by split <;> simp [Listener.stage])
  | register found => exact moved found (by simp [Listener.stage])
  | lookAgain found => exact moved found (by split <;> simp [Listener.stage])
  | awake found => exact moved found (by simp [Listener.stage])
  | set => exact ⟨listener, there, Nat.le_refl _⟩
  | wake =>
    refine ⟨listener.wake, ?_, Nat.le_of_eq listener.stage_wake.symm⟩
    rw [List.getElem?_map, there, Option.map_some]

structure Along (i k : Nat) (signal : Signal) : Prop where
  sound : signal.Sound
  given : signal.Given
  listener : ∃ listener, signal.listeners[i]? = some listener ∧ k ≤ listener.stage

theorem Along.step (along : signal.Along i k) (stepped : signal.step label = some next) :
    next.Along i k := by
  obtain ⟨sound, given, listener, there, behind⟩ := along
  obtain ⟨after, there, further⟩ := listener_step there stepped
  exact ⟨sound.step stepped, given.step stepped, after, there, Nat.le_trans behind further⟩

theorem Along.perform (along : signal.Along i k) (labels : List Label) :
    (signal.perform labels).Along i k := by
  obtain ⟨taken, -, walked⟩ := walk_perform signal labels
  exact (reaches_of_walk walked).invariant (Along i k) along fun along _ stepped =>
    along.step stepped

def nextLabel (i : Nat) : Nat → Label
  | 0 => .look i
  | 1 => .register i
  | 2 => .lookAgain i
  | _ => .awake i

-- Once the signal has been given, a task that waits can take its next step.
theorem Along.own (along : signal.Along i k) (bound : k < 4) :
    (signal.perform [nextLabel i k]).Along i (k + 1) := by
  obtain ⟨listener, there, behind⟩ := along.listener
  rcases Nat.lt_or_ge k listener.stage with further | here
  · have ahead : signal.Along i (k + 1) := ⟨along.sound, along.given, listener, there, further⟩
    exact ahead.perform _
  obtain rfl : k = listener.stage := Nat.le_antisymm behind here
  have fits := along.sound.found there
  have flag := along.given.flag
  have moved (after : Listener) (stepped : signal.step (nextLabel i listener.stage) =
      some (signal.move i after)) (further : listener.stage < after.stage) :
      (signal.perform [nextLabel i listener.stage]).Along i (listener.stage + 1) := by
    have kept := along.step stepped
    have performed : signal.perform [nextLabel i listener.stage] = signal.move i after := by
      simp [Signal.perform, stepped]
    obtain ⟨inside, -⟩ := List.getElem?_eq_some_iff.mp there
    rw [performed]
    exact ⟨kept.sound, kept.given, after, List.getElem?_set_self inside, further⟩
  cases listener with
  | fresh =>
    refine moved .finished ?_ (by decide)
    simp [nextLabel, Listener.stage, Signal.step, there, flag]
  | missed =>
    refine moved (.registered false) ?_ (by decide)
    simp [nextLabel, Listener.stage, Signal.step, there]
  | registered woken =>
    refine moved .finished ?_ (Nat.lt_add_of_pos_right Nat.two_pos)
    simp [nextLabel, Listener.stage, Signal.step, there, flag]
  | waiting woken =>
    cases woken with
    | true =>
      refine moved .finished ?_ (by decide)
      simp [nextLabel, Listener.stage, Signal.step, there]
    | false =>
      -- it fell asleep before the flag was set, and would have been woken
      have owed := fits flag
      rw [along.given.halfway] at owed
      cases owed
  | finished => exact absurd bound (by decide)

-- Otherwise the task would stand still, and every step takes it further.
theorem Sound.exists_wait (sound : signal.Sound) (given : signal.Given) {listener : Listener}
    (there : signal.listeners[i]? = some listener) (unfinished : listener ≠ .finished) :
    ∃ next, signal.step (nextLabel i listener.stage) = some next := by
  have along : signal.Along i listener.stage := ⟨sound, given, listener, there, Nat.le_refl _⟩
  have bound : listener.stage < 4 := by
    cases listener <;> first | exact absurd rfl unfinished | exact Nat.lt_of_sub_eq_succ rfl
  refine Option.ne_none_iff_exists'.mp fun stuck => ?_
  have still : signal.perform [nextLabel i listener.stage] = signal := by
    simp [perform, stuck]
  obtain ⟨same, found, further⟩ := still ▸ (along.own bound).listener
  cases there.symm.trans found
  omega

/-- A poll of a waiting task, with steps of any tasks before each of its own. -/
def pollAmid (signal : Signal) (i : Nat) (a b c d : List Label) : Signal :=
  signal.perform (a ++ .look i :: (b ++ .register i :: (c ++ .lookAgain i :: (d ++ [.awake i]))))

theorem Along.finishes (along : signal.Along i 0) (a b c d : List Label) :
    (signal.pollAmid i a b c d).listeners[i]? = some .finished := by
  have looked := (along.perform a).own (by decide)
  have registered := (looked.perform b).own (by decide)
  have again := (registered.perform c).own (by decide)
  have awake := (again.perform d).own (by decide)
  obtain ⟨listener, there, behind⟩ := awake.listener
  have atEnd : listener = .finished := by
    cases listener <;> first | rfl | simp [Listener.stage] at behind
  simp only [← perform_append, atEnd] at there
  simpa [pollAmid, nextLabel] using there

theorem poll_ready_iff : (signal.poll i).2 = .ready ↔
    signal.listeners[i]? ≠ some .finished ∧
      (signal.pollAmid i [] [] [] []).listeners[i]? = some .finished := by
  rw [poll]
  split
  · rename_i finished
    simp [finished]
  · rename_i unfinished
    have here : signal.listeners[i]? ≠ some .finished := unfinished
    simp [here, pollAmid]

theorem Given.finishes (given : signal.Given) (sound : signal.Sound)
    (bound : i < signal.listeners.length) (a b c d : List Label) :
    (signal.pollAmid i a b c d).listeners[i]? = some .finished := by
  have along : signal.Along i 0 := ⟨sound, given, _, List.getElem?_eq_getElem bound, Nat.zero_le _⟩
  exact along.finishes a b c d

theorem Given.ready (given : signal.Given) (sound : signal.Sound)
    (bound : i < signal.listeners.length) (unfinished : signal.listeners[i]? ≠ some .finished) :
    (signal.poll i).2 = .ready :=
  poll_ready_iff.mpr ⟨unfinished, given.finishes sound bound [] [] [] []⟩

-- A poll sets no flag, and finishes only where the flag is set.
theorem Sound.flag_of_ready (sound : signal.Sound) (ready : (signal.poll i).2 = .ready) :
    signal.flag = true := by
  obtain ⟨-, there⟩ := poll_ready_iff.mp ready
  obtain ⟨taken, listed, walked⟩ := walk_perform signal _
  have kept : (signal.pollAmid i [] [] [] []).Sound :=
    (reaches_of_walk walked).invariant Sound sound fun sound _ stepped => sound.step stepped
  refine ((flag_walk walked).mp (kept.found there)).resolve_right fun member => ?_
  have among := listed.mem member
  simp at among

/-- The flag is set from the first time on that a task sets it. No task finishes its waiting
before. Once the task that changed the flag has woken those registered, nobody sleeps on, and
whoever waits, since before or from then on, is done at the next poll. -/
theorem no_wake_lost (labels : List Label) (signal : Signal)
    (walked : walk step anyStep labels {} = some signal) :
    (signal.flag = true ↔ .set ∈ labels) ∧
    (signal.flag = true → ∀ later, Reaches step anyStep signal later → later.flag = true) ∧
    (∀ i, signal.listeners[i]? = some .finished ∨ (signal.poll i).2 = .ready →
      signal.flag = true) ∧
    (signal.flag = true ∧ signal.halfway = 0 ↔ .wake ∈ labels) ∧
    (.wake ∈ labels → ∀ later, Reaches step anyStep signal later →
      .waiting false ∉ later.listeners ∧ ∀ i < later.listeners.length,
        (∀ a b c d, (later.pollAmid i a b c d).listeners[i]? = some .finished) ∧
        (later.listeners[i]? ≠ some .finished → (later.poll i).2 = .ready)) ∧
    (signal.halfway = 0 → ∀ i listener, signal.listeners[i]? = some listener →
      listener ≠ .finished → ((signal.poll i).2 = .ready ↔ signal.flag = true)) := by
  have sound := sound_of_reaches (reaches_of_walk walked)
  refine ⟨by simpa using flag_walk walked, fun set later onward => ?sticks,
    fun i finished => ?early, ⟨fun ⟨flag, halfway⟩ => (given_iff_wake walked).mp ⟨flag, halfway⟩, fun woken => ?given⟩,
    fun woken later onward => ?woken, fun quiet i listener there unfinished => ⟨?_, fun set => ?_⟩⟩
  case sticks =>
    exact onward.invariant (fun signal => signal.flag = true) set fun set _ stepped =>
      (flag_step stepped).mpr (.inl set)
  case early =>
    rcases finished with there | ready
    · exact sound.found there
    · exact sound.flag_of_ready ready
  case given =>
    have given := (given_iff_wake walked).mpr woken
    exact ⟨given.flag, given.halfway⟩
  case woken =>
    have kept := onward.invariant (fun signal => signal.Sound ∧ signal.Given)
      ⟨sound, (given_iff_wake walked).mpr woken⟩
      fun kept _ stepped => ⟨kept.1.step stepped, kept.2.step stepped⟩
    obtain ⟨sound, given⟩ := kept
    refine ⟨fun asleep => ?_, fun i bound => ⟨given.finishes sound bound, fun unfinished => ?_⟩⟩
    · have owed := sound.fits _ asleep given.flag
      rw [given.halfway] at owed
      cases owed
    · exact given.ready sound bound unfinished
  · exact sound.flag_of_ready
  · obtain ⟨bound, -⟩ := List.getElem?_eq_some_iff.mp there
    have given : signal.Given := ⟨set, quiet⟩
    refine given.ready sound bound fun finished => unfinished ?_
    exact Option.some.inj (there.symm.trans finished)

/-- One task sleeps and another has looked at the flag when it is set. A poll of the sleeper
still finds nothing; the other registers too late to be woken. Both are done at the next poll
behind the waking. -/
theorem no_wake_lost_race : ∃ middle signal,
    walk step anyStep [.listen, .listen, .look 0, .register 0, .lookAgain 0, .look 1, .set] {} =
      some middle ∧
    (middle.poll 0).2 = .pending ∧
    walk step anyStep [.listen, .listen, .look 0, .register 0, .lookAgain 0, .look 1, .set, .wake,
      .register 1] {} = some signal ∧
    (signal.poll 0).2 = .ready ∧ (signal.poll 1).2 = .ready := by
  refine ⟨_, _, rfl, rfl, rfl, ?_⟩
  obtain ⟨-, -, -, -, woken, -⟩ := no_wake_lost [.listen, .listen, .look 0, .register 0,
    .lookAgain 0, .look 1, .set, .wake, .register 1] _ rfl
  obtain ⟨-, polled⟩ := woken (by decide) _ .refl
  exact ⟨(polled 0 (by decide)).2 (by decide), (polled 1 (by decide)).2 (by decide)⟩

end Signal

end Rollout
