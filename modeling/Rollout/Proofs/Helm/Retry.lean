import Mathlib.Algebra.BigOperators.Intervals
import Mathlib.Algebra.Order.BigOperators.Group.Finset
import Mathlib.Order.Bounds.Basic
import Rollout.Helm.Client

/-! When trying again comes to its end, and what it comes to: the last attempt is the first one
that is good enough, or behind which there is no time left for a wait.

The waits are powers of two seconds, of which those are drawn out that are shorter than the first
interval of the settings. They are not that interval doubled again and again, unless it is two
seconds or very long; `Doubles` says with which settings the difference cannot be seen. -/

set_option autoImplicit false

namespace Rollout.Helm

def Attempt.passes (tolerates : CommandFailure → Bool) (attempt : Attempt) : Bool :=
  attempt.failure.all tolerates

section
variable (waits : Nat → Nat) (budget : Nat) (tolerates : CommandFailure → Bool)
  (attempt : Nat → Attempt)

/-- The time up to the end of an attempt: those before it, the waits between them, and it. -/
def spent (number : Nat) : Nat :=
  ∑ j ∈ Finset.Icc 1 number, (attempt j).duration + ∑ j ∈ Finset.Ico 1 number, waits j

/-- There is no other attempt behind one that passes, or where the next wait takes too long. -/
def Stops (number : Nat) : Prop :=
  (attempt number).passes tolerates = true ∨ budget < spent waits attempt number + waits number

structure Trial.Fits (trial : Trial) : Prop where
  attempts : IsLeast {number | 1 ≤ number ∧ Stops waits budget tolerates attempt number}
    trial.attempts
  elapsed : trial.elapsed = spent waits attempt trial.attempts
  passed : trial.failure = none ↔ (attempt trial.attempts).passes tolerates = true
  failed : ∀ failure, trial.failure = some failure →
    (attempt trial.attempts).failure = some failure

end

variable {waits others : Nat → Nat} {budget : Nat} {tolerates : CommandFailure → Bool}
  {attempt : Nat → Attempt} {trial : Trial} {number : Nat}

theorem spent_one : spent waits attempt 1 = (attempt 1).duration := by
  simp [spent]

theorem spent_succ (started : 1 ≤ number) : spent waits attempt (number + 1) =
    spent waits attempt number + waits number + (attempt (number + 1)).duration := by
  rw [spent, spent, Finset.sum_Icc_succ_top (by omega), Finset.sum_Ico_succ_top started]
  omega

theorem spent_two : spent waits attempt 2 =
    (attempt 1).duration + waits 1 + (attempt 2).duration := by
  rw [spent_succ (Nat.le_refl 1), spent_one]

theorem spent_congr (same : ∀ j, 1 ≤ j → j < number → waits j = others j) :
    spent waits attempt number = spent others attempt number := by
  have between : ∑ j ∈ Finset.Ico 1 number, waits j = ∑ j ∈ Finset.Ico 1 number, others j :=
    Finset.sum_congr rfl fun j inside =>
      same j (Finset.mem_Ico.mp inside).1 (Finset.mem_Ico.mp inside).2
  rw [spent, spent, between]

/-- The trials that fit are all the same. -/
theorem Trial.Fits.unique {other : Trial} (fits : trial.Fits waits budget tolerates attempt)
    (also : other.Fits waits budget tolerates attempt) : trial = other := by
  obtain ⟨attempts, elapsed, failure⟩ := trial
  obtain ⟨attempts', elapsed', failure'⟩ := other
  obtain rfl : attempts = attempts' := fits.attempts.unique also.attempts
  obtain rfl : elapsed = elapsed' := fits.elapsed.trans also.elapsed.symm
  congr 1
  cases failure with
  | none => exact (also.passed.mpr (fits.passed.mp rfl)).symm
  | some reason =>
    cases failure' with
    | none => exact fits.passed.mpr (also.passed.mp rfl)
    | some reason' => exact (fits.failed reason rfl).symm.trans (also.failed reason' rfl)

/-- Waits that are the same up to the last attempt come to the same, if both let it be the last. -/
theorem Trial.Fits.congr (fits : trial.Fits waits budget tolerates attempt)
    (same : ∀ j, 1 ≤ j → j < trial.attempts → waits j = others j)
    (stops : Stops others budget tolerates attempt trial.attempts) :
    trial.Fits others budget tolerates attempt where
  attempts := by
    refine ⟨⟨fits.attempts.1.1, stops⟩, fun number ⟨started, last⟩ => ?_⟩
    by_contra early
    have before : number < trial.attempts := by omega
    have sums : spent waits attempt number = spent others attempt number :=
      spent_congr fun j first inside => same j first (by omega)
    refine early (fits.attempts.2 ⟨started, ?_⟩)
    rwa [Stops, sums, same number started before]
  elapsed := fits.elapsed.trans (spent_congr same)
  passed := fits.passed
  failed := fits.failed

theorem Trial.Fits.failure_eq {failure : CommandFailure}
    (fits : trial.Fits waits budget tolerates attempt)
    (misses : (attempt trial.attempts).passes tolerates = false)
    (failed : (attempt trial.attempts).failure = some failure) : trial.failure = some failure := by
  cases shown : trial.failure with
  | none =>
    rw [fits.passed.mp shown] at misses
    cases misses
  | some reason => exact (fits.failed reason shown).symm.trans failed

theorem Trial.Fits.inTime (fits : trial.Fits waits budget tolerates attempt)
    (started : 1 ≤ number) (early : number < trial.attempts) :
    spent waits attempt number + waits number ≤ budget := by
  by_contra late
  exact absurd (fits.attempts.2 ⟨started, .inr (Nat.not_le.mp late)⟩) (Nat.not_le.mpr early)

/-! ## The loop -/

theorem isLeast_stops (started : 1 ≤ number)
    (before : ∀ i, 1 ≤ i → i < number → ¬ Stops waits budget tolerates attempt i)
    (stops : Stops waits budget tolerates attempt number) :
    IsLeast {i | 1 ≤ i ∧ Stops waits budget tolerates attempt i} number :=
  ⟨⟨started, stops⟩, fun i ⟨first, last⟩ => Nat.le_of_not_lt fun early => before i first early last⟩

theorem isLeast_two (goes : ¬ Stops waits budget tolerates attempt 1)
    (stops : Stops waits budget tolerates attempt 2) :
    IsLeast {i | 1 ≤ i ∧ Stops waits budget tolerates attempt i} 2 := by
  refine isLeast_stops (Nat.le_succ 1) (fun i first early => ?_) stops
  obtain rfl : i = 1 := by omega
  exact goes

theorem fits_retryFrom {initial elapsed : Nat} (started : 1 ≤ number)
    (before : ∀ i, 1 ≤ i → i < number → ¬ Stops (waitAfter initial) budget tolerates attempt i)
    (same : elapsed + (attempt number).duration = spent (waitAfter initial) attempt number) :
    (retryFrom initial budget tolerates attempt number elapsed).Fits (waitAfter initial) budget
      tolerates attempt := by
  -- by induction along the attempts, none of which was the last so far
  fun_induction retryFrom with
  | case1 number elapsed current elapsed' good =>
    have passes : (attempt number).passes tolerates = true := by
      rw [Attempt.passes, good, Option.all_none]
    exact ⟨isLeast_stops started before (.inl passes), same, by simp [passes],
      fun _ failed => nomatch failed⟩
  | case2 number elapsed current elapsed' failure failed tolerated =>
    have passes : (attempt number).passes tolerates = true := by
      rw [Attempt.passes, failed, Option.all_some, tolerated]
    exact ⟨isLeast_stops started before (.inl passes), same, by simp [passes],
      fun _ failed => nomatch failed⟩
  | case3 number elapsed current elapsed' failure failed bad wait late =>
    have misses : ¬ (attempt number).passes tolerates = true := by
      rwa [Attempt.passes, failed, Option.all_some]
    have last : Stops (waitAfter initial) budget tolerates attempt number :=
      .inr (same ▸ late)
    refine ⟨isLeast_stops started before last, same, by simp [misses], fun _ here => ?_⟩
    rw [← here]
    exact failed
  | case4 number elapsed current elapsed' failure failed bad wait inTime ih =>
    have misses : ¬ (attempt number).passes tolerates = true := by
      rwa [Attempt.passes, failed, Option.all_some]
    refine ih (by omega) (fun i first early => ?_) ?_
    · rcases Nat.lt_succ_iff_lt_or_eq.mp early with earlier | rfl
      · exact before i first earlier
      · exact fun stops => stops.elim misses (same ▸ inTime)
    · rw [spent_succ started, ← same]

theorem fits_retry (settings : HelmSettings) (tolerates : CommandFailure → Bool)
    (attempt : Nat → Attempt) :
    (retry settings tolerates attempt).Fits (waitAfter settings.backoffInitial.nanos)
      settings.backoffMaxElapsed.nanos tolerates attempt := by
  refine fits_retryFrom (Nat.le_refl 1) (fun i first early => absurd first (by omega)) ?_
  rw [spent_one, Nat.zero_add]

/-! ## The waits -/

/-- The first interval of the settings, doubled with each attempt, but not beyond the longest. -/
def doubling (initial number : Nat) : Nat :=
  min (initial * 2 ^ (number - 1)) (max longestWait initial)

theorem waitAfter_one (initial : Nat) : waitAfter initial 1 = max (2 * nanosPerSecond) initial := by
  simp only [waitAfter, longestWait, nanosPerSecond, Nat.pow_eq]
  omega

theorem doubling_one (initial : Nat) : doubling initial 1 = initial := by
  simp only [doubling]
  omega

theorem waitAfter_two {initial : Nat} :
    waitAfter initial 2 = max (4 * nanosPerSecond) initial := by
  simp only [waitAfter, longestWait, nanosPerSecond, Nat.pow_eq]
  omega

theorem waitAfter_eq_doubling {initial : Nat}
    (even : initial = 2 * nanosPerSecond ∨ longestWait ≤ initial) (started : 1 ≤ number) :
    waitAfter initial number = doubling initial number := by
  obtain ⟨before, rfl⟩ := Nat.exists_eq_add_of_le' started
  have powers : 0 < 2 ^ before := Nat.two_pow_pos before
  rw [waitAfter, doubling, Nat.add_sub_cancel, Nat.pow_eq, Nat.pow_succ]
  rcases even with rfl | long
  · simp only [longestWait, nanosPerSecond]
    omega
  · have grown : initial ≤ initial * 2 ^ before := Nat.le_mul_of_pos_right initial powers
    omega

theorem doubling_two (initial : Nat) :
    doubling initial 2 = min (initial * 2) (max longestWait initial) := rfl

/-- Time goes on while one tries. -/
def Paced (initial : Nat) (attempt : Nat → Attempt) : Prop :=
  0 < initial ∨ ∃ least, 0 < least ∧ ∀ number, least ≤ (attempt number).duration

/-- The first intervals, in nanoseconds, with which trying comes to the same as if they were
doubled: those that are, and others if there is no time to see the difference. -/
def Doubles (initial budget : Nat) : Prop :=
  initial = 2 * nanosPerSecond ∨ longestWait ≤ initial ∨
    initial < 2 * nanosPerSecond ∧ budget < max initial 1 ∨
    2 * nanosPerSecond < initial ∧ budget < initial + max (4 * nanosPerSecond) initial

theorem Trial.Fits.doubled {initial : Nat}
    (even : initial = 2 * nanosPerSecond ∨ longestWait ≤ initial)
    (fits : trial.Fits (waitAfter initial) budget tolerates attempt) :
    trial.Fits (doubling initial) budget tolerates attempt := by
  have same (j : Nat) (first : 1 ≤ j) := waitAfter_eq_doubling even first
  refine fits.congr (fun j first _ => same j first) ?_
  obtain ⟨started, stops⟩ := fits.attempts.1
  rwa [Stops, spent_congr fun j first _ => same j first, same _ started] at stops

theorem Trial.Fits.attempts_one (fits : trial.Fits waits budget tolerates attempt)
    (stops : Stops waits budget tolerates attempt 1) : trial.attempts = 1 :=
  Nat.le_antisymm (fits.attempts.2 ⟨Nat.le_refl 1, stops⟩) fits.attempts.1.1

-- Both give up behind the first attempt.
theorem Trial.Fits.short {initial : Nat} (short : initial < 2 * nanosPerSecond)
    (tight : budget < max initial 1) (paced : Paced initial attempt)
    (fits : trial.Fits (waitAfter initial) budget tolerates attempt) :
    trial.Fits (doubling initial) budget tolerates attempt := by
  have one := fits.attempts_one (.inr (by rw [waitAfter_one]; omega))
  refine fits.congr (fun j first early => absurd early (by omega)) ?_
  rw [one]
  refine .inr ?_
  rw [spent_one, doubling_one]
  rcases paced with positive | ⟨least, positive, slow⟩
  · omega
  · have first := slow 1
    omega

-- Both give up behind the second attempt at the latest.
theorem Trial.Fits.middling {initial : Nat} (middle : 2 * nanosPerSecond < initial)
    (tight : budget < initial + max (4 * nanosPerSecond) initial)
    (fits : trial.Fits (waitAfter initial) budget tolerates attempt) :
    trial.Fits (doubling initial) budget tolerates attempt := by
  have first : waitAfter initial 1 = initial := by
    rw [waitAfter_one]
    omega
  have longer : max (4 * nanosPerSecond) initial ≤ doubling initial 2 := by
    simp only [doubling_two, longestWait, nanosPerSecond] at middle ⊢
    omega
  have second : Stops (waitAfter initial) budget tolerates attempt 2 := by
    refine .inr ?_
    rw [spent_two, first, waitAfter_two]
    omega
  have few := fits.attempts.2 ⟨Nat.le_succ 1, second⟩
  obtain ⟨started, stops⟩ := fits.attempts.1
  refine fits.congr (fun j from_one early => ?_) ?_
  · obtain rfl : j = 1 := by omega
    rw [first, doubling_one]
  · rcases (by omega : trial.attempts = 1 ∨ trial.attempts = 2) with one | two
    · rw [one, Stops, spent_one, first] at stops
      rwa [one, Stops, spent_one, doubling_one]
    · rw [two]
      refine .inr ?_
      rw [spent_two, doubling_one]
      omega

def failing (durations : Nat → Nat) (number : Nat) : Attempt :=
  ⟨durations number, some .notStarted⟩

@[simp] theorem failing_duration (durations : Nat → Nat) (number : Nat) :
    (failing durations number).duration = durations number := rfl

theorem stops_failing {durations : Nat → Nat} :
    Stops waits budget (fun _ => false) (failing durations) number ↔
      budget < spent waits (failing durations) number + waits number := by
  simp [Stops, failing, Attempt.passes]

-- The first interval ends with the budget, and the wait goes on beyond it.
theorem Trial.Fits.not_short {initial : Nat} (short : initial < 2 * nanosPerSecond)
    (room : initial ≤ budget)
    (fits : trial.Fits (waitAfter initial) budget (fun _ => false)
      (failing fun _ => budget - initial)) :
    ¬ trial.Fits (doubling initial) budget (fun _ => false)
      (failing fun _ => budget - initial) := by
  intro wrong
  have late : Stops (waitAfter initial) budget (fun _ => false)
      (failing fun _ => budget - initial) 1 := by
    rw [stops_failing, spent_one, waitAfter_one, failing_duration]
    omega
  obtain ⟨-, stops⟩ := wrong.attempts.1
  rw [fits.attempts_one late, stops_failing, spent_one, doubling_one, failing_duration] at stops
  omega

-- The second wait ends with the budget, and the first interval doubled would go on beyond it.
theorem Trial.Fits.not_middling {initial : Nat} (middle : 2 * nanosPerSecond < initial)
    (bounded : initial < longestWait)
    (room : initial + max (4 * nanosPerSecond) initial ≤ budget) {durations : Nat → Nat}
    (first : durations 1 = 0)
    (second : initial + max (4 * nanosPerSecond) initial + durations 2 = budget)
    (fits : trial.Fits (waitAfter initial) budget (fun _ => false) (failing durations)) :
    ¬ trial.Fits (doubling initial) budget (fun _ => false) (failing durations) := by
  intro wrong
  have before : waitAfter initial 1 = initial := by
    rw [waitAfter_one]
    omega
  have longer : max (4 * nanosPerSecond) initial < doubling initial 2 := by
    simp only [doubling_two, longestWait, nanosPerSecond] at middle bounded ⊢
    omega
  have late : Stops (doubling initial) budget (fun _ => false) (failing durations) 2 := by
    rw [stops_failing, spent_two, doubling_one, failing_duration, failing_duration]
    omega
  have few := wrong.attempts.2 ⟨Nat.le_succ 1, late⟩
  obtain ⟨started, stops⟩ := fits.attempts.1
  rcases (by omega : trial.attempts = 1 ∨ trial.attempts = 2) with one | two
  · rw [one, stops_failing, spent_one, before, failing_duration] at stops
    omega
  · rw [two, stops_failing, spent_two, before, waitAfter_two, failing_duration,
      failing_duration] at stops
    omega

/-- No other settings make the difference go unseen. -/
theorem doubles_iff (settings : HelmSettings) :
    Doubles settings.backoffInitial.nanos settings.backoffMaxElapsed.nanos ↔
      ∀ tolerates attempt, Paced settings.backoffInitial.nanos attempt →
        (retry settings tolerates attempt).Fits (doubling settings.backoffInitial.nanos)
          settings.backoffMaxElapsed.nanos tolerates attempt := by
  constructor
  · intro doubles tolerates attempt paced
    have fits := fits_retry settings tolerates attempt
    rcases doubles with even | long | ⟨short, tight⟩ | ⟨middle, tight⟩
    · exact fits.doubled (.inl even)
    · exact fits.doubled (.inr long)
    · exact fits.short short tight paced
    · exact fits.middling middle tight
  · intro all
    have fits (durations : Nat → Nat) := fits_retry settings (fun _ => false) (failing durations)
    by_contra seen
    simp only [Doubles, not_or, not_and, Nat.not_lt, Nat.not_le] at seen
    obtain ⟨uneven, bounded, short, middle⟩ := seen
    rcases Nat.lt_or_gt_of_ne uneven with below | above
    · have room := short below
      refine (fits _).not_short below (by omega) (all _ _ ?_)
      rcases Nat.eq_zero_or_pos settings.backoffInitial.nanos with none | positive
      · refine .inr ⟨settings.backoffMaxElapsed.nanos - settings.backoffInitial.nanos, ?_,
          fun _ => Nat.le_refl _⟩
        omega
      · exact .inl positive
    · have room := middle above
      let durations (number : Nat) : Nat :=
        if number = 2 then settings.backoffMaxElapsed.nanos - (settings.backoffInitial.nanos +
          max (4 * nanosPerSecond) settings.backoffInitial.nanos)
        else 0
      refine (fits durations).not_middling above bounded room rfl ?_ (all _ _ (.inl (by omega)))
      simp only [durations, if_true]
      omega

/-! ## Releases -/

theorem failure_code (n : Int) (out err : Text.Bytes) : Reply.failure? ⟨.code n, out, err⟩ =
    if n = 0 then none else some (.exited n out err) := by
  by_cases zero : n = 0
  · rw [if_pos zero, zero]
    rfl
  · rw [if_neg zero, Reply.failure?]
    split <;> simp_all

theorem failure_eq_exited {reply : Reply} {code : Int} {out err : Text.Bytes} :
    reply.failure? = some (.exited code out err) ↔
      reply.exit = .code code ∧ code ≠ 0 ∧ reply.out = out ∧ reply.err = err := by
  rcases reply with ⟨n | _, out', err'⟩
  · rw [failure_code]
    by_cases zero : n = 0
    · rw [if_pos zero]
      simp only [reduceCtorEq, Exit.code.injEq, false_iff, not_and]
      exact fun same other => absurd (same.symm.trans zero) other
    · rw [if_neg zero]
      simp only [Option.some.injEq, CommandFailure.exited.injEq, Exit.code.injEq]
      exact ⟨fun ⟨code, rest⟩ => ⟨code, code ▸ zero, rest⟩, fun ⟨code, _, rest⟩ => ⟨code, rest⟩⟩
  · simp [Reply.failure?]

theorem failure_ne_notStarted (reply : Reply) : reply.failure? ≠ some .notStarted := by
  rcases reply with ⟨n | _, out, err⟩
  · rw [failure_code]
    split <;> simp
  · simp [Reply.failure?]

def Executable.answers (helm : Executable) (settings : HelmSettings) (release : String)
    (arguments : List String) (number : Nat) : Attempt where
  duration := 1
  failure :=
    if helm.isFound settings && arguments.all isPassable then
      (helm.reply release (helm.attemptsFor release + number - 1)).failure?
    else some .notStarted

def Trial.result (trial : Trial) (settings : HelmSettings) (arguments : List String) :
    Except HelmError Unit :=
  match trial.failure with
  | none => .ok ()
  | some failure => .error (.command (commandText settings.command arguments) failure)

structure Operation.Tries (operation : Operation) (settings : HelmSettings)
    (arguments : List String) (tolerates : CommandFailure → Bool) (attempt : Nat → Attempt)
    (trial : Trial) : Prop where
  fits : trial.Fits (waitAfter settings.backoffInitial.nanos) settings.backoffMaxElapsed.nanos
    tolerates attempt
  elapsed : operation.elapsed = trial.elapsed
  result : operation.result = trial.result settings arguments
  /-- An executable that cannot be started is not asked. -/
  asked : operation.invocations.length =
    if (attempt 1).failure = some .notStarted then 0 else trial.attempts

theorem answers_notStarted {helm : Executable} {settings : HelmSettings} {release : String}
    {arguments : List String} : (helm.answers settings release arguments number).failure =
      some .notStarted ↔ (helm.isFound settings && arguments.all isPassable) = false := by
  rw [Executable.answers]
  split
  · rename_i starts
    rw [starts]
    simp [failure_ne_notStarted]
  · rename_i stays
    simpa using stays

theorem tries_operate (helm : Executable) (settings : HelmSettings) (release : String)
    (arguments : List String) (values : Option String) (tolerates : CommandFailure → Bool) :
    (operate helm settings release arguments values tolerates).Tries settings arguments tolerates
      (helm.answers settings release arguments)
      (retry settings tolerates (helm.answers settings release arguments)) where
  fits := fits_retry settings tolerates _
  elapsed := rfl
  result := rfl
  asked := by
    have same : (operate helm settings release arguments values tolerates).invocations =
        if helm.isFound settings && arguments.all isPassable then
          List.replicate (retry settings tolerates
            (helm.answers settings release arguments)).attempts ⟨arguments, values⟩
        else [] := rfl
    rw [same]
    simp only [answers_notStarted]
    cases helm.isFound settings && arguments.all isPassable with
    | true => exact List.length_replicate
    | false => rfl

theorem occursIn_iff {part text : List Char} :
    Text.occursIn part text = true ↔ part <:+: text := by
  induction text with
  | nil => simp [Text.occursIn]
  | cons c rest ih => simp [Text.occursIn, ih, List.infix_cons_iff]

theorem saysReleaseNotFound_iff {failure : CommandFailure} : saysReleaseNotFound failure = true ↔
    ∃ code out err, failure = .exited code out err ∧
      "release: not found".toList <:+: (Text.decodeLossy err).toList.map Char.toLower := by
  cases failure with
  | notStarted | killed => simp [saysReleaseNotFound]
  | exited code out err => simp [saysReleaseNotFound, occursIn_iff]

/-- Trying comes to its end behind the first attempt that passes, or that leaves no time for the
next wait, and shows what that attempt came to; no attempt begins beyond the time there is. The
waits are those of `waitAfter`, and come to the same as the first interval doubled exactly with the
settings of `Doubles`. Installing tolerates nothing, and removing just a command that ends by
itself, with a code other than zero, and says that the release is not found. -/
theorem retry_stops (settings : HelmSettings) :
    let initial := settings.backoffInitial.nanos
    let budget := settings.backoffMaxElapsed.nanos
    (∀ tolerates attempt,
      (retry settings tolerates attempt).Fits (waitAfter initial) budget tolerates attempt ∧
      ∀ i, 1 ≤ i → i < (retry settings tolerates attempt).attempts →
        spent (waitAfter initial) attempt i + waitAfter initial i ≤ budget) ∧
    (Doubles initial budget ↔ ∀ tolerates attempt, Paced initial attempt →
      (retry settings tolerates attempt).Fits (doubling initial) budget tolerates attempt) ∧
    (∀ helm chart ns name values text, helm.hasRoom = true →
      (Overrides.toValue values).render? = some text → ∃ trial,
        (install helm settings chart ns name values).Tries settings
          (installArguments settings chart ns name valuesPath) (fun _ => false)
          (helm.answers settings name (installArguments settings chart ns name valuesPath)) trial) ∧
    (∀ helm ns name, ∃ trial, (uninstall helm settings ns name).Tries settings
      (uninstallArguments settings ns name) saysReleaseNotFound
      (helm.answers settings name (uninstallArguments settings ns name)) trial) ∧
    (∀ failure, saysReleaseNotFound failure = true ↔ ∃ code out err,
      failure = .exited code out err ∧
        "release: not found".toList <:+: (Text.decodeLossy err).toList.map Char.toLower) ∧
    ∀ (reply : Reply) code out err, reply.failure? = some (.exited code out err) ↔
      reply.exit = .code code ∧ code ≠ 0 ∧ reply.out = out ∧ reply.err = err := by
  intro initial budget
  refine ⟨fun tolerates attempt => ?loop, doubles_iff settings,
    fun helm chart ns name values text room rendered => ?install,
    fun helm ns name => ⟨_, tries_operate helm settings name _ none saysReleaseNotFound⟩,
    fun failure => saysReleaseNotFound_iff, fun reply code out err => failure_eq_exited⟩
  case loop =>
    have fits := fits_retry settings tolerates attempt
    exact ⟨fits, fun i => fits.inTime⟩
  case install =>
    have tried := tries_operate helm settings name
      (installArguments settings chart ns name valuesPath) (some text) fun _ => false
    have same : install helm settings chart ns name values = operate helm settings name
        (installArguments settings chart ns name valuesPath) (some text) fun _ => false := by
      simp [install, room, rendered]
    exact ⟨_, same ▸ tried⟩

/-- The wait behind the second attempt, which is twice as long as the first one, would go on beyond
the time there is. -/
theorem retry_stops_second :
    let settings : HelmSettings := {
      backoffInitial := .ofSeconds 2, backoffMaxElapsed := .ofSeconds 7 }
    retry settings (fun _ => false) (failing fun _ => nanosPerSecond) =
      ⟨2, 4 * nanosPerSecond, some .notStarted⟩ := by
  intro settings
  obtain ⟨-, doubles, -⟩ := retry_stops settings
  have fits := doubles.mp (.inl rfl) (fun _ => false) (failing fun _ => nanosPerSecond)
    (.inl (by decide))
  refine fits.unique ⟨isLeast_two ?_ ?_, ?_, by decide, fun _ => id⟩
  · rw [stops_failing, spent_one]
    decide
  · rw [stops_failing, spent_two]
    decide
  · rw [spent_two]
    decide +kernel

/-- With a first wait of one second the second attempt would be made, and succeed. It is not made,
as the wait is twice as long. -/
theorem retry_stops_early :
    let settings : HelmSettings := {
      backoffInitial := .ofSeconds 1, backoffMaxElapsed := ⟨1500000000, by decide⟩ }
    let helm : Executable := { plan := [("app", [{ exit := .code 1 }, {}])] }
    let arguments := uninstallArguments settings "kyma-system" "app"
    let operation := uninstall helm settings "kyma-system" "app"
    Trial.Fits (doubling settings.backoffInitial.nanos) settings.backoffMaxElapsed.nanos
      saysReleaseNotFound (helm.answers settings "app" arguments) ⟨2, 1000000002, none⟩ ∧
    operation.result = .error (.command
      "helm uninstall app --namespace kyma-system --timeout 360s" (.exited 1 [] [])) ∧
    operation.invocations.length = 1 := by
  intro settings helm arguments operation
  have first : helm.answers settings "app" arguments 1 = ⟨1, some (.exited 1 [] [])⟩ := by
    decide +kernel
  have second : helm.answers settings "app" arguments 2 = ⟨1, none⟩ := by
    decide +kernel
  have misses : (helm.answers settings "app" arguments 1).passes saysReleaseNotFound = false := by
    rw [first]
    decide +kernel
  constructor
  · refine ⟨isLeast_two ?_ (.inl ?_), ?_, ?_, fun _ same => nomatch same⟩
    · rw [Stops, misses, spent_one, first]
      decide
    · rw [second]
      rfl
    · rw [spent_two, first, second]
      decide +kernel
    · simp [second, Attempt.passes]
  · have tried := tries_operate helm settings "app" arguments none saysReleaseNotFound
    have one := tried.fits.attempts_one (.inr (by
      rw [spent_one, first, waitAfter_one]
      decide +kernel))
    have failed := tried.fits.failure_eq (by rw [one, misses]) (by rw [one, first])
    refine ⟨tried.result.trans ?_, tried.asked.trans ?_⟩
    · have text : commandText settings.command arguments =
          "helm uninstall app --namespace kyma-system --timeout 360s" := by decide +kernel
      rw [Trial.result, failed, text]
    · rw [first, if_neg (by decide), one]

end Rollout.Helm
