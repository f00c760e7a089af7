import Mathlib.Data.List.Nodup
import Rollout.Proofs.Pool.Ending

/-! What a pool still does once it has been cancelled, or once nobody receives from it. A worker
looks at the cancel signal before it takes a job and at the receiver after the call, so that a
signal can come when the look is over: one more call is what each worker may have left. -/

set_option autoImplicit false

namespace Rollout

/-- How many calls a worker can still start, once it is to leave. -/
def Worker.eager (cancelled : Bool) : Worker → Nat
  | .taking => 1
  | .checking => (!cancelled).toNat
  | _ => 0

/-- Neither in a call nor on the way to one. -/
def Worker.isLeaving : Worker → Bool
  | .sending _ | .gone => true
  | _ => false

namespace Pool

def starts? (pool : Pool) : Label → Option (Nat × Job)
  | .take i =>
    match pool.workers[i]?, pool.queue with
    | some .taking, job :: _ => some (i, job)
    | _, _ => none
  | _ => none

def begun : List Label → Pool → List (Nat × Job)
  | [], _ => []
  | label :: rest, pool => (pool.starts? label).toList ++ (pool.step label).elim [] (begun rest)

/-- A signal has been given after which the workers leave. -/
def Signalled (pool : Pool) : Prop :=
  pool.cancelled = true ∨ pool.receiverGone = true

def eager (pool : Pool) (i : Nat) : Nat :=
  pool.workers[i]?.elim 0 (Worker.eager pool.cancelled)

def Leaving (pool : Pool) (i : Nat) : Prop :=
  ∃ worker, pool.workers[i]? = some worker ∧ worker.isLeaving = true

variable {action : Action} {workers : Nat} {components : List Component} {outcome : Nat → Bool}
  {pool next later : Pool} {label : Label} {labels : List Label} {i j : Nat} {worker : Worker}
  {guard : Pool → Label → Bool}

theorem getElem?_become (found : pool.workers[j]? = some worker) (other : Worker) (i : Nat) :
    (pool.become j other).workers[i]? = if j = i then some other else pool.workers[i]? := by
  rw [become, List.getElem?_set]
  split
  · rw [if_pos (List.getElem?_eq_some_iff.mp found).1]
  · rfl

/-! ## The calls of a walk -/

theorem taken_step (stepped : pool.step label = some next) :
    next.taken = pool.taken ++ (pool.starts? label).toList.map Prod.snd := by
  cases move_of_step stepped with
  | take found waiting => simp [starts?, found, waiting]
  | leaveEmpty found empty => simp [starts?, found, empty]
  | _ => simp [starts?]

theorem begun_cons (stepped : pool.step label = some next) :
    begun (label :: labels) pool = (pool.starts? label).toList ++ begun labels next := by
  rw [begun, stepped]
  rfl

theorem taken_walk (walked : walk step guard labels pool = some later) :
    later.taken = pool.taken ++ (begun labels pool).map Prod.snd := by
  induction labels generalizing pool with
  | nil =>
    cases walked
    simp [begun]
  | cons label rest ih =>
    obtain ⟨next, -, stepped, walked⟩ := walk_cons walked
    rw [ih walked, taken_step stepped, begun_cons stepped, List.map_append, List.append_assoc]

/-! ## The calls that workers have left -/

theorem Signalled.step (signalled : pool.Signalled) (stepped : pool.step label = some next) :
    next.Signalled := by
  cases move_of_step stepped with
  | cancel => exact .inl rfl
  | drop => exact .inr rfl
  | _ => exact signalled

theorem eager_found (found : pool.workers[i]? = some worker) :
    pool.eager i = worker.eager pool.cancelled := by
  rw [eager, found]
  rfl

theorem eager_le_one (pool : Pool) (i : Nat) : pool.eager i ≤ 1 := by
  rw [eager]
  cases pool.workers[i]? with
  | none => exact Nat.zero_le _
  | some worker =>
    cases worker with
    | checking => exact Bool.toNat_le _
    | taking => exact Nat.le_refl _
    | calling | sending | gone => exact Nat.zero_le _

theorem found_of_eager (some : 0 < pool.eager i) :
    ∃ worker, pool.workers[i]? = .some worker ∧ 0 < worker.eager pool.cancelled := by
  rw [eager] at some
  cases found : pool.workers[i]? with
  | none =>
    rw [found] at some
    exact absurd some (Nat.lt_irrefl 0)
  | some worker =>
    rw [found] at some
    exact ⟨worker, rfl, some⟩

theorem taking_of_eager (cancelled : pool.cancelled = true) (some : 0 < pool.eager i) :
    pool.workers[i]? = .some .taking := by
  obtain ⟨worker, found, some⟩ := found_of_eager some
  rw [cancelled] at some
  cases worker with
  | taking => exact found
  | checking | calling | sending | gone => exact absurd some (Nat.lt_irrefl 0)

theorem eager_become_le (found : pool.workers[j]? = some worker) (other : Worker)
    (less : other.eager pool.cancelled ≤ worker.eager pool.cancelled) (i : Nat) :
    (pool.become j other).eager i ≤ pool.eager i := by
  rw [eager, getElem?_become found]
  split
  · rename_i same
    rw [← same, eager_found found]
    exact less
  · exact Nat.le_refl _

theorem eager_cancel (pool : Pool) (i : Nat) :
    eager { pool with cancelled := true } i ≤ pool.eager i := by
  simp only [eager]
  cases pool.workers[i]? with
  | none => exact Nat.le_refl _
  | some worker =>
    cases worker with
    | checking => exact Nat.zero_le _
    | taking | calling | sending | gone => exact Nat.le_refl _

theorem count_take {job : Job} (found : pool.workers[j]? = some .taking) (i : Nat) :
    (pool.become j (.calling job)).eager i + [j].count i ≤ pool.eager i := by
  rw [eager, getElem?_become found, List.count_singleton]
  by_cases same : j = i
  · subst same
    rw [eager_found found]
    simp [Worker.eager]
  · simp [same, eager]

theorem receiverGone_step (dropped : pool.receiverGone = true)
    (stepped : pool.step label = some next) : next.receiverGone = true := by
  cases move_of_step stepped with
  | drop => rfl
  | _ => exact dropped

theorem leaving_finish {succeeded : Bool} (stepped : pool.step (.finish i succeeded) = some next) :
    next.Leaving i := by
  cases move_of_step stepped with
  | finish found => exact ⟨_, (getElem?_become found _ i).trans (if_pos rfl), rfl⟩

namespace Ledger

variable (ledger : Ledger action workers components pool)
include ledger

-- A worker that has sent its status looks at the cancel signal again. There was a receiver, so
-- the signal was not that it had gone.
theorem cancelled_of_send (signalled : pool.Signalled) (shut : pool.closed = false) :
    pool.cancelled = true :=
  signalled.resolve_right fun dropped => by cases shut.symm.trans (ledger.dropped dropped).1

/-- A worker that starts a call has one less left, and none ever gets more. -/
theorem eager_step (signalled : pool.Signalled) (stepped : pool.step label = some next) (i : Nat) :
    next.eager i + ((pool.starts? label).toList.map Prod.fst).count i ≤ pool.eager i := by
  cases move_of_step stepped with
  | leaveCancelled found | finish found | lose found =>
    exact eager_become_le found _ (Nat.zero_le _) i
  | leaveEmpty found empty =>
    simp only [starts?, found, empty]
    exact eager_become_le found _ (Nat.zero_le _) i
  | goOn found running =>
    exact eager_become_le found .taking (by rw [running]; exact Nat.le_refl 1) i
  | take found waiting =>
    simp only [starts?, found, waiting]
    exact count_take found i
  | send found shut =>
    refine eager_become_le found .checking ?_ i
    rw [ledger.cancelled_of_send signalled shut]
    exact Nat.zero_le _
  | close | receive | drop => exact Nat.le_refl _
  | cancel => exact eager_cancel pool i

theorem count_begun (signalled : pool.Signalled)
    (walked : walk step guard labels pool = some later) (i : Nat) :
    ((begun labels pool).map Prod.fst).count i ≤ pool.eager i := by
  induction labels generalizing pool with
  | nil => exact Nat.zero_le _
  | cons label rest ih =>
    obtain ⟨next, -, stepped, walked⟩ := walk_cons walked
    have first := ledger.eager_step signalled stepped i
    have others := ih (ledger.keep stepped) (signalled.step stepped) walked
    rw [begun_cons stepped, List.map_append, List.count_append]
    omega

theorem nodup_begun (signalled : pool.Signalled)
    (walked : walk step guard labels pool = some later) :
    ((begun labels pool).map Prod.fst).Nodup :=
  List.nodup_iff_count_le_one.mpr fun i =>
    Nat.le_trans (ledger.count_begun signalled walked i) (eager_le_one pool i)

theorem eager_of_begun (signalled : pool.Signalled)
    (walked : walk step guard labels pool = some later) {call : Nat × Job}
    (member : call ∈ begun labels pool) : 0 < pool.eager call.1 :=
  Nat.lt_of_lt_of_le (List.count_pos_iff.mpr (List.mem_map_of_mem member))
    (ledger.count_begun signalled walked call.1)

/-- No more calls are started than there are workers. -/
theorem length_begun (signalled : pool.Signalled)
    (walked : walk step guard labels pool = some later) :
    (begun labels pool).length ≤ max workers 1 := by
  have within : (begun labels pool).map Prod.fst ⊆ List.range pool.workers.length := by
    intro i member
    obtain ⟨call, started, rfl⟩ := List.mem_map.mp member
    obtain ⟨worker, found, -⟩ := found_of_eager (ledger.eager_of_begun signalled walked started)
    exact List.mem_range.mpr (List.getElem?_eq_some_iff.mp found).1
  have fewer := (ledger.nodup_begun signalled walked).length_le_of_subset within
  rwa [List.length_map, List.length_range, ledger.workers_length] at fewer

/-! ## Workers that leave -/

theorem leaving_step (dropped : pool.receiverGone = true) (leaving : pool.Leaving i)
    (stepped : pool.step label = some next) : next.Leaving i := by
  obtain ⟨worker, there, leaves⟩ := leaving
  have other {j : Nat} {old new : Worker} (found : pool.workers[j]? = some old)
      (on : old.isLeaving = true → new.isLeaving = true) : (pool.become j new).Leaving i := by
    rw [Leaving, getElem?_become found]
    split
    · rename_i same
      cases there.symm.trans (same ▸ found)
      exact ⟨new, rfl, on leaves⟩
    · exact ⟨worker, there, leaves⟩
  cases move_of_step stepped with
  | leaveCancelled found | leaveEmpty found | finish found | lose found =>
    exact other found fun _ => rfl
  | goOn found | take found => exact other found fun leaves => by cases leaves
  | send _ shut => cases shut.symm.trans (ledger.dropped dropped).1
  | close | receive | cancel | drop => exact ⟨worker, there, leaves⟩

/-- Once nobody receives, the call that a worker ends is its last. -/
theorem leaving_walk (dropped : pool.receiverGone = true) {succeeded : Bool} {rest : List Label}
    (walked : walk step guard (labels ++ .finish i succeeded :: rest) pool = some later) :
    later.Leaving i := by
  obtain ⟨middle, front, walked⟩ := walk_append walked
  obtain ⟨next, -, stepped, rest⟩ := walk_cons walked
  obtain ⟨books, dropped⟩ := (reaches_of_walk front).invariant
    (fun pool => Ledger action workers components pool ∧ pool.receiverGone = true)
    ⟨ledger, dropped⟩
    fun known _ stepped => ⟨known.1.keep stepped, receiverGone_step known.2 stepped⟩
  refine ((reaches_of_walk rest).invariant
    (fun pool => Ledger action workers components pool ∧ pool.receiverGone = true ∧ pool.Leaving i)
    ⟨books.keep stepped, receiverGone_step dropped stepped, leaving_finish stepped⟩ ?_).2.2
  rintro s t label ⟨books, dropped, leaving⟩ _ stepped
  exact ⟨books.keep stepped, receiverGone_step dropped stepped,
    books.leaving_step dropped leaving stepped⟩

end Ledger

/-! ## Calls that are never started -/

/-- The guard under which no worker has looked at the signal. -/
def unchecked (_ : Pool) : Label → Bool
  | .check _ => false
  | _ => true

theorem checking_of_reaches (reached : Reaches step unchecked (start action workers components) pool) :
    (∀ worker ∈ pool.workers, worker = .checking) ∧ pool.taken = [] := by
  refine reached.invariant (fun pool => (∀ worker ∈ pool.workers, worker = .checking) ∧
    pool.taken = []) (by simp [start_eq]) ?_
  rintro s t label ⟨checking, none⟩ counted stepped
  have never {i : Nat} {worker : Worker} (found : s.workers[i]? = some worker) :
      worker = .checking := checking worker (mem_of_found found)
  cases move_of_step stepped with
  | leaveCancelled | goOn => cases counted
  | leaveEmpty found | take found | finish found | lose found | send found => cases never found
  | close | receive | cancel | drop => exact ⟨checking, none⟩

theorem begun_nil (ledger : Ledger action workers components pool)
    (cancelled : pool.cancelled = true) (checking : ∀ worker ∈ pool.workers, worker = .checking)
    (walked : walk step guard labels pool = some later) : begun labels pool = [] := by
  refine List.eq_nil_iff_forall_not_mem.mpr fun call started => ?_
  have taking := taking_of_eager cancelled (ledger.eager_of_begun (.inl cancelled) walked started)
  cases checking _ (mem_of_found taking)

/-! ## What becomes of the calls -/

-- A job that was taken is found again by its place, whatever its status is now.
theorem taken_accounted
    (reached : Reaches step (answers outcome) (start action workers components) pool) {job : Job}
    (taken : job ∈ pool.taken) : job ∈ pool.inCall ∨ called action outcome job ∈ pool.ended := by
  have ledger := ledger_of_reaches reached
  have whole := ledger.calls.mem_iff.mpr (List.mem_map_of_mem taken)
  obtain ⟨other, member, same⟩ := List.mem_map.mp whole
  have forgotten : called action outcome other = called action outcome job :=
    (congrArg (called action outcome) same :)
  rcases List.mem_append.mp member with calling | ended
  · have listed := ledger.taken_listed (ledger.inCall_taken other calling)
    have position : other.position = job.position := (congrArg Job.position same :)
    rw [position, ledger.taken_listed taken, Option.some_inj] at listed
    obtain ⟨place, component⟩ := other
    obtain ⟨place', component'⟩ := job
    cases position
    cases listed
    exact .inl calling
  · rw [← forgotten, ended_answers reached other ended]
    exact .inr ended

/-- After the cancel signal only workers that had looked for it before start a call, and after
the receiver has gone those that had not sent; each starts one at most. The calls of both and
those under way run to their ends, and with somebody to receive, their statuses are sent before
the channel is closed; all other jobs stay in the queue. If no worker had looked when the signal
was given, there are no calls. -/
theorem calls_after_signal (action : Action) (workers : Nat) (components : List Component)
    (outcome : Nat → Bool) :
    (∀ pool labels later,
      Reaches step (answers outcome) (start action workers components) pool → pool.Signalled →
      walk step (answers outcome) labels pool = some later →
      later.taken = pool.taken ++ (begun labels pool).map Prod.snd ∧
      later.taken ++ later.queue = jobs components ∧
      ((begun labels pool).map Prod.fst).Nodup ∧
      (begun labels pool).length ≤ max workers 1 ∧
      (pool.cancelled = true → ∀ call ∈ begun labels pool, pool.workers[call.1]? = some .taking) ∧
      (pool.receiverGone = true → ∀ front rest i succeeded,
        labels = front ++ .finish i succeeded :: rest → later.Leaving i) ∧
      (∀ job ∈ later.taken, job ∈ later.inCall ∨ called action outcome job ∈ later.ended) ∧
      (later.closed = true → later.receiverGone = false →
        (later.received ++ later.channel).Perm (later.taken.map (called action outcome))) ∧
      ∃ final, Reaches step (working outcome) later final ∧ final.Over) ∧
    ∀ pool labels later, Reaches step unchecked (start action workers components) pool →
      pool.cancelled = true → walk step anyStep labels pool = some later → later.taken = [] := by
  refine ⟨fun pool labels later reached signalled walked => ?late,
    fun pool labels later reached cancelled walked => ?never⟩
  case late =>
    have ledger := ledger_of_reaches reached
    have onward : Reaches step (answers outcome) (start action workers components) later :=
      reached.trans (reaches_of_walk walked)
    have books := ledger_of_reaches onward
    refine ⟨taken_walk walked, books.listed, ledger.nodup_begun signalled walked,
      ledger.length_begun signalled walked, fun cancelled call started => ?taking,
      fun dropped front rest i succeeded split => ?leaving, fun job => taken_accounted onward,
      fun closed listening => ?sent, books.exists_over outcome⟩
    case taking => exact taking_of_eager cancelled (ledger.eager_of_begun signalled walked started)
    case leaving =>
      subst split
      exact ledger.leaving_walk dropped walked
    case sent =>
      exact (books.ended_sent closed listening).symm.trans
        (ended_perm onward (books.no_hands closed listening).1)
  case never =>
    obtain ⟨checking, none⟩ := checking_of_reaches reached
    rw [taken_walk walked, none, begun_nil (ledger_of_reaches reached) cancelled checking walked]
    rfl

/-- Two workers, of which one calls and the other one has looked when the pool is cancelled; one
that calls when the receiver goes; and none that has looked. -/
theorem calls_after_signal_two :
    let dex : Component := ⟨"dex", "kyma", "r/dex", .notStarted⟩
    let ory : Component := ⟨"ory", "kyma", "r/ory", .notStarted⟩
    let kiali : Component := ⟨"kiali", "kyma", "r/kiali", .notStarted⟩
    let first := start .install 2 [dex, ory, kiali]
    let answered := answers (· = 0)
    (∃ pool later, Reaches step answered first pool ∧ pool.cancelled = true ∧
      Reaches step answered pool later ∧ pool.workers[1]? = some .taking ∧
      later.taken = pool.taken ++ [⟨1, ory⟩] ∧
      (later.received ++ later.channel).Perm
        ([⟨0, dex⟩, ⟨1, ory⟩].map (called .install (· = 0)))) ∧
    (∃ pool later, Reaches step answered first pool ∧ pool.receiverGone = true ∧
      Reaches step answered pool later ∧ later.Leaving 0) ∧
    ∃ pool later, Reaches step unchecked first pool ∧ pool.cancelled = true ∧
      Reaches step anyStep pool later ∧ later.closed = true ∧ later.taken = [] := by
  intro dex ory kiali first answered
  obtain ⟨late, never⟩ := calls_after_signal .install 2 [dex, ory, kiali] (· = 0)
  refine ⟨?cancelled, ?dropped, ?fresh⟩
  case cancelled =>
    let front : List Label := [.check 0, .check 1, .take 0, .cancel]
    let rest : List Label := [.take 1, .finish 0 true, .send 0, .finish 1 false, .check 0, .send 1,
      .check 1, .close, .receive]
    have walked : ((walk step answered front first).bind fun pool =>
        (walk step answered rest pool).map fun later => (pool.cancelled, begun rest pool,
          later.taken, later.closed, later.receiverGone)) =
        some (true, [(1, ⟨1, ory⟩)], [⟨0, dex⟩, ⟨1, ory⟩], true, false) := by decide +kernel
    obtain ⟨pool, reached, walked⟩ := Option.bind_eq_some_iff.mp walked
    obtain ⟨later, walked, shown⟩ := Option.map_eq_some_iff.mp walked
    simp only [Prod.mk.injEq] at shown
    obtain ⟨cancelled, started, taken, closed, listening⟩ := shown
    obtain ⟨called, -, -, -, looked, -, -, sent, -⟩ :=
      late pool rest later (reaches_of_walk reached) (.inl cancelled) walked
    rw [started] at called looked
    refine ⟨pool, later, reaches_of_walk reached, cancelled, reaches_of_walk walked,
      looked cancelled _ (List.mem_singleton_self _), called, ?_⟩
    exact taken ▸ sent closed listening
  case dropped =>
    let front : List Label := [.check 0, .take 0, .drop]
    have walked : ((walk step answered front first).bind fun pool =>
        (walk step answered [.finish 0 true, .send 0] pool).map fun _ => pool.receiverGone) =
        some true := by decide +kernel
    obtain ⟨pool, reached, walked⟩ := Option.bind_eq_some_iff.mp walked
    obtain ⟨later, walked, dropped⟩ := Option.map_eq_some_iff.mp walked
    obtain ⟨-, -, -, -, -, leaving, -⟩ :=
      late pool _ later (reaches_of_walk reached) (.inr dropped) walked
    exact ⟨pool, later, reaches_of_walk reached, dropped, reaches_of_walk walked,
      leaving dropped [] [.send 0] 0 true rfl⟩
  case fresh =>
    have walked : ((walk step unchecked [.cancel] first).bind fun pool =>
        (walk step anyStep [.check 1, .check 0, .close] pool).map fun later =>
          (pool.cancelled, later.closed)) = some (true, true) := by decide +kernel
    obtain ⟨pool, reached, walked⟩ := Option.bind_eq_some_iff.mp walked
    obtain ⟨later, walked, shown⟩ := Option.map_eq_some_iff.mp walked
    obtain ⟨cancelled, closed⟩ := Prod.mk.inj shown
    exact ⟨pool, later, reaches_of_walk reached, cancelled, reaches_of_walk walked, closed,
      never pool _ later (reaches_of_walk reached) cancelled walked⟩

end Pool

end Rollout
