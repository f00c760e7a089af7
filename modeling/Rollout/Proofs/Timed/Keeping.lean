import Rollout.Proofs.Schedule.Greedy
import Rollout.Proofs.Timed.Deadlines

/-! A pool on a clock keeps to the greedy schedule of its jobs: each goes to the worker that is
free first, at the instant at which it is free, as long as the cancel signal is not set. -/

set_option autoImplicit false

namespace Rollout

/-- The instant from which on a worker is free, if there is one. -/
def Worker.freeAt (task : Nat → Schedule.Task) (since : Nat → Nat) (now : Nat) :
    Worker → Option Nat
  | .checking | .taking | .sending _ => some now
  | .calling job => (task job.position).duration.map (since job.position + ·)
  | .gone => none

namespace Pool

/-- The first job of a queue that has another place is not one of those taken. -/
theorem Ledger.position_ne {action : Action} {workers : Nat} {components : List Component}
    {pool : Pool} (ledger : Ledger action workers components pool) {job waiting : Job}
    (taken : job ∈ pool.taken) (queued : waiting ∈ pool.queue) :
    job.position ≠ waiting.position := by
  have places := positions_jobs components
  rw [← ledger.listed, List.map_append] at places
  have apart := List.nodup_append.mp (places ▸ List.nodup_range)
  exact apart.2.2 _ (List.mem_map_of_mem taken) _ (List.mem_map_of_mem queued)

theorem Ledger.ended_position {action : Action} {workers : Nat} {components : List Component}
    {pool : Pool} (ledger : Ledger action workers components pool) {job : Job}
    (ended : job ∈ pool.ended) : ∃ other ∈ pool.taken, other.position = job.position := by
  have place := ledger.positions_taken.mem_iff.mpr
    (List.mem_map_of_mem (List.mem_append_right _ ended))
  exact List.mem_map.mp place

section
variable (task : Nat → Schedule.Task) (since : Nat → Nat) (now : Nat) (pool : Pool)

def freeAt : List (Option Nat) :=
  pool.workers.map (Worker.freeAt task since now)

def tasksOf (jobs : List Job) : List Schedule.Task :=
  jobs.map fun job => task job.position

def allStarts (begin : Nat) : List (Option Nat) :=
  Schedule.starts (List.replicate pool.workers.length (some begin))
    (tasksOf task (pool.taken ++ pool.queue))

def Apart (deadline begin : Nat) : Prop :=
  ∀ start, some start ∈ pool.allStarts task begin → start ≠ deadline

def slots : List (Schedule.Task × Nat) :=
  pool.taken.map fun job => (task job.position, since job.position)

/-- What is left of the schedule of a pool: starts that follow from the present instant, or
starts behind the deadline when no job is taken any more. -/
inductive Remains (deadline : Nat) (rest : List (Option Nat)) : Prop where
  | going : pool.cancelled = false →
      rest = Schedule.starts (pool.freeAt task since now) (tasksOf task pool.queue) →
      Remains deadline rest
  | halted : pool.Halted → (∀ start, some start ∈ rest → deadline < start) →
      Remains deadline rest

structure Scheduled (deadline begin : Nat) : Prop where
  planned : ∃ rest,
    pool.allStarts task begin = (pool.taken.map (since ·.position)).map some ++ rest ∧
    pool.Remains task since now deadline rest
  begun : begin ≤ now
  /-- No call goes on behind its end. -/
  ahead : ∀ job ∈ pool.inCall, ∀ duration, (task job.position).duration = some duration →
    now ≤ since job.position + duration
  ended : ∀ job ∈ pool.ended,
    job.component.status = pool.action.outcome (!(task job.position).fails) ∧
    ∃ duration, (task job.position).duration = some duration ∧
      since job.position + duration ≤ now
  /-- The clock is not ahead of the last end. -/
  busy : now = begin ∨ ∃ job ∈ pool.taken, ∀ duration,
    (task job.position).duration = some duration → now ≤ since job.position + duration
  early : ∀ job ∈ pool.taken, since job.position ≤ deadline
  late : pool.cancelled = true → deadline ≤ now

end

variable {task : Nat → Schedule.Task} {since later : Nat → Nat} {now deadline begin : Nat}
  {pool next : Pool} {label : Label} {action : Action} {workers : Nat}
  {components : List Component} {i : Nat} {worker : Worker}

theorem allStarts_step (task : Nat → Schedule.Task) (begin : Nat)
    (moved : pool.step label = some next) :
    next.allStarts task begin = pool.allStarts task begin := by
  obtain ⟨-, -, length, -, listed⟩ := frame_step moved
  rw [allStarts, allStarts, length, listed]

theorem notBefore_freeAt (ahead : ∀ job ∈ pool.inCall, ∀ duration,
      (task job.position).duration = some duration → now ≤ since job.position + duration) :
    Schedule.NotBefore now (pool.freeAt task since now) := by
  intro start member
  obtain ⟨worker, inside, free⟩ := List.mem_map.mp member
  cases worker with
  | checking | taking | sending =>
    cases free
    exact Nat.le_refl _
  | calling job =>
    obtain ⟨duration, takes, rfl⟩ := Option.map_eq_some_iff.mp free
    exact ahead job (mem_inCall.mpr inside) duration takes
  | gone => cases free

theorem freeAt_same (found : pool.workers[i]? = some worker) (other : Worker)
    (same : other.freeAt task since now = worker.freeAt task since now) :
    (pool.become i other).freeAt task since now = pool.freeAt task since now := by
  obtain ⟨before, after, split, become⟩ := split_workers found
  rw [freeAt, freeAt, become, split]
  simp [same]

-- Only the starts of jobs that have been taken matter.
theorem Scheduled.congr (ledger : Ledger action workers components pool)
    (same : ∀ job ∈ pool.taken, later job.position = since job.position)
    (scheduled : pool.Scheduled task since now deadline begin) :
    pool.Scheduled task later now deadline begin := by
  have calling (job : Job) (member : job ∈ pool.inCall) := same job (ledger.inCall_taken job member)
  obtain ⟨rest, planned, remains⟩ := scheduled.planned
  have starts : pool.taken.map (later ·.position) = pool.taken.map (since ·.position) :=
    List.map_congr_left same
  have free : pool.freeAt task later now = pool.freeAt task since now := by
    refine List.map_congr_left fun worker member => ?_
    cases worker with
    | calling job => simp only [Worker.freeAt, calling job (mem_inCall.mpr member)]
    | _ => rfl
  constructor
  case planned =>
    refine ⟨rest, starts ▸ planned, ?_⟩
    cases remains with
    | going running left => exact .going running (free ▸ left)
    | halted halted behind => exact .halted halted behind
  case begun => exact scheduled.begun
  case ahead =>
    intro job member
    rw [calling job member]
    exact scheduled.ahead job member
  case ended =>
    intro job member
    obtain ⟨other, taken, place⟩ := ledger.ended_position member
    rw [← place, same other taken, place]
    exact scheduled.ended job member
  case busy =>
    refine scheduled.busy.imp_right fun ⟨job, member, bound⟩ => ⟨job, member, ?_⟩
    rw [same job member]
    exact bound
  case early =>
    intro job member
    rw [same job member]
    exact scheduled.early job member
  case late => exact scheduled.late

theorem scheduled_start (task : Nat → Schedule.Task) (since : Nat → Nat) (now deadline : Nat)
    (action : Action) (workers : Nat) (components : List Component) :
    (start action workers components).Scheduled task since now deadline now := by
  rw [start_eq]
  refine ⟨⟨_, ?_, .going rfl rfl⟩, Nat.le_refl _, ?_, ?_, .inl rfl, ?_, ?_⟩
  · simp [allStarts, freeAt, Worker.freeAt]
  all_goals simp [inCall, Worker.calling?]

/-! ## Steps at one instant -/

/-- A job that is taken starts when the schedule says. -/
theorem Scheduled.take (ledger : Ledger action workers components pool)
    (scheduled : pool.Scheduled task since now deadline begin)
    (prompt : pool.cancelled = false → now ≤ deadline) {job : Job} {rest : List Job}
    (found : pool.workers[i]? = some .taking) (waiting : pool.queue = job :: rest)
    (same : ∀ other ∈ pool.taken, later other.position = since other.position)
    (begun : later job.position = now) :
    ({ pool.become i (.calling job) with queue := rest, taken := pool.taken ++ [job] } :
      Pool).Scheduled task later now deadline begin := by
  have kept := scheduled.congr ledger same
  obtain ⟨left, planned, remains⟩ := kept.planned
  cases remains with
  | halted halted =>
    -- the worker would not have got so far
    rcases halted.idle with empty | none
    · cases waiting.symm.trans empty
    · exact absurd (mem_of_found found) none
  | going running next =>
    constructor
    case planned =>
      obtain ⟨before, after, split, become⟩ := split_workers found
      have free : pool.freeAt task later now = before.map (Worker.freeAt task later now) ++
          some now :: after.map (Worker.freeAt task later now) := by
        rw [freeAt, split, List.map_append, List.map_cons]
        rfl
      have first := notBefore_freeAt kept.ahead
      rw [waiting, free, tasksOf, List.map_cons, Schedule.starts_take (free ▸ first)] at next
      refine ⟨_, ?_, .going running rfl⟩
      have calling : (pool.become i (.calling job)).freeAt task later now =
          before.map (Worker.freeAt task later now) ++
            (task job.position).duration.map (now + ·) ::
              after.map (Worker.freeAt task later now) := by
        rw [freeAt, become, List.map_append, List.map_cons, Worker.freeAt, begun]
      rw [allStarts_step task begin (step_of_move (.take found waiting)), planned, next]
      change _ = _ ++
        Schedule.starts ((pool.become i (.calling job)).freeAt task later now) (tasksOf task rest)
      rw [calling]
      simp [begun, tasksOf]
    case begun => exact kept.begun
    case ahead =>
      intro other member duration takes
      rcases mem_become (mem_inCall.mp member) with before | here
      · exact kept.ahead other (mem_inCall.mpr before) duration takes
      · cases here
        rw [begun]
        exact Nat.le_add_right _ _
    case ended => exact kept.ended
    case busy =>
      refine kept.busy.imp_right fun ⟨other, member, bound⟩ => ?_
      exact ⟨other, List.mem_append_left _ member, bound⟩
    case early =>
      intro other member
      rcases List.mem_append.mp member with before | here
      · exact kept.early other before
      · rw [List.mem_singleton.mp here, begun]
        exact prompt running
    case late => exact kept.late

/-- The calls that end now are over, and end as they should. -/
def Due (task : Nat → Schedule.Task) (since : Nat → Nat) (now : Nat) (pool : Pool)
    (label : Label) : Prop :=
  ∀ i succeeded job, label = .finish i succeeded → pool.workers[i]? = some (.calling job) →
    succeeded = !(task job.position).fails ∧
    ∃ duration, (task job.position).duration = some duration ∧
      since job.position + duration ≤ now

theorem Scheduled.remains_step {rest : List (Option Nat)}
    (ledger : Ledger action workers components pool)
    (scheduled : pool.Scheduled task since now deadline begin)
    (remains : pool.Remains task since now deadline rest) (listening : pool.receiverGone = false)
    (due : Due task since now pool label) (moved : pool.step label = some next)
    (running : next.cancelled = pool.cancelled) (taken : next.taken = pool.taken) :
    next.Remains task since now deadline rest := by
  cases remains with
  | halted halted behind => exact .halted (halted.step moved).1 behind
  | going before left =>
    have queue : next.queue = pool.queue := by
      have listed := (frame_step moved).2.2.2.2
      rwa [taken, List.append_cancel_left_eq] at listed
    have keep (free : next.freeAt task since now = pool.freeAt task since now) :
        next.Remains task since now deadline rest :=
      .going (running.trans before) (by rw [left, free, queue])
    cases move_of_step moved with
    | leaveCancelled found cancelled =>
      rw [before] at cancelled
      cases cancelled
    | goOn found | send found => exact keep (freeAt_same found _ rfl)
    | leaveEmpty found empty =>
      refine .going before ?_
      simp [left, empty, tasksOf, Schedule.starts]
    | take => simp at taken
    | finish found =>
      refine keep (freeAt_same found _ ?_)
      obtain ⟨-, duration, takes, passed⟩ := due _ _ _ rfl found
      have ahead := scheduled.ahead _ (mem_inCall.mpr (mem_of_found found)) duration takes
      simp only [Worker.freeAt, takes, Option.map_some, Option.some.injEq]
      omega
    | lose found shut =>
      have gone := ledger.all_gone shut listening _ (mem_of_found found)
      cases gone
    | close | receive | cancel | drop => exact keep rfl

theorem inCall_step (moved : pool.step label = some next) (taken : next.taken = pool.taken)
    {job : Job} (member : job ∈ next.inCall) : job ∈ pool.inCall := by
  rw [mem_inCall] at member ⊢
  cases move_of_step moved with
  | take => simp at taken
  | leaveCancelled | goOn | leaveEmpty | finish | lose | send =>
    exact (mem_become member).resolve_right (by simp)
  | close | receive | cancel | drop => exact member

theorem ended_step (moved : pool.step label = some next) {job : Job} (member : job ∈ next.ended) :
    job ∈ pool.ended ∨ ∃ i succeeded former, label = .finish i succeeded ∧
      pool.workers[i]? = some (.calling former) ∧ job = settle pool.action former succeeded := by
  cases move_of_step moved with
  | finish found =>
    rcases List.mem_append.mp member with before | new
    · exact .inl before
    · exact .inr ⟨_, _, _, rfl, found, List.mem_singleton.mp new⟩
  | _ => exact .inl member

theorem Scheduled.step (ledger : Ledger action workers components pool)
    (scheduled : pool.Scheduled task since now deadline begin)
    (listening : pool.receiverGone = false) (due : Due task since now pool label)
    (moved : pool.step label = some next) (running : next.cancelled = pool.cancelled)
    (taken : next.taken = pool.taken) : next.Scheduled task since now deadline begin := by
  constructor
  case planned =>
    obtain ⟨rest, planned, remains⟩ := scheduled.planned
    refine ⟨rest, ?_, scheduled.remains_step ledger remains listening due moved running taken⟩
    rw [allStarts_step task begin moved, taken]
    exact planned
  case begun => exact scheduled.begun
  case ahead => exact fun job member => scheduled.ahead job (inCall_step moved taken member)
  case ended =>
    rw [(frame_step moved).1]
    intro job member
    rcases ended_step moved member with before | ⟨i, succeeded, former, rfl, found, rfl⟩
    · exact scheduled.ended job before
    · obtain ⟨rfl, passed⟩ := due i succeeded former rfl found
      exact ⟨rfl, passed⟩
  case busy => exact taken ▸ scheduled.busy
  case early => exact taken ▸ scheduled.early
  case late => exact running ▸ scheduled.late

/-- At the deadline no start is due, so that the signal stops all that is left. -/
theorem Scheduled.cancel (scheduled : pool.Scheduled task since now deadline begin)
    (apart : pool.Apart task deadline begin) (due : now = deadline) :
    ({ pool with cancelled := true } : Pool).Scheduled task since now deadline begin := by
  obtain ⟨rest, planned, remains⟩ := scheduled.planned
  have inside {start : Option Nat} (member : start ∈ rest) :
      start ∈ pool.allStarts task begin := by
    rw [planned]
    exact List.mem_append_right _ member
  refine ⟨⟨rest, planned, ?_⟩, scheduled.begun, scheduled.ahead, scheduled.ended, scheduled.busy,
    scheduled.early, fun _ => Nat.le_of_eq due.symm⟩
  cases remains with
  | halted halted behind => exact .halted ⟨.inl rfl, halted.idle⟩ behind
  | going running left =>
    have first := notBefore_freeAt scheduled.ahead
    refine .halted ⟨.inl rfl, ?_⟩ fun start member => ?_
    · cases waiting : pool.queue with
      | nil => exact .inl rfl
      | cons job queue =>
        refine .inr fun taking => ?_
        have free : some now ∈ pool.freeAt task since now := List.mem_map.mpr ⟨_, taking, rfl⟩
        have starts := Schedule.mem_starts_first free first (task job.position) (tasksOf task queue)
        rw [waiting] at left
        exact apart now (inside (left ▸ starts)) due
    · have bound := Schedule.le_of_mem_starts first (left ▸ member)
      have other := apart start (inside member)
      omega

/-- The clock goes on while calls are under way and workers have nothing else to do. -/
theorem Scheduled.tick (ledger : Ledger action workers components pool)
    (scheduled : pool.Scheduled task since now deadline begin)
    (quiet : ∀ worker ∈ pool.workers, worker = .gone ∨ ∃ job, worker = .calling job ∧
      ∀ duration, (task job.position).duration = some duration →
        now < since job.position + duration)
    (calls : ∃ job, .calling job ∈ pool.workers) :
    pool.Scheduled task since (now + 1) deadline begin := by
  have passed {job : Job} (calling : .calling job ∈ pool.workers) {duration : Nat}
      (takes : (task job.position).duration = some duration) :
      now + 1 ≤ since job.position + duration := by
    rcases quiet _ calling with gone | ⟨other, same, bound⟩
    · cases gone
    · cases same
      exact bound duration takes
  have free : pool.freeAt task since (now + 1) = pool.freeAt task since now := by
    refine List.map_congr_left fun worker member => ?_
    rcases quiet worker member with rfl | ⟨job, rfl, -⟩ <;> rfl
  constructor
  case planned =>
    obtain ⟨rest, planned, remains⟩ := scheduled.planned
    refine ⟨rest, planned, ?_⟩
    cases remains with
    | going running left => exact .going running (free ▸ left)
    | halted halted behind => exact .halted halted behind
  case begun => exact Nat.le_succ_of_le scheduled.begun
  case ahead => exact fun job member duration => passed (mem_inCall.mp member)
  case ended =>
    intro job member
    obtain ⟨status, duration, takes, bound⟩ := scheduled.ended job member
    exact ⟨status, duration, takes, Nat.le_succ_of_le bound⟩
  case busy =>
    obtain ⟨job, calling⟩ := calls
    have taken := ledger.inCall_taken job (mem_inCall.mpr calling)
    exact .inr ⟨job, taken, fun duration => passed calling⟩
  case early => exact scheduled.early
  case late => exact fun cancelled => Nat.le_succ_of_le (scheduled.late cancelled)

/-! ## What a pool has done in the end -/

/-- When no job will be taken any more, those taken are those that start before the deadline. -/
theorem Scheduled.in_time {α : Type} (scheduled : pool.Scheduled task since now deadline begin)
    (apart : pool.Apart task deadline begin)
    (finished : pool.cancelled = true ∨ pool.queue = []) (view : Job → α) :
    (((pool.taken ++ pool.queue).map view).zip (pool.allStarts task begin)).filterMap
      (fun pair => (Schedule.inTime? deadline pair.2).map (pair.1, ·)) =
      pool.taken.map fun job => (view job, since job.position) := by
  obtain ⟨rest, planned, remains⟩ := scheduled.planned
  have early : ∀ start ∈ pool.taken.map (since ·.position), start < deadline := by
    intro start member
    have other := apart start (by
      rw [planned]
      exact List.mem_append_left _ (List.mem_map_of_mem member))
    obtain ⟨job, taken, rfl⟩ := List.mem_map.mp member
    have bound := scheduled.early job taken
    omega
  have late : ∀ start, some start ∈ rest → deadline ≤ start := by
    intro start member
    cases remains with
    | halted halted behind => exact Nat.le_of_lt (behind start member)
    | going running left =>
      rcases finished with cancelled | empty
      · rw [running] at cancelled
        cases cancelled
      · rw [left, empty] at member
        cases member
  rw [planned, Schedule.filterMap_zip_split (by simp) early late, List.map_append]
  have behind : pool.taken.map (since ·.position) ++ [] = pool.taken.map (since ·.position) :=
    List.append_nil _
  rw [← behind, List.zip_append (by simp), List.zip_nil_right, List.append_nil, List.zip_map']

theorem Scheduled.halted (scheduled : pool.Scheduled task since now deadline begin)
    (cancelled : pool.cancelled = true) : pool.Halted := by
  obtain ⟨rest, -, remains⟩ := scheduled.planned
  cases remains with
  | halted halted => exact halted
  | going running =>
    rw [cancelled] at running
    cases running

theorem Scheduled.startedBefore (scheduled : pool.Scheduled task since now deadline begin)
    (apart : pool.Apart task deadline begin)
    (finished : pool.cancelled = true ∨ pool.queue = []) :
    Schedule.startedBefore deadline (List.replicate pool.workers.length (some begin))
      (tasksOf task (pool.taken ++ pool.queue)) = pool.slots task since := by
  rw [Schedule.startedBefore_eq]
  exact scheduled.in_time apart finished fun job => task job.position

theorem Scheduled.le_lastEnd {last : Nat}
    (scheduled : pool.Scheduled task since now deadline begin)
    (ended : Schedule.lastEnd begin (pool.slots task since) = some last) : now ≤ last := by
  obtain ⟨after, all⟩ := Schedule.ended_of_lastEnd ended
  rcases scheduled.busy with here | ⟨job, member, bound⟩
  · exact here ▸ after
  · obtain ⟨duration, takes, before⟩ := all _ (List.mem_map_of_mem member)
    exact Nat.le_trans (bound duration takes) before

/-- When no call is under way the clock shows the last end. -/
theorem Scheduled.lastEnd_eq (ledger : Ledger action workers components pool)
    (scheduled : pool.Scheduled task since now deadline begin) (calm : pool.inCall = []) :
    Schedule.lastEnd begin (pool.slots task since) = some now := by
  have all : ∀ slot ∈ pool.slots task since, ∃ duration, slot.1.duration = some duration ∧
      slot.2 + duration ≤ now := by
    intro slot member
    obtain ⟨job, taken, rfl⟩ := List.mem_map.mp member
    have place := ledger.positions_taken.mem_iff.mp (List.mem_map_of_mem taken)
    rw [calm, List.nil_append] at place
    obtain ⟨other, ended, same⟩ := List.mem_map.mp place
    rw [← same]
    exact (scheduled.ended other ended).2
  obtain ⟨last, ended, before⟩ := Schedule.lastEnd_le scheduled.begun all
  rw [ended, Nat.le_antisymm before (scheduled.le_lastEnd ended)]

/-- The statuses received tell how many tasks fail. -/
theorem Scheduled.failed_eq (ledger : Ledger action workers components pool)
    (scheduled : pool.Scheduled task since now deadline begin) (closed : pool.closed = true)
    (drained : pool.channel = []) (listening : pool.receiverGone = false) :
    pool.received.countP (·.component.status == .error) =
      (pool.slots task since).countP (·.1.fails) := by
  have sent := ledger.ended_sent closed listening
  rw [drained, List.append_nil] at sent
  have places := ledger.positions_taken
  rw [(ledger.no_hands closed listening).1, List.nil_append] at places
  have answered : ∀ job ∈ pool.ended,
      (job.component.status == .error) = (task job.position).fails := by
    intro job member
    rw [(scheduled.ended job member).1]
    cases (task job.position).fails with
    | true => rfl
    | false => cases pool.action <;> rfl
  calc pool.received.countP (·.component.status == .error)
      = pool.ended.countP (·.component.status == .error) := (sent.countP_eq _).symm
    _ = pool.ended.countP fun job => (task job.position).fails :=
      List.countP_congr fun job member => by rw [answered job member]
    _ = (pool.ended.map (·.position)).countP fun place => (task place).fails := by
      rw [List.countP_map]
      rfl
    _ = (pool.taken.map (·.position)).countP fun place => (task place).fails :=
      (places.countP_eq _).symm
    _ = (pool.slots task since).countP (·.1.fails) := by
      rw [slots, List.countP_map, List.countP_map]
      rfl

variable {quit : Nat}

/-- A phase that is watched to its end ends as its schedule does. -/
theorem Scheduled.phaseEnd_judged (ledger : Ledger action workers components pool)
    (scheduled : pool.Scheduled task since now deadline begin)
    (apart : pool.Apart task deadline begin)
    (other : now ≠ deadline) (prompt : pool.cancelled = false → now ≤ deadline)
    (inTime : now ≤ quit) (closed : pool.closed = true) (drained : pool.channel = [])
    (listening : pool.receiverGone = false) :
    Schedule.phaseEnd pool.workers.length begin deadline quit
      (tasksOf task (pool.taken ++ pool.queue)) = (pool.verdict, now) := by
  have finished : pool.cancelled = true ∨ pool.queue = [] := by
    cases running : pool.cancelled with
    | true => exact .inl rfl
    | false => exact .inr (ledger.queue_nil closed listening running)
  have signal : (deadline < now) ↔ pool.cancelled = true := by
    cases running : pool.cancelled with
    | true =>
      have late := scheduled.late running
      simp
      omega
    | false =>
      have early := prompt running
      simp
      omega
  have last := scheduled.lastEnd_eq ledger (ledger.no_hands closed listening).1
  rw [Schedule.phaseEnd, scheduled.startedBefore apart finished, last,
    ← scheduled.failed_eq ledger closed drained listening]
  simp only [Nat.not_lt.mpr inTime, if_false, signal, Pool.verdict]
  split
  · rfl
  · split <;> rfl

/-- A phase that is given up is not over by then in its schedule. -/
theorem Scheduled.phaseEnd_forced (scheduled : pool.Scheduled task since now deadline begin)
    (apart : pool.Apart task deadline begin)
    (other : ∀ last, Schedule.lastEnd begin (pool.slots task since) = some last → last ≠ quit)
    (cancelled : pool.cancelled = true) (late : quit ≤ now) :
    Schedule.phaseEnd pool.workers.length begin deadline quit
      (tasksOf task (pool.taken ++ pool.queue)) = (some .forceQuit, quit) := by
  rw [Schedule.phaseEnd, scheduled.startedBefore apart (.inl cancelled)]
  cases ended : Schedule.lastEnd begin (pool.slots task since) with
  | none => rfl
  | some last =>
    have behind : quit < last := by
      have bound := scheduled.le_lastEnd ended
      have different := other last ended
      omega
    simp [behind]

end Pool

end Rollout
