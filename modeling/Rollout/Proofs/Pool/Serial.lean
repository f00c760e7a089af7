import Rollout.Proofs.Pool.Conservation

/-! A single worker makes its calls one at a time, each after the end of the one before. -/

set_option autoImplicit false

namespace Rollout.Pool

variable {pool next : Pool} {label : Label} {action : Action} {components : List Component}

structure Serial (pool : Pool) : Prop where
  single : pool.workers.length = 1
  /-- The calls have ended in the order in which they were started, up to the one under way. -/
  inTurn : (pool.ended ++ pool.inCall).map (settle pool.action · true) =
    pool.taken.map (settle pool.action · true)

theorem held_single (held : Worker → Option Job) {i : Nat} {worker : Worker}
    (single : pool.workers.length = 1) (found : pool.workers[i]? = some worker) :
    pool.workers.filterMap held = (held worker).toList ∧
      ∀ other, (pool.workers.set i other).filterMap held = (held other).toList := by
  obtain ⟨only, same⟩ := List.length_eq_one_iff.mp single
  obtain ⟨bound, here⟩ := List.getElem?_eq_some_iff.mp found
  rw [single] at bound
  obtain rfl : i = 0 := by omega
  simp only [same, List.getElem_cons_zero] at here
  subst here
  have only (worker : Worker) : [worker].filterMap held = (held worker).toList := by
    cases shown : held worker <;> simp [shown]
  exact ⟨by rw [same, only], fun other => by rw [same, List.set_cons_zero, only]⟩

theorem inCall_single {i : Nat} {worker : Worker} (single : pool.workers.length = 1)
    (found : pool.workers[i]? = some worker) :
    pool.inCall = worker.calling?.toList ∧
      ∀ other, (pool.workers.set i other).filterMap Worker.calling? = other.calling?.toList :=
  held_single Worker.calling? single found

theorem Serial.step (serial : pool.Serial) (stepped : pool.step label = some next) :
    next.Serial := by
  obtain ⟨single, inTurn⟩ := serial
  refine ⟨(frame_step stepped).2.2.1.trans single, ?_⟩
  cases move_of_step stepped with
  | leaveCancelled found | leaveEmpty found | goOn found | lose found | send found =>
    obtain ⟨before, after⟩ := inCall_single single found
    rw [before] at inTurn
    rw [inCall, become, after]
    exact inTurn
  | take found =>
    -- the worker has no call under way, so all calls before this one have ended
    obtain ⟨before, after⟩ := inCall_single single found
    have idle : Worker.taking.calling?.toList = [] := rfl
    rw [before, idle, List.append_nil] at inTurn
    simp only [inCall, become, after]
    rw [List.map_append, inTurn, List.map_append]
    rfl
  | finish found =>
    obtain ⟨before, after⟩ := inCall_single single found
    rw [before] at inTurn
    simp only [inCall, become, after]
    rw [← inTurn]
    simp [Worker.calling?]
  | close | receive | cancel | drop => exact inTurn

theorem serial_of_reaches {guard : Pool → Label → Bool} {workers : Nat} (single : workers = 1)
    (reached : Reaches step guard (start action workers components) pool) : pool.Serial := by
  subst single
  apply reached.invariant Serial
  · rw [start_eq]
    exact ⟨rfl, rfl⟩
  · exact fun serial _ stepped => serial.step stepped

-- A worker that is about to take a job has no call under way.
theorem Serial.quiet {i : Nat} (serial : pool.Serial) (taking : pool.workers[i]? = some .taking) :
    pool.underWay = 0 := by
  rw [underWay_eq, (inCall_single serial.single taking).1]
  rfl

theorem Serial.underWay_le (serial : pool.Serial) : pool.underWay ≤ 1 := by
  rw [underWay_eq, ← serial.single]
  exact List.length_filterMap_le _ _

end Rollout.Pool
