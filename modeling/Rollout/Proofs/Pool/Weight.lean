import Mathlib.Algebra.GroupWithZero.Nat
import Rollout.Proofs.Pool.Ledger
import Rollout.Run

/-! How much is left to do in a pool. Every step of its workers takes something off, and so do
the end of its channel and the receiving of statuses. -/

set_option autoImplicit false

namespace Rollout

-- Written without subtraction, for `omega`.
theorem sum_set {α : Type} (weigh : α → Nat) {list : List α} {i : Nat} {old : α}
    (found : list[i]? = some old) (new : α) :
    ((list.set i new).map weigh).sum + weigh old = (list.map weigh).sum + weigh new := by
  induction list generalizing i with
  | nil => cases found
  | cons head rest ih =>
    cases i with
    | zero =>
      cases found
      simp only [List.set_cons_zero, List.map_cons, List.sum_cons]
      omega
    | succ i =>
      have tail := ih (i := i) found
      simp only [List.set_cons_succ, List.map_cons, List.sum_cons]
      omega

/-- A call costs more than what follows it: sending the status, receiving it and telling the
observer, and looking at the signal again. -/
def Worker.weight : Worker → Nat
  | .checking => 2
  | .taking => 1
  | .calling _ => 7
  | .sending _ => 6
  | .gone => 0

namespace Pool

def load (pool : Pool) : Nat :=
  (pool.workers.map Worker.weight).sum

def weight (pool : Pool) : Nat :=
  7 * pool.queue.length + pool.load + 3 * pool.channel.length + (!pool.closed).toNat

variable {pool next : Pool} {label : Label} {i : Nat} {worker : Worker}

theorem load_become (found : pool.workers[i]? = some worker) (other : Worker) :
    (pool.become i other).load + worker.weight = pool.load + other.weight :=
  sum_set Worker.weight found other

theorem weight_start (action : Action) (workers : Nat) (components : List Component) :
    (start action workers components).weight = 7 * components.length + 2 * max workers 1 + 1 := by
  rw [start_eq]
  simp [weight, load, Worker.weight, Nat.mul_comm]

theorem weight_work (work : Run.isWork label = true) (stepped : pool.step label = some next) :
    next.weight < pool.weight := by
  unfold weight
  cases move_of_step stepped with
  | leaveCancelled found | leaveEmpty found | lose found =>
    have spent := load_become found .gone
    simp only [Worker.weight, load, become_queue, become_channel, become_closed] at spent ⊢
    omega
  | goOn found =>
    have spent := load_become found .taking
    simp only [Worker.weight, become_queue, become_channel, become_closed] at spent ⊢
    omega
  | @take i job rest found waiting =>
    have spent := load_become found (.calling job)
    simp only [Worker.weight, load, become_channel, become_closed, waiting,
      List.length_cons] at spent ⊢
    omega
  | @finish i job succeeded found =>
    have spent := load_become found (.sending (settle pool.action job succeeded))
    simp only [Worker.weight, load, become_queue, become_channel, become_closed] at spent ⊢
    omega
  | send found =>
    have spent := load_become found .checking
    simp only [Worker.weight, load, become_queue, become_closed, List.length_append,
      List.length_singleton] at spent ⊢
    omega
  | close shut =>
    simp only [load, shut, Bool.not_false, Bool.not_true, Bool.toNat_true, Bool.toNat_false]
    omega
  | receive | cancel | drop => cases work

theorem weight_receive (stepped : pool.step .receive = some next) :
    next.weight + 3 = pool.weight := by
  unfold weight
  cases move_of_step stepped with
  | receive listening waiting =>
    simp only [load, waiting, List.length_cons]
    omega

theorem weight_cancel (stepped : pool.step .cancel = some next) : next.weight = pool.weight := by
  cases stepped
  rfl

theorem weight_drop (stepped : pool.step .drop = some next) : next.weight ≤ pool.weight := by
  unfold weight
  cases move_of_step stepped with
  | drop =>
    simp only [load, List.length_nil, Bool.not_true, Bool.toNat_false]
    omega

end Pool

end Rollout
