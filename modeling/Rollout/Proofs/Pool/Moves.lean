import Rollout.Pool
import Rollout.Proofs.Reachability

/-! The steps of a pool, each with all that makes it possible and all that it changes. -/

set_option autoImplicit false

namespace Rollout.Pool

inductive Move (pool : Pool) : Label → Pool → Prop where
  | leaveCancelled {i : Nat} : pool.workers[i]? = some .checking → pool.cancelled = true →
      Move pool (.check i) (pool.become i .gone)
  | goOn {i : Nat} : pool.workers[i]? = some .checking → pool.cancelled = false →
      Move pool (.check i) (pool.become i .taking)
  | leaveEmpty {i : Nat} : pool.workers[i]? = some .taking → pool.queue = [] →
      Move pool (.take i) (pool.become i .gone)
  | take {i : Nat} {job : Job} {rest : List Job} : pool.workers[i]? = some .taking →
      pool.queue = job :: rest →
      Move pool (.take i)
        { pool.become i (.calling job) with queue := rest, taken := pool.taken ++ [job] }
  | finish {i : Nat} {job : Job} {succeeded : Bool} : pool.workers[i]? = some (.calling job) →
      Move pool (.finish i succeeded)
        { pool.become i (.sending (settle pool.action job succeeded)) with
          ended := pool.ended ++ [settle pool.action job succeeded] }
  | lose {i : Nat} {job : Job} : pool.workers[i]? = some (.sending job) → pool.closed = true →
      Move pool (.send i) { pool.become i .gone with lost := pool.lost ++ [job] }
  | send {i : Nat} {job : Job} : pool.workers[i]? = some (.sending job) → pool.closed = false →
      pool.channel.length < pool.capacity →
      Move pool (.send i) { pool.become i .checking with channel := pool.channel ++ [job] }
  | close : pool.closed = false → (∀ worker ∈ pool.workers, worker = .gone) →
      Move pool .close { pool with closed := true }
  | receive {job : Job} {rest : List Job} : pool.receiverGone = false →
      pool.channel = job :: rest →
      Move pool .receive { pool with channel := rest, received := pool.received ++ [job] }
  | cancel : Move pool .cancel { pool with cancelled := true }
  | drop : pool.receiverGone = false →
      Move pool .drop { pool with
        receiverGone := true
        closed := true
        channel := []
        lost := pool.lost ++ pool.channel }

theorem move_of_step {pool next : Pool} {label : Label} (stepped : pool.step label = some next) :
    Move pool label next := by
  cases label with
  | check i =>
    simp only [step] at stepped
    split at stepped
    · cases stepped
      rename_i checking
      cases seen : pool.cancelled with
      | false => simpa [seen] using Move.goOn checking seen
      | true => simpa [seen] using Move.leaveCancelled checking seen
    · cases stepped
  | take i =>
    simp only [step] at stepped
    split at stepped
    · rename_i taking
      split at stepped <;> cases stepped
      · exact .leaveEmpty taking ‹_›
      · exact .take taking ‹_›
    · cases stepped
  | finish i succeeded =>
    simp only [step] at stepped
    split at stepped <;> cases stepped
    exact .finish ‹_›
  | send i =>
    simp only [step] at stepped
    split at stepped
    · rename_i sending
      cases shut : pool.closed with
      | true =>
        simp only [shut, if_true] at stepped
        cases stepped
        exact .lose sending shut
      | false =>
        simp only [shut, Bool.false_eq_true, if_false] at stepped
        split at stepped <;> cases stepped
        exact .send sending shut ‹_›
    · cases stepped
  | close =>
    simp only [step] at stepped
    split at stepped
    · cases stepped
    · rename_i shut
      split at stepped <;> cases stepped
      rename_i gone
      exact .close (by simpa using shut) (by simpa using gone)
  | receive =>
    simp only [step] at stepped
    split at stepped
    · cases stepped
    · rename_i listening
      split at stepped <;> cases stepped
      exact .receive (by simpa using listening) ‹_›
  | cancel =>
    cases stepped
    exact .cancel
  | drop =>
    simp only [step] at stepped
    split at stepped <;> cases stepped
    rename_i listening
    exact .drop (by simpa using listening)

theorem step_of_move {pool next : Pool} {label : Label} (move : Move pool label next) :
    pool.step label = some next := by
  cases move with
  | close shut gone => simpa [step, shut] using gone
  | _ => simp_all [step]

end Rollout.Pool
