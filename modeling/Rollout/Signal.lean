/-! A signal that is given once and stays given.

Tasks look at it, wait for it and give it, in any number and at any time. What they do goes
in small steps, of which each happens at once; `step` says which steps are possible. A task
that waits first looks at the flag, then puts itself on the list of those to be woken, looks
again, and only then goes to sleep. -/

set_option autoImplicit false

namespace Rollout

inductive Listener where
  | fresh
  /-- The flag was not set when the task looked. -/
  | missed
  | registered (woken : Bool)
  /-- The flag was not set when the task looked again. -/
  | waiting (woken : Bool)
  | finished
  deriving DecidableEq, Repr

def Listener.wake : Listener → Listener
  | .registered _ => .registered true
  | .waiting _ => .waiting true
  | other => other

structure Signal where
  flag : Bool := false
  /-- Tasks that have set the flag, and still have to wake the others. -/
  halfway : Nat := 0
  listeners : List Listener := []
  deriving DecidableEq, Repr

namespace Signal

inductive Label where
  /-- Another task begins to wait. -/
  | listen
  | look (listener : Nat)
  | register (listener : Nat)
  | lookAgain (listener : Nat)
  | awake (listener : Nat)
  /-- A task sets the flag. If it was set before, that is all. -/
  | set
  /-- The task that set the flag wakes all that are on the list. -/
  | wake
  deriving DecidableEq, Repr

def move (signal : Signal) (i : Nat) (listener : Listener) : Signal :=
  { signal with listeners := signal.listeners.set i listener }

def step (signal : Signal) : Label → Option Signal
  | .listen => some { signal with listeners := signal.listeners ++ [.fresh] }
  | .look i =>
    match signal.listeners[i]? with
    | some .fresh => some (signal.move i (if signal.flag then .finished else .missed))
    | _ => none
  | .register i =>
    match signal.listeners[i]? with
    | some .missed => some (signal.move i (.registered false))
    | _ => none
  | .lookAgain i =>
    match signal.listeners[i]? with
    | some (.registered woken) =>
      some (signal.move i (if signal.flag then .finished else .waiting woken))
    | _ => none
  | .awake i =>
    match signal.listeners[i]? with
    | some (.waiting true) => some (signal.move i .finished)
    | _ => none
  | .set =>
    some { signal with
      flag := true
      halfway := if signal.flag then signal.halfway else signal.halfway + 1 }
  | .wake =>
    match signal.halfway with
    | 0 => none
    | n + 1 =>
      some { signal with halfway := n, listeners := signal.listeners.map Listener.wake }

/-- Takes the steps of a list that are possible, and leaves out the others. -/
def perform (signal : Signal) (labels : List Label) : Signal :=
  labels.foldl (fun signal label => (signal.step label).getD signal) signal

def notify (signal : Signal) : Signal :=
  signal.perform [.set, .wake]

inductive Poll where
  | ready
  | pending
  /-- The task had finished before. -/
  | over
  deriving DecidableEq, Repr

def poll (signal : Signal) (i : Nat) : Signal × Poll :=
  match signal.listeners[i]? with
  | some .finished => (signal, .over)
  | _ =>
    let signal := signal.perform [.look i, .register i, .lookAgain i, .awake i]
    (signal, if signal.listeners[i]? = some .finished then .ready else .pending)

end Signal

end Rollout
