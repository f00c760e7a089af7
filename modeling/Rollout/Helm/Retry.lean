import Rollout.Helm.Command

/-! Trying again with growing waits.

An attempt that fails is followed by a wait and another attempt, until the waits and the
attempts so far have taken more time than there is. -/

set_option autoImplicit false

namespace Rollout.Helm

def longestWait : Nat := 60 * nanosPerSecond

/-- The wait behind the attempt with the given number, counted from one: it doubles each
time, and is neither shorter than the first nor longer than the longest. -/
def waitAfter (initial attempt : Nat) : Nat :=
  min (max (Nat.pow 2 attempt * nanosPerSecond) initial) (max longestWait initial)

theorem waitAfter_pos (initial attempt : Nat) : 0 < waitAfter initial attempt := by
  have hs : 0 < nanosPerSecond := by decide
  have : 0 < Nat.pow 2 attempt * nanosPerSecond := Nat.mul_pos (Nat.two_pow_pos _) hs
  have : 0 < longestWait := by decide
  simp only [waitAfter]
  omega

structure Attempt where
  /-- How long the attempt took. -/
  duration : Nat
  failure : Option CommandFailure := none
  deriving DecidableEq, Repr

structure Trial where
  /-- How many attempts were made. -/
  attempts : Nat
  /-- How long the attempts and the waits between them took. -/
  elapsed : Nat
  failure : Option CommandFailure
  deriving DecidableEq, Repr

/-- Tries from the attempt with the given number on, with some time spent before it. A
failure that is tolerated counts as a success. -/
def retryFrom (initial maxElapsed : Nat) (tolerates : CommandFailure → Bool)
    (attempt : Nat → Attempt) (number elapsed : Nat) : Trial :=
  let current := attempt number
  let elapsed' := elapsed + current.duration
  match current.failure with
  | none => ⟨number, elapsed', none⟩
  | some failure =>
    if tolerates failure then ⟨number, elapsed', none⟩
    else
      let wait := waitAfter initial number
      if maxElapsed < elapsed' + wait then ⟨number, elapsed', some failure⟩
      else retryFrom initial maxElapsed tolerates attempt (number + 1) (elapsed' + wait)
termination_by maxElapsed + 1 - elapsed
decreasing_by
  have := waitAfter_pos initial number
  omega

def retry (settings : HelmSettings) (tolerates : CommandFailure → Bool)
    (attempt : Nat → Attempt) : Trial :=
  retryFrom settings.backoffInitial.nanos settings.backoffMaxElapsed.nanos tolerates attempt 1 0

end Rollout.Helm
