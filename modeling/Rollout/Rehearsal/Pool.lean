import Rollout.Rehearsal.Clock

/-! A pool on a clock, with a receiver that takes every status at once. -/

set_option autoImplicit false

namespace Rollout

structure PoolRehearsal where
  site : Site
  clock : Clock := {}

namespace PoolRehearsal

/-- Carries out deeds one after the other; one that is not possible changes nothing. -/
def perform (rehearsal : PoolRehearsal) (deeds : List Deed) (clock : Clock) : PoolRehearsal :=
  let site := deeds.foldl (fun site deed => (site.perform deed).getD site) rehearsal.site
  { site := site, clock := clock.counting site }

/-- The next thing that happens: a step of a worker, else of the receiver, else the end of a
call. In the end calls that hang are let go. -/
def step (rehearsal : PoolRehearsal) (script : Script) : Option PoolRehearsal :=
  match rehearsal.clock.next script rehearsal.site with
  | some (deeds, clock) => some (rehearsal.perform deeds clock)
  | none =>
    match rehearsal.site.step 0 .receive with
    | some site => some { rehearsal with site := site }
    | none =>
      match rehearsal.clock.nextInstant? with
      | some instant => some { rehearsal with clock := rehearsal.clock.advance instant }
      | none =>
        if rehearsal.clock.released then none
        else some { rehearsal with clock := { rehearsal.clock with released := true } }

def play (script : Script) : Nat → PoolRehearsal → PoolRehearsal
  | 0, rehearsal => rehearsal
  | fuel + 1, rehearsal =>
    match rehearsal.step script with
    | some next => play script fuel next
    | none => rehearsal

def stepBound (jobs workers : Nat) : Nat :=
  10 * (jobs + workers) + 10

def run (script : Script) (site : Site) (action : Action) (workers : Nat)
    (components : Except ComponentListError (List Component)) (cancelled : Bool) :
    Except StartError PoolRehearsal := do
  let site ← site.openPool action workers components
  let site := if cancelled then (site.step 0 .cancel).getD site else site
  let jobs := (components.toOption.getD []).length
  return play script (stepBound jobs (max workers 1)) { site := site }

end PoolRehearsal

end Rollout
