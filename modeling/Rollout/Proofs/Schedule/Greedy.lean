import Mathlib.Data.List.Basic
import Rollout.Rehearsal.Schedule

/-! Laws of greedy schedules. The starts of tasks depend on when workers are free and not on
which of them are; the first task goes to one that is free first, and the others follow. -/

set_option autoImplicit false

namespace Rollout.Schedule

variable {free other : List (Option Nat)} {tasks : List Task} {instant start : Nat}

def NotBefore (instant : Nat) (free : List (Option Nat)) : Prop :=
  ∀ start, some start ∈ free → instant ≤ start

theorem first_eq_some_iff : (free.filterMap id).min? = some instant ↔
    some instant ∈ free ∧ NotBefore instant free := by
  rw [List.min?_eq_some_iff]
  simp [NotBefore]

theorem first_perm (perm : free.Perm other) :
    (free.filterMap id).min? = (other.filterMap id).min? := by
  apply Option.ext
  intro instant
  rw [first_eq_some_iff, first_eq_some_iff, perm.mem_iff, NotBefore, NotBefore]
  simp only [perm.mem_iff]

theorem occupy_perm (member : some instant ∈ free) (until? : Option Nat) :
    (occupy instant until? free).Perm (until? :: free.erase (some instant)) := by
  induction free with
  | nil => cases member
  | cons worker rest ih =>
    rw [occupy]
    split
    · rename_i same
      rw [same, List.erase_cons_head]
    · rename_i different
      have inside := (List.mem_cons.mp member).resolve_left (Ne.symm different)
      rw [List.erase_cons_tail (by simpa using different)]
      exact ((ih inside).cons worker).trans (List.Perm.swap _ _ _)

/-- It does not matter which worker is free at which instant. -/
theorem starts_perm (perm : free.Perm other) (tasks : List Task) :
    starts free tasks = starts other tasks := by
  induction tasks generalizing free other with
  | nil => rfl
  | cons task rest ih =>
    rw [starts, starts, first_perm perm]
    cases first : (other.filterMap id).min? with
    | none => rw [ih perm]
    | some instant =>
      have member := (first_eq_some_iff.mp first).1
      have busy := ((occupy_perm (perm.mem_iff.mpr member) (task.duration.map (instant + ·))).trans
        ((perm.erase _).cons _)).trans (occupy_perm member _).symm
      exact congrArg (some instant :: ·) (ih busy)

/-- The first task may be given to any worker that is free first. -/
theorem starts_take {before after : List (Option Nat)}
    (first : NotBefore instant (before ++ some instant :: after)) (task : Task)
    (rest : List Task) :
    starts (before ++ some instant :: after) (task :: rest) =
      some instant ::
        starts (before ++ task.duration.map (instant + ·) :: after) rest := by
  have member : some instant ∈ before ++ some instant :: after := by simp
  rw [starts, first_eq_some_iff.mpr ⟨member, first⟩]
  have others :
      ((before ++ some instant :: after).erase (some instant)).Perm (before ++ after) := by
    have same : (before ++ some instant :: after).Perm (some instant :: (before ++ after)) :=
      List.perm_middle
    simpa using same.erase (some instant)
  have busy := ((occupy_perm member (task.duration.map (instant + ·))).trans
    (others.cons _)).trans List.perm_middle.symm
  exact congrArg (some instant :: ·) (starts_perm busy rest)

/-- If a worker is free now, and none was before, the first task starts now. -/
theorem mem_starts_first (member : some instant ∈ free) (first : NotBefore instant free)
    (task : Task) (rest : List Task) : some instant ∈ starts free (task :: rest) := by
  rw [starts, first_eq_some_iff.mpr ⟨member, first⟩]
  exact List.mem_cons_self

theorem notBefore_occupy {until? : Option Nat} (bound : NotBefore instant free)
    (later : ∀ last, until? = some last → instant ≤ last) (start : Nat) :
    NotBefore instant (occupy start until? free) := by
  induction free with
  | nil => exact bound
  | cons worker rest ih =>
    have tail : NotBefore instant rest := fun start member =>
      bound start (List.mem_cons_of_mem _ member)
    rw [occupy]
    split
    · intro start member
      rcases List.mem_cons.mp member with same | inside
      · exact later start same.symm
      · exact tail start inside
    · intro start member
      rcases List.mem_cons.mp member with same | inside
      · exact bound start (same ▸ List.mem_cons_self)
      · exact ih tail start inside

/-- No task starts before a worker is free. -/
theorem le_of_mem_starts (bound : NotBefore instant free)
    (member : some start ∈ starts free tasks) : instant ≤ start := by
  induction tasks generalizing free with
  | nil => cases member
  | cons task rest ih =>
    rw [starts] at member
    split at member
    · exact ih bound ((List.mem_cons.mp member).resolve_left (by simp))
    · rename_i first found
      have here := bound first (first_eq_some_iff.mp found).1
      rcases List.mem_cons.mp member with same | inside
      · cases same
        exact here
      · refine ih (notBefore_occupy bound ?_ first) inside
        intro last same
        obtain ⟨duration, -, rfl⟩ := Option.map_eq_some_iff.mp same
        omega

/-! ## What starts in time -/

def inTime? (deadline : Nat) (start : Option Nat) : Option Nat :=
  start.filter (· < deadline)

theorem inTime?_of_lt {deadline : Nat} (early : start < deadline) :
    inTime? deadline (some start) = some start := by
  simp [inTime?, Option.filter, early]

theorem inTime?_of_le {deadline : Nat} (late : deadline ≤ start) :
    inTime? deadline (some start) = none := by
  simp [inTime?, Option.filter, late]

-- Of the starts in a row, the first ones are in time and no other is.
theorem filterMap_zip_split {α : Type} {deadline : Nat} {items : List α} {begun : List Nat}
    {later : List (Option Nat)} (fits : begun.length ≤ items.length)
    (early : ∀ start ∈ begun, start < deadline)
    (late : ∀ start, some start ∈ later → deadline ≤ start) :
    (items.zip (begun.map some ++ later)).filterMap
      (fun pair => (inTime? deadline pair.2).map (pair.1, ·)) = items.zip begun := by
  induction begun generalizing items with
  | nil =>
    rw [List.zip_nil_right]
    refine List.filterMap_eq_nil_iff.mpr fun pair member => ?_
    have inside := (List.of_mem_zip member).2
    rcases start : pair.2 with _ | instant
    · rfl
    · rw [inTime?_of_le (late instant (start ▸ inside))]
      rfl
  | cons start rest ih =>
    cases items with
    | nil => simp at fits
    | cons item items =>
      have tail := ih (Nat.le_of_succ_le_succ fits) fun other member =>
        early other (List.mem_cons_of_mem _ member)
      have here := inTime?_of_lt (early start List.mem_cons_self)
      simp only [List.map_cons, List.cons_append, List.zip_cons_cons, List.filterMap_cons, tail,
        here, Option.map_some]

theorem startedBefore_eq (deadline : Nat) (free : List (Option Nat)) (tasks : List Task) :
    startedBefore deadline free tasks = (tasks.zip (starts free tasks)).filterMap
      fun pair => (inTime? deadline pair.2).map (pair.1, ·) := by
  rw [startedBefore]
  congr 1
  funext ⟨task, start⟩
  cases start with
  | none => rfl
  | some instant =>
    by_cases early : instant < deadline
    · simp [early, inTime?_of_lt early]
    · simp [early, inTime?_of_le (Nat.not_lt.mp early)]

/-! ## Ends -/

variable {started : List (Task × Nat)} {begin last : Nat}

/-- Every task has ended by the last end, and nothing ends before the beginning. -/
theorem ended_of_lastEnd (ended : lastEnd begin started = some last) :
    begin ≤ last ∧ ∀ slot ∈ started, ∃ duration, slot.1.duration = some duration ∧
      slot.2 + duration ≤ last := by
  induction started generalizing last with
  | nil =>
    cases ended
    exact ⟨Nat.le_refl _, fun _ member => nomatch member⟩
  | cons slot rest ih =>
    obtain ⟨task, start⟩ := slot
    rw [lastEnd] at ended
    obtain ⟨duration, takes, ended⟩ := Option.bind_eq_some_iff.mp ended
    obtain ⟨others, tail, same⟩ := Option.bind_eq_some_iff.mp ended
    cases same
    obtain ⟨after, all⟩ := ih tail
    refine ⟨Nat.le_trans after (Nat.le_max_right _ _), fun slot member => ?_⟩
    rcases List.mem_cons.mp member with rfl | inside
    · exact ⟨duration, takes, Nat.le_max_left _ _⟩
    · obtain ⟨duration, takes, bound⟩ := all slot inside
      exact ⟨duration, takes, Nat.le_trans bound (Nat.le_max_right _ _)⟩

/-- Where all tasks have ended, there is a last end. -/
theorem lastEnd_le (after : begin ≤ last) (ended : ∀ slot ∈ started, ∃ duration,
    slot.1.duration = some duration ∧ slot.2 + duration ≤ last) :
    ∃ earlier, lastEnd begin started = some earlier ∧ earlier ≤ last := by
  induction started with
  | nil => exact ⟨begin, rfl, after⟩
  | cons slot rest ih =>
    obtain ⟨task, start⟩ := slot
    obtain ⟨duration, takes, bound⟩ := ended _ List.mem_cons_self
    obtain ⟨earlier, tail, before⟩ := ih fun slot member =>
      ended slot (List.mem_cons_of_mem _ member)
    refine ⟨max (start + duration) earlier, ?_, Nat.max_le.mpr ⟨bound, before⟩⟩
    simp only at takes
    rw [lastEnd, takes, tail]
    rfl

end Rollout.Schedule
