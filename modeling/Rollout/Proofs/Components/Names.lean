import Mathlib.Data.List.Nodup
import Rollout.Components.List

/-! Which lists of components are accepted, and which of their faults is named: the first one
of both groups in a row. -/

set_option autoImplicit false

namespace Rollout.ComponentList

open Text

def names (list : ComponentList) : List String :=
  list.entries.map (·.name)

/-- The name at a place is blank, or is the one of an earlier place. -/
def Faulty (names : List String) (i : Nat) : Prop :=
  ∃ name, names[i]? = some name ∧
    (allBlank name = true ∨ ∃ j < i, names[j]? = some name)

structure FirstFault (names : List String) (i : Nat) (name : String) : Prop where
  here : names[i]? = some name
  faulty : Faulty names i
  first : ∀ j < i, ¬ Faulty names j

def faultOf (name : String) : ComponentListError :=
  if allBlank name then .emptyName else .duplicate name

variable {names : List String} {name other : String} {i j : Nat}

theorem FirstFault.eq (one : FirstFault names i name) (two : FirstFault names j other) :
    name = other := by
  have same : i = j := by
    rcases Nat.lt_trichotomy i j with before | same | behind
    · exact absurd one.faulty (two.first i before)
    · exact same
    · exact absurd two.faulty (one.first j behind)
  subst same
  exact Option.some.inj (one.here.symm.trans two.here)

/-- The names seen so far are those in front, and none of them is at fault. -/
theorem checkNames_cases (front rest : List String)
    (clean : ∀ j < front.length, ¬ Faulty (front ++ rest) j) :
    (checkNames front.reverse rest = .ok () ∧ ∀ j, ¬ Faulty (front ++ rest) j) ∨
    ∃ i name, FirstFault (front ++ rest) i name ∧
      checkNames front.reverse rest = .error (faultOf name) := by
  induction rest generalizing front with
  | nil =>
    refine .inl ⟨rfl, fun j faulty => ?_⟩
    rcases Nat.lt_or_ge j front.length with before | behind
    · exact clean j before faulty
    · obtain ⟨name, found, -⟩ := faulty
      rw [List.append_nil, List.getElem?_eq_none behind] at found
      cases found
  | cons name rest ih =>
    have here : (front ++ name :: rest)[front.length]? = some name := by simp
    have seen : name ∈ front ↔ ∃ j < front.length, (front ++ name :: rest)[j]? = some name := by
      rw [List.mem_iff_getElem?]
      constructor
      · rintro ⟨j, found⟩
        obtain ⟨bound, -⟩ := List.getElem?_eq_some_iff.mp found
        exact ⟨j, bound, by rwa [List.getElem?_append_left bound]⟩
      · rintro ⟨j, bound, found⟩
        exact ⟨j, by rwa [List.getElem?_append_left bound] at found⟩
    by_cases fault : allBlank name = true ∨ name ∈ front
    · refine .inr ⟨front.length, name, ⟨here, ⟨name, here, fault.imp_right seen.mp⟩, clean⟩, ?_⟩
      rw [checkNames, faultOf]
      split
      · rfl
      · rw [if_pos (List.mem_reverse.mpr (fault.resolve_left ‹_›))]
    · -- the name joins those that were seen
      have sound : ¬ Faulty (front ++ name :: rest) front.length := by
        rintro ⟨same, found, faulty⟩
        cases here.symm.trans found
        exact fault (faulty.imp_right seen.mpr)
      have split : front ++ name :: rest = front ++ [name] ++ rest := by simp
      obtain ⟨filled, new⟩ := not_or.mp fault
      have onward : checkNames front.reverse (name :: rest) =
          checkNames (front ++ [name]).reverse rest := by
        rw [checkNames, if_neg filled, if_neg (mt List.mem_reverse.mp new), List.reverse_concat]
      rw [split] at clean sound ⊢
      rw [onward]
      refine ih (front ++ [name]) fun j bound => ?_
      rw [List.length_append, List.length_singleton] at bound
      rcases Nat.lt_succ_iff_lt_or_eq.mp bound with before | rfl
      · exact clean j before
      · exact sound

theorem faultless_iff : (∀ i, ¬ Faulty names i) ↔
    (∀ name ∈ names, ∃ c ∈ name.toList, isBlank c = false) ∧ names.Nodup := by
  have filled (name : String) :
      (∃ c ∈ name.toList, isBlank c = false) ↔ ¬ allBlank name = true := by
    simp [allBlank]
  simp only [filled, List.nodup_iff_getElem?_ne_getElem?]
  constructor
  · intro sound
    refine ⟨fun name member blank => ?_, fun i j before bound same => ?_⟩
    · obtain ⟨i, found⟩ := List.mem_iff_getElem?.mp member
      exact sound i ⟨name, found, .inl blank⟩
    · have found := List.getElem?_eq_getElem bound
      exact sound j ⟨names[j], found, .inr ⟨i, before, same.trans found⟩⟩
  · rintro ⟨filled, distinct⟩ i ⟨name, found, blank | ⟨j, before, same⟩⟩
    · exact filled name (List.mem_of_getElem? found) blank
    · obtain ⟨bound, -⟩ := List.getElem?_eq_some_iff.mp found
      exact distinct j i before bound (same.trans found.symm)

/-! ## Lists -/

variable {list : ComponentList}

theorem validate_cases (list : ComponentList) :
    (list.validate = .ok () ∧ ∀ j, ¬ Faulty list.names j) ∨
    ∃ i name, FirstFault list.names i name ∧ list.validate = .error (faultOf name) :=
  checkNames_cases [] list.names nofun

theorem validate_eq_ok_iff : list.validate = .ok () ↔ ∀ i, ¬ Faulty list.names i := by
  rcases list.validate_cases with ⟨ok, sound⟩ | ⟨i, name, fault, error⟩
  · exact iff_of_true ok sound
  · exact iff_of_false (by rw [error]; exact nofun) fun sound => sound i fault.faulty

theorem validate_eq_error_iff {error : ComponentListError} :
    list.validate = .error error ↔
      ∃ i name, FirstFault list.names i name ∧ error = faultOf name := by
  rcases list.validate_cases with ⟨ok, sound⟩ | ⟨i, name, fault, failed⟩
  · rw [ok]
    exact iff_of_false nofun fun ⟨i, _, fault, _⟩ => sound i fault.faulty
  · rw [failed]
    constructor
    · rintro ⟨⟩
      exact ⟨i, name, fault, rfl⟩
    · rintro ⟨j, other, first, rfl⟩
      rw [fault.eq first]

theorem validate_of_load {directory : Directory} {path : String}
    (loaded : load directory path = .ok list) : list.validate = .ok () := by
  unfold load at loaded
  split at loaded
  · cases loaded
  · split at loaded
    · cases loaded
    · rename_i parsed _
      cases accepted : parsed.validate with
      | error => simp [accepted, bind, Except.bind] at loaded
      | ok =>
        simp only [accepted, bind, Except.bind, pure, Except.pure, Except.ok.injEq] at loaded
        rw [← loaded, accepted]

end Rollout.ComponentList
