import Rollout.Dictionary

/-! Laws of dictionaries: a dictionary is known by its entries, and those by what is found
under their keys. -/

set_option autoImplicit false

namespace Rollout.Dictionary

variable {α : Type}

theorem insertEntry_append {key : String} {value : α} {entries : List (String × α)}
    (behind : ∀ entry ∈ entries, entry.1 < key) :
    insertEntry key value entries = entries ++ [(key, value)] := by
  induction entries with
  | nil => rfl
  | cons entry rest ih =>
    have less := behind entry List.mem_cons_self
    have notLess : ¬ key < entry.1 := fun more => String.lt_irrefl _ (String.lt_trans less more)
    have differ : key ≠ entry.1 := fun same => String.lt_irrefl _ (same ▸ less)
    rw [insertEntry, if_neg notLess, if_neg differ,
      ih fun other member => behind other (List.mem_cons_of_mem _ member), List.cons_append]

theorem foldl_insert_entries {d : Dictionary α} {rest : List (String × α)}
    (ascending : ((d.entries ++ rest).map (·.1)).Pairwise (· < ·)) :
    (rest.foldl (fun (d : Dictionary α) entry => d.insert entry.1 entry.2) d).entries =
      d.entries ++ rest := by
  induction rest generalizing d with
  | nil => simp
  | cons entry rest ih =>
    have behind : ∀ other ∈ d.entries, other.1 < entry.1 := by
      intro other member
      rw [List.map_append, List.pairwise_append] at ascending
      exact ascending.2.2 _ (List.mem_map_of_mem member) _ (by simp)
    have written : (d.insert entry.1 entry.2).entries = d.entries ++ [entry] :=
      insertEntry_append behind
    rw [List.foldl_cons, ih]
    · rw [written, List.append_assoc, List.singleton_append]
    · rw [written, List.append_assoc, List.singleton_append]
      exact ascending

theorem eq_of_entries {d e : Dictionary α} (same : d.entries = e.entries) : d = e := by
  cases d
  cases e
  cases same
  rfl

theorem entries_ofList {entries : List (String × α)}
    (ascending : (entries.map (·.1)).Pairwise (· < ·)) : (ofList entries).entries = entries :=
  foldl_insert_entries (d := ∅) ascending

theorem ofList_entries (d : Dictionary α) : ofList d.entries = d :=
  eq_of_entries (entries_ofList d.ascending)

@[simp] theorem get?_singleton (key other : String) (value : α) :
    (singleton key value).get? other = if other = key then some value else none :=
  get?_insert ∅ key other value

theorem get?_singleton_iff {key other : String} {value found : α} :
    (singleton key value).get? other = some found ↔ other = key ∧ value = found := by
  simp

theorem split_of_get? {d : Dictionary α} {key : String} {value : α}
    (found : d.get? key = some value) :
    ∃ before after, d.entries = before ++ (key, value) :: after ∧
      (∀ entry ∈ before, entry.1 < key) ∧ ∀ entry ∈ after, key < entry.1 := by
  obtain ⟨before, after, split, -⟩ := List.lookup_eq_some_iff.mp found
  have ascending := d.ascending
  rw [split, List.map_append, List.map_cons, List.pairwise_append, List.pairwise_cons] at ascending
  obtain ⟨-, ⟨greater, -⟩, smaller⟩ := ascending
  exact ⟨before, after, split,
    fun entry member => smaller _ (List.mem_map_of_mem member) _ List.mem_cons_self,
    fun entry member => greater _ (List.mem_map_of_mem member)⟩

theorem mem_entries_iff {d : Dictionary α} {key : String} {value : α} :
    (key, value) ∈ d.entries ↔ d.get? key = some value := by
  constructor
  · intro member
    obtain ⟨before, after, split⟩ := List.append_of_mem member
    have ascending := d.ascending
    rw [split, List.map_append, List.pairwise_append] at ascending
    rw [get?, split]
    refine List.lookup_eq_some_iff.mpr ⟨before, after, rfl, fun entry earlier => ?_⟩
    have less := ascending.2.2 _ (List.mem_map_of_mem earlier) key (by simp)
    exact bne_iff_ne.mpr fun same => String.lt_irrefl _ (same ▸ less)
  · intro found
    obtain ⟨before, after, split, -⟩ := split_of_get? found
    simp [split]

theorem ascending_entries (d : Dictionary α) :
    d.entries.Pairwise fun one other => one.1 < other.1 :=
  List.pairwise_map.mp d.ascending

/-- A dictionary is known by what is found under its keys. -/
theorem eq_of_get? {d e : Dictionary α} (same : ∀ key, d.get? key = e.get? key) : d = e := by
  have nodup (d : Dictionary α) : d.entries.Nodup := by
    refine d.ascending_entries.imp fun {one other} less equal => ?_
    exact String.lt_irrefl _ (equal ▸ less)
  have members : ∀ entry, entry ∈ d.entries ↔ entry ∈ e.entries := fun (key, value) => by
    rw [mem_entries_iff, mem_entries_iff, same]
  have permuted := (List.perm_ext_iff_of_nodup (nodup d) (nodup e)).mpr members
  refine eq_of_entries (permuted.eq_of_pairwise (fun one other _ _ less more => ?_)
    d.ascending_entries e.ascending_entries)
  exact absurd (String.lt_trans less more) (String.lt_irrefl _)

theorem get?_ofList (entries : List (String × α)) (key : String) :
    (ofList entries).get? key = entries.reverse.lookup key := by
  suffices written : ∀ d : Dictionary α,
      (entries.foldl (fun (d : Dictionary α) entry => d.insert entry.1 entry.2) d).get? key =
        (entries.reverse.lookup key).or (d.get? key) by
    rw [ofList, written, get?_empty, Option.or_none]
  induction entries with
  | nil => simp
  | cons entry rest ih =>
    intro d
    rw [List.foldl_cons, ih, get?_insert, List.reverse_cons, List.lookup_append, Option.or_assoc,
      List.lookup_cons]
    by_cases same : key = entry.1
    · simp [same]
    · simp [same, beq_false_of_ne same]

def Distinct (entries : List (String × α)) : Prop :=
  ∀ one ∈ entries, ∀ other ∈ entries, one.1 = other.1 → one = other

theorem distinct_of_pairwise {entries : List (String × α)}
    (different : entries.Pairwise fun one other => one.1 ≠ other.1) : Distinct entries := by
  have forward : entries.Pairwise fun one other => one.1 = other.1 → one = other :=
    different.imp fun differ same => absurd same differ
  have backward : entries.Pairwise fun one other => other.1 = one.1 → other = one :=
    different.imp fun differ same => absurd same.symm differ
  exact fun one here other there =>
    forward.forall_of_forall_of_flip (fun _ _ _ => rfl) backward here there

theorem get?_ofList_iff {entries : List (String × α)} (distinct : Distinct entries) {key : String}
    {value : α} : (ofList entries).get? key = some value ↔ (key, value) ∈ entries := by
  have listed {found : α} (there : entries.reverse.lookup key = some found) :
      (key, found) ∈ entries := by
    obtain ⟨before, after, split, -⟩ := List.lookup_eq_some_iff.mp there
    exact List.mem_reverse.mp (split ▸ by simp)
  rw [get?_ofList]
  refine ⟨listed, fun member => ?_⟩
  cases there : entries.reverse.lookup key with
  | none =>
    have other := List.lookup_eq_none_iff.mp there _ (List.mem_reverse.mpr member)
    simp at other
  | some found =>
    cases distinct _ (listed there) _ member rfl
    rfl

-- Entries written one by one, each in view of what stands under its key. The keys differ, so
-- that each is written once.
theorem get?_foldl_insert {β : Type} (write : Option α → β → α) (key : String)
    (entries : List (String × β)) (ascending : (entries.map (·.1)).Pairwise (· < ·))
    (d : Dictionary α) :
    (entries.foldl (fun (d : Dictionary α) entry =>
      d.insert entry.1 (write (d.get? entry.1) entry.2)) d).get? key =
      (entries.lookup key).elim (d.get? key) fun value => some (write (d.get? key) value) := by
  induction entries generalizing d with
  | nil => rfl
  | cons entry rest ih =>
    obtain ⟨first, value⟩ := entry
    rw [List.map_cons, List.pairwise_cons] at ascending
    rw [List.foldl_cons, ih ascending.2, get?_insert, List.lookup_cons]
    by_cases same : key = first
    · subst same
      have later : rest.lookup key = none := by
        refine List.lookup_eq_none_iff.mpr fun entry member => bne_iff_ne.mpr fun same => ?_
        exact String.lt_irrefl _ (same ▸ ascending.1 _ (List.mem_map_of_mem member))
      simp [later]
    · rw [beq_false_of_ne same, if_neg same]

end Rollout.Dictionary
