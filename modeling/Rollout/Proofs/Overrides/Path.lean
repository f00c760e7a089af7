import Rollout.Overrides.Tree
import Rollout.Proofs.Dictionary

/-! What stands in a tree at a path of keys. The keys of mappings on the way are taken as
texts. -/

set_option autoImplicit false

namespace Rollout

open Yaml

def Yaml.Value.isMapping : Value → Bool
  | .mapping _ => true
  | _ => false

theorem Yaml.Value.eq_mapping {value : Value} (mapping : value.isMapping = true) :
    ∃ entries, value = .mapping entries := by
  cases value <;> cases mapping
  exact ⟨_, rfl⟩

/-- What holds of a mapping as soon as it holds of what stands in it holds of every value. -/
@[elab_as_elim]
theorem Yaml.Value.mapping_induction {motive : Value → Prop}
    (leaf : ∀ value : Value, value.isMapping = false → motive value)
    (mapping : ∀ entries, (∀ entry ∈ entries, motive entry.2) → motive (.mapping entries))
    (value : Value) : motive value := by
  cases kind : value.isMapping with
  | false => exact leaf value kind
  | true =>
    obtain ⟨entries, same⟩ := eq_mapping kind
    rw [same]
    exact mapping entries fun (key, content) member => mapping_induction leaf mapping content
termination_by sizeOf value
decreasing_by
  have smaller := List.sizeOf_lt_of_mem member
  rw [Prod.mk.sizeOf_spec] at smaller
  rw [same, Value.mapping.sizeOf_spec]
  omega

namespace Overrides

/-- The value at a path; none stands at the empty one. -/
def read? (tree : Overrides) : List String → Option Value
  | [] => none
  | [key] => tree.get? key
  | key :: rest =>
    match tree.get? key with
    | some (.mapping entries) => (ofMapping entries).read? rest
    | _ => none

def Finds (kind : Value → Prop) (tree : Overrides) (path : List String) : Prop :=
  ∃ value, tree.read? path = some value ∧ kind value

/-- A value that is no mapping stands at a path. -/
def LeafAt (tree : Overrides) (path : List String) (value : Value) : Prop :=
  tree.read? path = some value ∧ value.isMapping = false

def MappingAt (tree : Overrides) (path : List String) : Prop :=
  ∃ entries, tree.read? path = some (.mapping entries)

/-- Nothing stands at a path, and no value cuts it short. -/
def Silent (tree : Overrides) (path : List String) : Prop :=
  tree.read? path = none ∧ ∀ front, front <+: path → front ≠ path →
    ∀ value, tree.read? front = some value → value.isMapping = true

variable {tree : Overrides} {key next : String} {rest path : List String} {value : Value}
  {entries : List (Value × Value)}

@[simp] theorem read?_nil (tree : Overrides) : tree.read? [] = none := rfl

@[simp] theorem read?_single (tree : Overrides) (key : String) :
    tree.read? [key] = tree.get? key := rfl

theorem read?_mapping (found : tree.get? key = some (.mapping entries)) :
    tree.read? (key :: next :: rest) = (ofMapping entries).read? (next :: rest) := by
  rw [read?, found]
  simp

theorem read?_below (cut : ∀ entries, tree.get? key ≠ some (.mapping entries)) :
    tree.read? (key :: next :: rest) = none := by
  rw [read?]
  · split
    · exact absurd ‹_› (cut _)
    · rfl
  · simp

@[simp] theorem read?_empty (path : List String) : (∅ : Overrides).read? path = none := by
  rcases path with _ | ⟨key, _ | ⟨next, rest⟩⟩
  · rfl
  · rfl
  · exact read?_below fun _ found => nomatch found

theorem read?_none (found : tree.get? key = none) (rest : List String) :
    tree.read? (key :: rest) = none := by
  cases rest with
  | nil => exact found
  | cons next rest => exact read?_below fun _ other => nomatch found.symm.trans other

theorem read?_congr {other : Overrides} (same : tree.get? key = other.get? key)
    (rest : List String) : tree.read? (key :: rest) = other.read? (key :: rest) := by
  cases rest with
  | nil => exact same
  | cons next rest => rw [read?, read?, same] <;> simp

theorem silent_none (found : tree.get? key = none) : tree.Silent (key :: rest) := by
  refine ⟨read?_none found rest, fun front ahead _ value there => ?_⟩
  rcases List.prefix_cons_iff.mp ahead with rfl | ⟨tail, rfl, -⟩
  · cases there
  · rw [read?_none found] at there
    cases there

theorem silent_single : tree.Silent [key] ↔ tree.get? key = none :=
  ⟨fun silent => silent.1, silent_none⟩

theorem not_silent_of_leaf (found : tree.get? key = some value)
    (leaf : value.isMapping = false) : ¬ tree.Silent (key :: rest) := by
  rintro ⟨nothing, uncut⟩
  cases rest with
  | nil => cases found.symm.trans nothing
  | cons next rest =>
    have mapping := uncut [key] ⟨next :: rest, rfl⟩ (by simp) value found
    rw [leaf] at mapping
    cases mapping

theorem silent_mapping (found : tree.get? key = some (.mapping entries)) :
    tree.Silent (key :: next :: rest) ↔ (ofMapping entries).Silent (next :: rest) := by
  constructor
  · rintro ⟨nothing, uncut⟩
    refine ⟨read?_mapping found ▸ nothing, fun front ahead shorter value there => ?_⟩
    cases front with
    | nil => cases there
    | cons first tail =>
      refine uncut (key :: first :: tail) (List.cons_prefix_cons.mpr ⟨rfl, ahead⟩) ?_ value
        ((read?_mapping found).trans there)
      simpa using shorter
  · rintro ⟨nothing, uncut⟩
    refine ⟨(read?_mapping found).trans nothing, fun front whole shorter value there => ?_⟩
    rcases List.prefix_cons_iff.mp whole with rfl | ⟨tail, rfl, ahead⟩
    · cases there
    · cases tail with
      | nil =>
        cases found.symm.trans there
        rfl
      | cons first tail =>
        rw [read?_mapping found] at there
        exact uncut (first :: tail) ahead (by simpa using shorter) value there

theorem leafAt_iff_finds : tree.LeafAt path value ↔
    tree.Finds (fun found => found = value ∧ found.isMapping = false) path := by
  constructor
  · exact fun ⟨there, leaf⟩ => ⟨value, there, rfl, leaf⟩
  · rintro ⟨found, there, rfl, leaf⟩
    exact ⟨there, leaf⟩

theorem mappingAt_iff_finds : tree.MappingAt path ↔
    tree.Finds (fun found => ∃ entries, found = .mapping entries) path := by
  constructor
  · exact fun ⟨entries, there⟩ => ⟨_, there, entries, rfl⟩
  · rintro ⟨found, there, entries, rfl⟩
    exact ⟨entries, there⟩

theorem not_mappingAt_nil : ¬ tree.MappingAt [] := fun ⟨_, there⟩ => nomatch there

theorem not_mappingAt_cut (cut : ∀ entries, tree.get? key ≠ some (.mapping entries)) :
    ¬ tree.MappingAt (key :: rest) := by
  rintro ⟨entries, there⟩
  cases rest with
  | nil => exact cut entries there
  | cons next rest => cases (read?_below cut).symm.trans there

theorem mappingAt_mapping (found : tree.get? key = some (.mapping entries)) :
    tree.MappingAt (key :: next :: rest) ↔ (ofMapping entries).MappingAt (next :: rest) := by
  rw [MappingAt, MappingAt, read?_mapping found]

section
variable {kind : Value → Prop}

theorem not_finds_nil : ¬ tree.Finds kind [] := fun ⟨_, there, _⟩ => nomatch there

theorem finds_single (found : tree.get? key = some value) : tree.Finds kind [key] ↔ kind value := by
  constructor
  · rintro ⟨other, there, is⟩
    cases found.symm.trans there
    exact is
  · exact fun is => ⟨value, found, is⟩

theorem finds_mapping (found : tree.get? key = some (.mapping entries)) :
    tree.Finds kind (key :: next :: rest) ↔ (ofMapping entries).Finds kind (next :: rest) := by
  rw [Finds, Finds, read?_mapping found]

theorem finds_congr {other : Overrides} (same : tree.get? key = other.get? key) :
    tree.Finds kind (key :: rest) ↔ other.Finds kind (key :: rest) := by
  rw [Finds, Finds, read?_congr same]

theorem not_finds_none (found : tree.get? key = none) : ¬ tree.Finds kind (key :: rest) :=
  fun ⟨_, there, _⟩ => nomatch (read?_none found rest).symm.trans there

theorem not_finds_below (cut : ∀ entries, tree.get? key ≠ some (.mapping entries)) :
    ¬ tree.Finds kind (key :: next :: rest) :=
  fun ⟨_, there, _⟩ => nomatch (read?_below cut).symm.trans there

end

theorem not_leafAt_nil : ¬ tree.LeafAt [] value := fun leaf => nomatch leaf.1

-- Unlike `finds_mapping` this holds at the key itself too, where a mapping is no leaf.
theorem leafAt_mapping (found : tree.get? key = some (.mapping entries)) :
    tree.LeafAt (key :: rest) value ↔ (ofMapping entries).LeafAt rest value := by
  cases rest with
  | nil =>
    refine ⟨fun leaf => ?_, fun leaf => absurd leaf not_leafAt_nil⟩
    cases found.symm.trans leaf.1
    cases leaf.2
  | cons next rest => rw [LeafAt, LeafAt, read?_mapping found]

theorem leafAt_congr {other : Overrides} (same : tree.get? key = other.get? key) :
    tree.LeafAt (key :: rest) value ↔ other.LeafAt (key :: rest) value := by
  rw [LeafAt, LeafAt, read?_congr same]

theorem not_leafAt_none (found : tree.get? key = none) : ¬ tree.LeafAt (key :: rest) value :=
  fun leaf => nomatch (read?_none found rest).symm.trans leaf.1

theorem ofMapping_toMapping (tree : Overrides) : ofMapping tree.toMapping = tree := by
  rw [ofMapping, toMapping, List.map_map]
  exact (congrArg Dictionary.ofList (List.map_id _)).trans (Dictionary.ofList_entries tree)

theorem leafAt_singleton (key : String) (inner : Overrides) :
    LeafAt (Dictionary.singleton key inner.toValue) path value ↔
      ∃ rest, path = key :: rest ∧ inner.LeafAt rest value := by
  cases path with
  | nil => simp [not_leafAt_nil]
  | cons first rest =>
    by_cases same : first = key
    · subst same
      have found : (Dictionary.singleton first inner.toValue).get? first =
          some (.mapping inner.toMapping) := by simp [toValue]
      rw [leafAt_mapping found, ofMapping_toMapping]
      simp
    · have nothing : (Dictionary.singleton key inner.toValue).get? first = none := by simp [same]
      simp [not_leafAt_none nothing, same]

/-! ## Induction over trees -/

theorem mappingDepth_le_listDepth {part : String × Value} {parts : List (String × Value)}
    (member : part ∈ parts) : mappingDepth part.2 ≤ listDepth parts := by
  induction parts with
  | nil => cases member
  | cons first rest ih =>
    rw [listDepth]
    rcases List.mem_cons.mp member with rfl | later
    · exact Nat.le_max_left _ _
    · exact Nat.le_trans (ih later) (Nat.le_max_right _ _)

theorem listDepth_inner (found : tree.get? key = some (.mapping entries)) :
    listDepth (ofMapping entries).entries < listDepth tree.entries := by
  have within := mappingDepth_le_listDepth (Dictionary.mem_entries_iff.mpr found)
  rw [mappingDepth] at within
  exact Nat.lt_of_le_of_lt (listDepth_ofMapping entries) within

/-- What holds of a tree as soon as it holds of the mappings in it holds of every tree. -/
@[elab_as_elim]
theorem inner_induction {motive : Overrides → Prop}
    (above : ∀ tree : Overrides, (∀ key entries, tree.get? key = some (.mapping entries) →
      motive (ofMapping entries)) → motive tree) (tree : Overrides) : motive tree :=
  above tree fun key entries found =>
    have := listDepth_inner found
    inner_induction above (ofMapping entries)
termination_by listDepth tree.entries

/-- The same where the mappings in the tree are trees themselves. -/
@[elab_as_elim]
theorem below_induction {motive : Overrides → Prop}
    (above : ∀ tree : Overrides, (∀ key below, tree.get? key = some (toValue below) →
      motive below) → motive tree) (tree : Overrides) : motive tree := by
  induction tree using inner_induction with
  | above tree ih =>
    refine above tree fun key below found => ?_
    have held := ih key below.toMapping found
    rwa [ofMapping_toMapping] at held

end Overrides

end Rollout
