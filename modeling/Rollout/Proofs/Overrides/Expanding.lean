import Rollout.Proofs.Overrides.Leaves

/-! Expanding dotted keys keeps the leaves of a tree: all of them, at the paths that the keys
spell, and no others. -/

set_option autoImplicit false

namespace Rollout.Overrides

open Yaml

variable {steps : String → List String} {tree into : Overrides} {key : String}
  {path taken : List String} {content value leaf : Value} {entries : List (Value × Value)}

/-- Keys of different texts, each of which spells a path of at least one step. -/
abbrev Spelled : List (Value × Value) → Prop :=
  Keyed (fun key => keyPath (keyText key) ≠ []) fun one other => keyText one ≠ keyText other

def Legible (tree : Overrides) : Prop :=
  Throughout Spelled tree.toValue

instance (tree : Overrides) : Decidable (Legible tree) :=
  inferInstanceAs (Decidable (Throughout Spelled tree.toValue))

theorem legible_iff : Legible tree ↔ ∀ key content, tree.get? key = some content →
    keyPath key ≠ [] ∧ Throughout Spelled content :=
  throughout_toValue fun _ _ => String.ne_of_lt

/-! ## Mappings whose keys have different texts -/

theorem get?_ofMapping_iff
    (distinct : entries.Pairwise fun one other => keyText one.1 ≠ keyText other.1) :
    (ofMapping entries).get? key = some content ↔
      ∃ spelled, (spelled, content) ∈ entries ∧ keyText spelled = key := by
  rw [ofMapping, Dictionary.get?_ofList_iff
    (Dictionary.distinct_of_pairwise (List.pairwise_map.mpr distinct))]
  simp only [List.mem_map, Prod.mk.injEq, Prod.exists]
  constructor
  · rintro ⟨spelled, _, member, same, rfl⟩
    exact ⟨spelled, member, same⟩
  · rintro ⟨spelled, member, same⟩
    exact ⟨spelled, content, member, same, rfl⟩

theorem mem_leaves_ofMapping
    (distinct : entries.Pairwise fun one other => keyText one.1 ≠ keyText other.1)
    (leaf : List String × Value) :
    leaf ∈ (ofMapping entries).leaves steps ↔ leaf ∈ entryLeaves steps entries := by
  obtain ⟨path, leaf⟩ := leaf
  rw [mem_leaves, mem_entryLeaves]
  constructor
  · rintro ⟨key, content, rest, found, there, split⟩
    obtain ⟨spelled, member, rfl⟩ := (get?_ofMapping_iff distinct).mp found
    exact ⟨spelled, content, rest, member, there, split⟩
  · rintro ⟨spelled, content, rest, member, there, split⟩
    exact ⟨_, content, rest, (get?_ofMapping_iff distinct).mpr ⟨spelled, member, rfl⟩, there, split⟩

theorem Legible.inner (legible : Throughout Spelled (.mapping entries)) :
    Legible (ofMapping entries) := by
  obtain ⟨spelled, below⟩ := throughout_mapping.mp legible
  refine legible_iff.mpr fun key content found => ?_
  obtain ⟨_, member, rfl⟩ := (get?_ofMapping_iff spelled.ordered).mp found
  exact ⟨spelled.keys _ member, below _ member⟩

/-! ## The leaves of a strand -/

theorem mem_leaves_singleton :
    (taken, leaf) ∈ leaves List.singleton (Dictionary.singleton key value) ↔
      ∃ rest, taken = key :: rest ∧ (rest, leaf) ∈ valueLeaves List.singleton value := by
  rcases taken with _ | ⟨first, rest⟩
  · simp [not_mem_leaves_nil]
  rw [mem_leaves_cons, Dictionary.get?_singleton]
  by_cases same : first = key
  · subst same
    simp
  · simp [same]

theorem mem_leaves_branch (full : path ≠ []) :
    (taken, leaf) ∈ (branch path value).leaves List.singleton ↔
      ∃ rest, taken = path ++ rest ∧ (rest, leaf) ∈ valueLeaves List.singleton value := by
  induction path generalizing taken leaf with
  | nil => exact absurd rfl full
  | cons first others ih =>
    cases others with
    | nil => exact mem_leaves_singleton
    | cons next others =>
      have inner {taken leaf} := @ih taken leaf (List.cons_ne_nil next others)
      -- some leaf shows that what stands under the first key has entries
      obtain ⟨shown, there⟩ := exists_leaf List.singleton value
      have member := inner.mpr ⟨shown.1, rfl, there⟩
      have split : branch (first :: next :: others) value =
          Dictionary.singleton first (branch (next :: others) value).toValue := rfl
      rw [split, mem_leaves_singleton, valueLeaves_toValue member]
      constructor
      · rintro ⟨_, rfl, below⟩
        obtain ⟨rest, rfl, there⟩ := inner.mp below
        exact ⟨rest, rfl, there⟩
      · rintro ⟨rest, rfl, there⟩
        exact ⟨_, rfl, inner.mpr ⟨rest, rfl, there⟩⟩

theorem mem_leaves_unflattenEntries (parts : List (String × Value)) (start : Normal into)
    (apart : Apart (into.leaves List.singleton ++
      parts.flatMap fun part => (strand part.1 part.2).leaves List.singleton))
    (leaf : List String × Value) :
    leaf ∈ (unflattenEntries into parts).leaves List.singleton ↔
      leaf ∈ into.leaves List.singleton ∨
      ∃ part ∈ parts, leaf ∈ (strand part.1 part.2).leaves List.singleton := by
  induction parts generalizing into with
  | nil => simp [unflattenEntries]
  | cons part rest ih =>
    rw [List.flatMap_cons, ← List.append_assoc] at apart
    have first := mem_leaves_merge start (normal_strand part.1 part.2)
      (apart.subset fun _ member => List.mem_append_left _ member)
    have others : Apart ((into.merge (strand part.1 part.2)).leaves List.singleton ++
        rest.flatMap fun part => (strand part.1 part.2).leaves List.singleton) := by
      refine apart.subset fun leaf member => ?_
      rcases List.mem_append.mp member with merged | later
      · exact List.mem_append_left _ (List.mem_append.mpr ((first leaf).mp merged))
      · exact List.mem_append_right _ later
    rw [unflattenEntries_cons, ih (start.merge (normal_strand part.1 part.2)) others, first,
      or_assoc]
    simp only [List.mem_cons, exists_eq_or_imp]

/-! ## The leaves of an expanded tree -/

theorem expand_end (ends : value.isEnd = true) : expand value = value := by
  rcases Value.leaf_or_empty ends with leaf | rfl
  · exact expand_leaf leaf
  · have nothing : unflatten (ofMapping []) = ∅ := unflatten_of_isEmpty rfl
    rw [expand, nothing]
    rfl

theorem mem_valueLeaves_expand (legible : Throughout Spelled content)
    (apart : Apart (valueLeaves keyPath content))
    (inner : ∀ entries, content = .mapping entries → Legible (ofMapping entries) →
      Apart ((ofMapping entries).leaves keyPath) →
      ∀ leaf, leaf ∈ (unflatten (ofMapping entries)).leaves List.singleton ↔
        leaf ∈ (ofMapping entries).leaves keyPath)
    (leaf : List String × Value) :
    leaf ∈ valueLeaves List.singleton (expand content) ↔ leaf ∈ valueLeaves keyPath content := by
  cases ends : content.isEnd with
  | true => rw [expand_end ends, valueLeaves_end ends, valueLeaves_end ends]
  | false =>
    obtain ⟨entry, rest, rfl⟩ := Value.eq_inner ends
    have distinct := (throughout_mapping.mp legible).1.ordered
    rw [valueLeaves] at apart
    have kept := inner _ rfl (Legible.inner legible)
      (apart.subset fun leaf => (mem_leaves_ofMapping distinct leaf).mp)
    simp only [mem_leaves_ofMapping distinct] at kept
    obtain ⟨shown, there⟩ := exists_leaf keyPath (.mapping (entry :: rest))
    rw [valueLeaves] at there
    rw [expand, valueLeaves_toValue ((kept shown).mpr there), valueLeaves]
    exact kept leaf

theorem mem_leaves_unflatten (legible : Legible tree) (apart : Apart (tree.leaves keyPath))
    (leaf : List String × Value) :
    leaf ∈ (unflatten tree).leaves List.singleton ↔ leaf ∈ tree.leaves keyPath := by
  induction tree using inner_induction generalizing leaf with
  | above tree ih =>
    have strands (key : String) (content : Value) (found : tree.get? key = some content)
        (path : List String) (leaf : Value) :
        (path, leaf) ∈ (strand key content).leaves List.singleton ↔
          ∃ rest, path = keyPath key ++ rest ∧ (rest, leaf) ∈ valueLeaves keyPath content := by
      obtain ⟨full, below⟩ := legible_iff.mp legible key content found
      have under : Apart (valueLeaves keyPath content) :=
        apart.under (keyPath key) fun (rest, leaf) there =>
          mem_leaves.mpr ⟨key, content, rest, found, there, rfl⟩
      rw [strand, mem_leaves_branch full]
      simp only [mem_valueLeaves_expand below under fun entries same legible apart leaf =>
        ih key entries (same ▸ found) legible apart leaf]
    have all (leaf : List String × Value) :
        (∃ part ∈ tree.entries, leaf ∈ (strand part.1 part.2).leaves List.singleton) ↔
          leaf ∈ tree.leaves keyPath := by
      obtain ⟨path, leaf⟩ := leaf
      rw [mem_leaves]
      constructor
      · rintro ⟨⟨key, content⟩, member, there⟩
        have found := Dictionary.mem_entries_iff.mp member
        obtain ⟨rest, split, below⟩ := (strands key content found path leaf).mp there
        exact ⟨key, content, rest, found, below, split⟩
      · rintro ⟨key, content, rest, found, below, split⟩
        exact ⟨(key, content), Dictionary.mem_entries_iff.mpr found,
          (strands key content found path leaf).mpr ⟨rest, split, below⟩⟩
    have parts : Apart ((∅ : Overrides).leaves List.singleton ++
        tree.entries.flatMap fun part => (strand part.1 part.2).leaves List.singleton) :=
      apart.subset fun leaf member => (all leaf).mp (List.mem_flatMap.mp member)
    rw [unflatten, mem_leaves_unflattenEntries tree.entries normal_empty parts, all]
    simp

end Rollout.Overrides
