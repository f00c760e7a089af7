import Rollout.Overrides.Unflatten
import Rollout.Proofs.Overrides.MergeLaw

/-! Expanding dotted keys. Every key of a tree comes to a strand, which holds its value at the
end of the path that it spells, and the strands are laid over each other in the order of the
keys. So the last key that says anything of a path decides what stands there. -/

set_option autoImplicit false

namespace Rollout.Overrides

open Yaml

def expand : Value → Value
  | .mapping entries => (unflatten (ofMapping entries)).toValue
  | value => value

theorem expand_leaf {value : Value} (leaf : value.isMapping = false) : expand value = value := by
  cases value with
  | mapping entries => cases leaf
  | _ => rfl

def strand (key : String) (content : Value) : Overrides :=
  branch (keyPath key) (expand content)

/-- Of the keys that say anything of a path the last one says this value. -/
def LastWord (flat : Overrides) (path : List String) (value : Value) : Prop :=
  ∃ key content, flat.get? key = some content ∧ (strand key content).LeafAt path value ∧
    ∀ later other, key < later → flat.get? later = some other →
      (strand later other).Silent path

variable {flat into : Overrides} {path : List String} {value : Value}

theorem unflattenEntries_cons (into : Overrides) (key : String) (content : Value)
    (rest : List (String × Value)) :
    unflattenEntries into ((key, content) :: rest) =
      unflattenEntries (into.merge (strand key content)) rest := by
  cases content with
  | mapping entries =>
    rw [unflattenEntries, strand, expand, unflatten]
  | _ =>
    rw [unflattenEntries, strand, expand] <;> simp

theorem unflatten_singleton (key : String) (content : Value) :
    unflatten (Dictionary.singleton key content) = strand key content := by
  have entries : (Dictionary.singleton key content).entries = [(key, content)] := rfl
  rw [unflatten, entries, unflattenEntries_cons, unflattenEntries, empty_merge]

-- What was there before the entries counts as a word before all of them.
theorem leafAt_unflattenEntries (entries : List (String × Value)) (into : Overrides) :
    (unflattenEntries into entries).LeafAt path value ↔
      (∃ before key content after, entries = before ++ (key, content) :: after ∧
        (strand key content).LeafAt path value ∧
        ∀ later ∈ after, (strand later.1 later.2).Silent path) ∨
      into.LeafAt path value ∧ ∀ entry ∈ entries, (strand entry.1 entry.2).Silent path := by
  induction entries generalizing into with
  | nil => simp [unflattenEntries]
  | cons entry rest ih =>
    obtain ⟨key, content⟩ := entry
    rw [unflattenEntries_cons, ih, leafAt_merge, List.forall_mem_cons]
    constructor
    · rintro (⟨before, last, other, after, split, leaf, silent⟩ | ⟨leaf | ⟨leaf, first⟩, silent⟩)
      · exact .inl ⟨(key, content) :: before, last, other, after, by rw [split]; rfl, leaf, silent⟩
      · exact .inl ⟨[], key, content, rest, rfl, leaf, silent⟩
      · exact .inr ⟨leaf, first, silent⟩
    · rintro (⟨before, last, other, after, split, leaf, silent⟩ | ⟨leaf, first, silent⟩)
      · cases before with
        | nil =>
          cases split
          exact .inr ⟨.inl leaf, silent⟩
        | cons head before =>
          obtain ⟨-, tail⟩ := List.cons.inj split
          exact .inl ⟨before, last, other, after, tail, leaf, silent⟩
      · exact .inr ⟨.inr ⟨leaf, first⟩, silent⟩

theorem unflatten_of_isEmpty (empty : flat.isEmpty = true) : unflatten flat = ∅ := by
  rw [unflatten, List.isEmpty_iff.mp empty, unflattenEntries]

-- Entries stand in the order of their keys, so the entries behind one are those of the later
-- keys.
theorem leafAt_unflatten : (unflatten flat).LeafAt path value ↔ flat.LastWord path value := by
  rw [unflatten, leafAt_unflattenEntries]
  constructor
  · rintro (⟨before, key, content, after, split, leaf, silent⟩ | ⟨leaf, -⟩)
    · have found : flat.get? key = some content :=
        Dictionary.mem_entries_iff.mp (split ▸ by simp)
      refine ⟨key, content, found, leaf, fun later other greater there => ?_⟩
      have member := Dictionary.mem_entries_iff.mpr there
      have ascending := flat.ascending
      rw [split] at member ascending
      rw [List.map_append, List.pairwise_append] at ascending
      rcases List.mem_append.mp member with earlier | here
      · have smaller := ascending.2.2 _ (List.mem_map_of_mem earlier) key (by simp)
        exact absurd (String.lt_trans smaller greater) (String.lt_irrefl _)
      · rcases List.mem_cons.mp here with same | after
        · cases same
          exact absurd greater (String.lt_irrefl _)
        · exact silent _ after
    · cases leaf.1.symm.trans (read?_empty path)
  · rintro ⟨key, content, found, leaf, silent⟩
    obtain ⟨before, after, split, -, greater⟩ := Dictionary.split_of_get? found
    refine .inl ⟨before, key, content, after, split, leaf, fun later member => ?_⟩
    exact silent _ _ (greater later member)
      (Dictionary.mem_entries_iff.mp (split ▸ by simp [member]))

end Rollout.Overrides
