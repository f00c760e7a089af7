import Rollout.Proofs.Overrides.KeyPath
import Rollout.Proofs.Overrides.Plain
import Rollout.Proofs.Text.Order

/-! Normal trees: all keys are steps of paths, and mappings stand in the order of their keys.
Expanding a tree gives a normal one, and changes nothing in one that is normal already. -/

set_option autoImplicit false

namespace Rollout.Overrides

open Yaml

mutual

/-- A condition on the entries of every mapping that is reached through mappings. -/
def Throughout (ok : List (Value × Value) → Prop) : Value → Prop
  | .mapping entries => ok entries ∧ ThroughoutAll ok entries
  | _ => True

def ThroughoutAll (ok : List (Value × Value) → Prop) : List (Value × Value) → Prop
  | [] => True
  | (_, content) :: rest => Throughout ok content ∧ ThroughoutAll ok rest

end

mutual

def decideThroughout (ok : List (Value × Value) → Prop) [DecidablePred ok] :
    (value : Value) → Decidable (Throughout ok value)
  | .mapping entries =>
    have := decideThroughoutAll ok entries
    inferInstanceAs (Decidable (ok entries ∧ ThroughoutAll ok entries))
  | .null | .bool _ | .int _ | .float _ | .text _ | .sequence _ | .tagged _ _ => .isTrue trivial

def decideThroughoutAll (ok : List (Value × Value) → Prop) [DecidablePred ok] :
    (entries : List (Value × Value)) → Decidable (ThroughoutAll ok entries)
  | [] => .isTrue trivial
  | (_, content) :: rest =>
    have := decideThroughout ok content
    have := decideThroughoutAll ok rest
    inferInstanceAs (Decidable (Throughout ok content ∧ ThroughoutAll ok rest))

end

instance (ok : List (Value × Value) → Prop) [DecidablePred ok] : DecidablePred (Throughout ok) :=
  decideThroughout ok

section
variable {ok : List (Value × Value) → Prop} {entries : List (Value × Value)} {value : Value}

theorem throughoutAll_iff :
    ThroughoutAll ok entries ↔ ∀ entry ∈ entries, Throughout ok entry.2 := by
  induction entries with
  | nil => simp [ThroughoutAll]
  | cons entry rest ih => rw [ThroughoutAll, ih, List.forall_mem_cons]

theorem throughout_mapping : Throughout ok (.mapping entries) ↔
    ok entries ∧ ∀ entry ∈ entries, Throughout ok entry.2 := by
  rw [Throughout, throughoutAll_iff]

theorem throughout_leaf (leaf : value.isMapping = false) : Throughout ok value := by
  cases value with
  | mapping entries => cases leaf
  | _ => trivial

theorem Throughout.mono {weaker : List (Value × Value) → Prop}
    (implies : ∀ entries, ok entries → weaker entries) (all : Throughout ok value) :
    Throughout weaker value := by
  induction value using Value.mapping_induction with
  | leaf value kind => exact throughout_leaf kind
  | mapping entries ih =>
    obtain ⟨here, below⟩ := throughout_mapping.mp all
    exact throughout_mapping.mpr
      ⟨implies entries here, fun entry member => ih entry member (below entry member)⟩

end

/-- Conditions on the keys of a mapping: on each, and on any two in their order. -/
structure Keyed (each : Value → Prop) (order : Value → Value → Prop)
    (entries : List (Value × Value)) : Prop where
  keys : ∀ entry ∈ entries, each entry.1
  ordered : entries.Pairwise fun one other => order one.1 other.1

instance (each : Value → Prop) (order : Value → Value → Prop) [DecidablePred each]
    [DecidableRel order] : DecidablePred (Keyed each order) := fun entries =>
  decidable_of_iff ((∀ entry ∈ entries, each entry.1) ∧
    entries.Pairwise fun one other => order one.1 other.1)
    ⟨fun ⟨keys, ordered⟩ => ⟨keys, ordered⟩, fun keyed => ⟨keyed.keys, keyed.ordered⟩⟩

variable {tree lower upper into : Overrides} {key : String} {content value : Value}
  {entries : List (Value × Value)} {path : List String}

theorem mem_toMapping {spelled : Value} : (spelled, content) ∈ tree.toMapping ↔
    ∃ key, spelled = .text key ∧ tree.get? key = some content := by
  simp only [toMapping, List.mem_map, Prod.mk.injEq, Prod.exists, Dictionary.mem_entries_iff]
  constructor
  · rintro ⟨key, _, found, rfl, rfl⟩
    exact ⟨key, rfl, found⟩
  · rintro ⟨key, rfl, found⟩
    exact ⟨key, content, found, rfl, rfl⟩

/-- The entries of a tree are in order by themselves, so that a condition on all its mappings is
one on its keys and on what stands under them. -/
theorem throughout_toValue {each : Value → Prop} {order : Value → Value → Prop}
    (ordered : ∀ one other : String, one < other → order (.text one) (.text other)) :
    Throughout (Keyed each order) tree.toValue ↔ ∀ key content, tree.get? key = some content →
      each (.text key) ∧ Throughout (Keyed each order) content := by
  rw [toValue, throughout_mapping]
  constructor
  · rintro ⟨keyed, below⟩ key content found
    have member : (.text key, content) ∈ tree.toMapping := mem_toMapping.mpr ⟨key, rfl, found⟩
    exact ⟨keyed.keys _ member, below _ member⟩
  · intro all
    refine ⟨⟨?keys, ?ordered⟩, ?below⟩
    case keys =>
      rintro ⟨spelled, content⟩ member
      obtain ⟨key, rfl, found⟩ := mem_toMapping.mp member
      exact (all key content found).1
    case ordered =>
      exact List.pairwise_map.mpr (tree.ascending_entries.imp (ordered _ _))
    case below =>
      rintro ⟨spelled, content⟩ member
      obtain ⟨key, rfl, found⟩ := mem_toMapping.mp member
      exact (all key content found).2

def IsTextStep (spelled : Value) : Prop :=
  ∃ key, spelled = .text key ∧ IsStep key

instance : DecidablePred IsTextStep
  | .text key => decidable_of_iff (IsStep key) (by simp [IsTextStep])
  | .null | .bool _ | .int _ | .float _ | .mapping _ | .sequence _ | .tagged _ _ =>
    .isFalse (by simp [IsTextStep])

/-- The entries of a mapping in normal form: keys that are steps, in the order of their bytes. -/
abbrev Tidy : List (Value × Value) → Prop :=
  Keyed IsTextStep fun one other => Text.encode (keyText one) < Text.encode (keyText other)

/-- All mappings that are reached through mappings are in normal form. -/
def Normal (tree : Overrides) : Prop :=
  Throughout Tidy tree.toValue

instance (tree : Overrides) : Decidable (Normal tree) :=
  inferInstanceAs (Decidable (Throughout Tidy tree.toValue))

theorem normal_iff : Normal tree ↔ ∀ key content, tree.get? key = some content →
    IsStep key ∧ Throughout Tidy content := by
  rw [Normal, throughout_toValue fun _ _ => Text.encode_lt_iff.mpr]
  simp [IsTextStep]

theorem toMapping_ofMapping (tidy : Tidy entries) :
    (ofMapping entries).toMapping = entries := by
  have ascending : ((entries.map fun entry => (keyText entry.1, entry.2)).map (·.1)).Pairwise
      (· < ·) := by
    rw [List.map_map]
    exact List.pairwise_map.mpr (tidy.ordered.imp Text.encode_lt_iff.mp)
  rw [toMapping, ofMapping, Dictionary.entries_ofList ascending, List.map_map]
  refine (List.map_congr_left ?_).trans (List.map_id _)
  rintro ⟨spelled, content⟩ member
  obtain ⟨key, text, -⟩ := tidy.keys _ member
  cases text
  rfl

theorem throughout_tidy_mapping : Throughout Tidy (.mapping entries) ↔
    ∃ below : Overrides, entries = below.toMapping ∧ Normal below := by
  constructor
  · intro tidy
    have same := toMapping_ofMapping (throughout_mapping.mp tidy).1
    refine ⟨ofMapping entries, same.symm, ?_⟩
    rwa [Normal, toValue, same]
  · rintro ⟨below, rfl, normal⟩
    exact normal

theorem Normal.isStep (normal : Normal tree) (found : tree.get? key = some content) : IsStep key :=
  (normal_iff.mp normal key content found).1

theorem Normal.inner (normal : Normal tree) (found : tree.get? key = some (.mapping entries)) :
    (ofMapping entries).toMapping = entries ∧ Normal (ofMapping entries) := by
  obtain ⟨below, rfl, inner⟩ := throughout_tidy_mapping.mp (normal_iff.mp normal key _ found).2
  rw [ofMapping_toMapping]
  exact ⟨rfl, inner⟩

/-! ## What makes normal trees -/

theorem normal_empty : Normal ∅ :=
  normal_iff.mpr fun _ _ found => nomatch found

theorem normal_singleton (step : IsStep key) (tidy : Throughout Tidy content) :
    Normal (Dictionary.singleton key content) := by
  refine normal_iff.mpr fun other value found => ?_
  obtain ⟨rfl, rfl⟩ := Dictionary.get?_singleton_iff.mp found
  exact ⟨step, tidy⟩

theorem normal_branch (steps : ∀ step ∈ path, IsStep step) (tidy : Throughout Tidy content) :
    Normal (branch path content) := by
  induction path with
  | nil => exact normal_empty
  | cons first rest ih =>
    rw [List.forall_mem_cons] at steps
    cases rest with
    | nil => exact normal_singleton steps.1 tidy
    | cons next rest => exact normal_singleton steps.1 (ih steps.2)

theorem Normal.merge (first : Normal lower) (second : Normal upper) :
    Normal (lower.merge upper) := by
  -- on the tree above, because a mapping of it decides where the merge goes on
  induction upper using inner_induction generalizing lower with
  | above upper ih =>
    refine normal_iff.mpr fun key content found => ?_
    rcases get?_merge_cases found with ⟨-, below⟩ | above | ⟨existing, incoming, below, above, rfl⟩
    · exact normal_iff.mp first key content below
    · exact normal_iff.mp second key content above
    · exact ⟨second.isStep above,
        ih key incoming above (first.inner below).2 (second.inner above).2⟩

theorem normal_strand_of_tidy (key : String) (tidy : Throughout Tidy (expand content)) :
    Normal (strand key content) :=
  normal_branch (fun _ member => isStep_of_mem_keyPath member) tidy

theorem normal_unflattenEntries (entries : List (String × Value)) (start : Normal into)
    (tidy : ∀ entry ∈ entries, Throughout Tidy (expand entry.2)) :
    Normal (unflattenEntries into entries) := by
  induction entries generalizing into with
  | nil => rwa [unflattenEntries]
  | cons entry rest ih =>
    rw [List.forall_mem_cons] at tidy
    rw [unflattenEntries_cons]
    exact ih (start.merge (normal_strand_of_tidy entry.1 tidy.1)) tidy.2

theorem tidy_expand_of_inner
    (inner : ∀ entries, content = .mapping entries → Normal (unflatten (ofMapping entries))) :
    Throughout Tidy (expand content) := by
  cases leaf : content.isMapping with
  | false =>
    rw [expand_leaf leaf]
    exact throughout_leaf leaf
  | true =>
    obtain ⟨entries, same⟩ := Value.eq_mapping leaf
    have normal := inner entries same
    rw [same]
    exact normal

theorem normal_unflatten (tree : Overrides) : Normal (unflatten tree) := by
  induction tree using inner_induction with
  | above tree ih =>
    refine normal_unflattenEntries tree.entries normal_empty fun (key, content) member => ?_
    have found := Dictionary.mem_entries_iff.mp member
    exact tidy_expand_of_inner fun entries same => ih key entries (same ▸ found)

theorem tidy_expand (content : Value) : Throughout Tidy (expand content) :=
  tidy_expand_of_inner fun entries _ => normal_unflatten (ofMapping entries)

theorem normal_strand (key : String) (content : Value) : Normal (strand key content) :=
  normal_strand_of_tidy key (tidy_expand content)

/-! ## What expanding leaves of normal trees -/

theorem Normal.unflatten_eq (normal : Normal tree) : unflatten tree = tree := by
  induction tree using inner_induction with
  | above tree ih =>
    refine Dictionary.eq_of_get? fun key => ?_
    rw [get?_unflatten_plain fun _ _ found => keyPath_of_isStep (normal.isStep found)]
    cases found : tree.get? key with
    | none => rfl
    | some content =>
      refine congrArg some ?_
      cases leaf : content.isMapping with
      | false => exact expand_leaf leaf
      | true =>
        obtain ⟨entries, rfl⟩ := Value.eq_mapping leaf
        obtain ⟨same, inner⟩ := normal.inner found
        rw [expand, ih key entries found inner, toValue, same]

/-- Expanding gives a normal tree, and the normal trees are those that it leaves as they are. So
nothing else comes of it, and doing it again changes nothing. -/
theorem unflatten_normalizes (tree : Overrides) :
    Normal (unflatten tree) ∧ (unflatten tree = tree ↔ Normal tree) ∧
    ((∃ flat, unflatten flat = tree) ↔ Normal tree) ∧
    unflatten (unflatten tree) = unflatten tree := by
  refine ⟨normal_unflatten tree, ?fixed, ?image, (normal_unflatten tree).unflatten_eq⟩
  case fixed => exact ⟨fun same => same ▸ normal_unflatten tree, Normal.unflatten_eq⟩
  case image =>
    constructor
    · rintro ⟨flat, rfl⟩
      exact normal_unflatten flat
    · exact fun normal => ⟨tree, normal.unflatten_eq⟩

end Rollout.Overrides
