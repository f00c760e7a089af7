import Rollout.Proofs.Overrides.Layers
import Rollout.Proofs.Overrides.Normal

/-! What a component gets at each path. Its own values go first, and the global ones fill in
where these are silent. Only the expanded trees count, however their keys were spelled. -/

set_option autoImplicit false

namespace Rollout

open Yaml Overrides

variable {tree : Overrides} {path : List String} {file : OverridesFile} {component : String}

namespace Overrides

theorem silent_iff_no_leaf : tree.Silent path ↔ tree.read? path = none ∧
    ∀ front, front <+: path → front ≠ path → ∀ cut, ¬ tree.LeafAt front cut := by
  constructor
  · rintro ⟨nothing, uncut⟩
    refine ⟨nothing, fun front ahead shorter cut leaf => ?_⟩
    have mapping := uncut front ahead shorter cut leaf.1
    simp [leaf.2] at mapping
  · rintro ⟨nothing, uncut⟩
    refine ⟨nothing, fun front ahead shorter value there => ?_⟩
    cases mapping : value.isMapping with
    | true => rfl
    | false => exact absurd ⟨there, mapping⟩ (uncut front ahead shorter value)

end Overrides

namespace OverridesFile

/-- The values of a component's own section, expanded; there are none without a section. -/
def own (file : OverridesFile) (component : String) : Overrides :=
  unflatten ((file.sections.get? component).getD ∅)

theorem own_none (unlisted : file.sections.get? component = none) : file.own component = ∅ := by
  rw [own, unlisted]
  exact unflatten_of_isEmpty rfl

theorem own_some {values : Overrides} (listed : file.sections.get? component = some values) :
    file.own component = unflatten values := by
  simp [own, listed]

theorem resolve_eq (file : OverridesFile) (component : String) :
    file.resolve component = file.shared.merge (file.own component) := by
  cases listed : file.sections.get? component with
  | none => simp [own_none listed, resolve, listed, shared]
  | some values => simp [own_some listed, resolve, listed, shared]

theorem normal_shared (file : OverridesFile) : Normal file.shared := by
  unfold shared
  split
  · exact normal_empty
  · apply normal_singleton
    · decide
    · exact normal_unflatten file.global

/-- A value that a component gets is one of its own, or a global one of which its own values say
nothing: there is none in its place, and none on the way to it. The tree is normal. The section of
the component counts only by what it comes to when expanded, and other sections do not count. -/
theorem own_values_first (file : OverridesFile) (component : String) :
    (∀ path value, (file.resolve component).LeafAt path value ↔
      (file.own component).LeafAt path value ∨
      ∃ rest, rest ≠ [] ∧ path = globalKey :: rest ∧ (unflatten file.global).LeafAt rest value ∧
        (file.own component).read? path = none ∧
        ∀ front, front <+: path → front ≠ path →
          ∀ cut, ¬ (file.own component).LeafAt front cut) ∧
    Normal (file.resolve component) ∧
    ∀ other : OverridesFile, other.global = file.global →
      other.own component = file.own component →
      other.resolve component = file.resolve component := by
  refine ⟨?leaves, ?normal, ?spelling⟩
  case leaves =>
    intro path value
    rw [resolve_eq, leafAt_merge, leafAt_shared, silent_iff_no_leaf]
    constructor
    · rintro (own | ⟨⟨rest, rfl, leaf⟩, silent⟩)
      · exact .inl own
      · refine .inr ⟨rest, ?_, rfl, leaf, silent⟩
        rintro rfl
        exact not_leafAt_nil leaf
    · rintro (own | ⟨rest, -, same, leaf, silent⟩)
      · exact .inl own
      · exact .inr ⟨⟨rest, same, leaf⟩, silent⟩
  case normal =>
    rw [resolve_eq]
    exact (normal_shared file).merge (normal_unflatten _)
  case spelling =>
    intro other shared own
    rw [resolve_eq, resolve_eq, own, OverridesFile.shared, OverridesFile.shared, shared]

/-! ## A global value in three spellings -/

def spellings : OverridesFile where
  global := Dictionary.ofList [("domain", .text "local"), ("tls.version", .int 2)]
  sections := Dictionary.ofList [
    ("dotted", Dictionary.singleton "global.domain" (.text "own")),
    ("nested", Dictionary.singleton "global" (.mapping [(.text "domain", .text "own")])),
    ("replaced", Dictionary.singleton "global" (.bool false))]

theorem leafAt_version : (unflatten spellings.global).LeafAt ["tls", "version"] (.int 2) := by
  refine leafAt_unflatten.mpr ⟨"tls.version", .int 2, ?found, ?leaf, ?last⟩
  case found => simp [spellings, Dictionary.ofList]
  case leaf =>
    exact (leafAt_singleton "tls" (Dictionary.singleton "version" (.int 2))).mpr
      ⟨["version"], rfl, by simp, rfl⟩
  case last =>
    intro later content greater found
    have entries : spellings.global.entries =
        [("domain", .text "local"), ("tls.version", .int 2)] := rfl
    have member := Dictionary.mem_entries_iff.mpr found
    rw [entries] at member
    simp only [List.mem_cons, Prod.mk.injEq, List.not_mem_nil, or_false] at member
    rcases member with ⟨rfl, -⟩ | ⟨rfl, -⟩ <;> exact absurd greater (by decide)

theorem own_dotted : spellings.own "dotted" =
    Dictionary.singleton "global" (.mapping [(.text "domain", .text "own")]) := by
  have listed : spellings.sections.get? "dotted" =
      some (Dictionary.singleton "global.domain" (.text "own")) := by
    simp [spellings, Dictionary.ofList]
  rw [own_some listed, unflatten_singleton]
  rfl

theorem own_nested {file : OverridesFile} {component : String}
    (listed : file.sections.get? component =
      some (Dictionary.singleton "global" (.mapping [(.text "domain", .text "own")]))) :
    file.own component =
      Dictionary.singleton "global" (.mapping [(.text "domain", .text "own")]) := by
  have normal : Normal
      (Dictionary.singleton "global" (.mapping [(.text "domain", .text "own")])) := by decide
  rw [own_some listed, normal.unflatten_eq]

theorem own_replaced : spellings.own "replaced" = Dictionary.singleton "global" (.bool false) := by
  have listed : spellings.sections.get? "replaced" =
      some (Dictionary.singleton "global" (.bool false)) := by
    simp [spellings, Dictionary.ofList]
  rw [own_some listed, unflatten_singleton]
  rfl

/-- The section with the mapping does the same as that with the dotted key. Beside it the other
global value stands, and both are gone where a value takes the place of all. -/
theorem own_values_first_spellings :
    ({ spellings with sections := Dictionary.singleton "dotted" (Dictionary.singleton "global"
        (.mapping [(.text "domain", .text "own")])) } : OverridesFile).resolve "dotted" =
      spellings.resolve "dotted" ∧
    (spellings.resolve "dotted").LeafAt ["global", "domain"] (.text "own") ∧
    (spellings.resolve "nested").LeafAt ["global", "tls", "version"] (.int 2) ∧
    ¬ (spellings.resolve "replaced").LeafAt ["global", "tls", "version"] (.int 2) ∧
    Normal (spellings.resolve "replaced") := by
  obtain ⟨dotted, -, spelled⟩ := own_values_first spellings "dotted"
  obtain ⟨nested, -, -⟩ := own_values_first spellings "nested"
  obtain ⟨replaced, normal, -⟩ := own_values_first spellings "replaced"
  refine ⟨spelled _ rfl ?same, (dotted _ _).mpr (.inl ?own),
    (nested _ _).mpr (.inr ⟨_, by decide, rfl, leafAt_version, ?stands⟩), ?gone, normal⟩
  case same =>
    rw [own_dotted]
    exact own_nested (Dictionary.get?_singleton_iff.mpr ⟨rfl, rfl⟩)
  case own =>
    rw [own_dotted]
    exact (leafAt_singleton "global" (Dictionary.singleton "domain" (.text "own"))).mpr
      ⟨["domain"], rfl, by simp, rfl⟩
  case stands =>
    have listed : spellings.sections.get? "nested" = some (Dictionary.singleton "global"
        (.mapping [(.text "domain", .text "own")])) := by
      simp [spellings, Dictionary.ofList]
    rw [own_nested listed]
    exact silent_iff_no_leaf.mp ((silent_mapping rfl).mpr (silent_none rfl))
  case gone =>
    have switch : (spellings.own "replaced").get? "global" = some (.bool false) := by
      rw [own_replaced]
      simp
    intro leaf
    rcases (replaced _ _).mp leaf with own | ⟨_, _, _, _, _, uncut⟩
    · have cut : ∀ entries, (spellings.own "replaced").get? "global" ≠ some (.mapping entries) := by
        intro entries found
        cases switch.symm.trans found
      cases (read?_below cut).symm.trans own.1
    · exact uncut ["global"] ⟨_, rfl⟩ (by decide) (.bool false) ⟨switch, rfl⟩

end OverridesFile

end Rollout
