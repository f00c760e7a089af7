import Rollout.Dictionary
import Rollout.Text.Blank
import Rollout.Yaml.Render

/-! Values for charts: trees with text keys.

Mappings inside a tree keep the order of their entries and keys of any kind. Where the keys
matter they are taken as texts, and a mapping whose keys were taken so is in ascending order
from then on. -/

set_option autoImplicit false

namespace Rollout

open Yaml

abbrev Overrides := Dictionary Value

namespace Overrides

/-- A key as a text. Keys that are no scalars have the text that they would have as
documents, and an empty one if they have none. -/
def keyText : Value → String
  | .text s => s
  | .bool b => if b then "true" else "false"
  | .int n => toString n
  | .float x => x.toText
  | key => (key.render?.map Text.trim).getD ""

/-- A mapping with its keys as texts; of keys with one text the last counts. -/
def ofMapping (entries : List (Value × Value)) : Overrides :=
  Dictionary.ofList (entries.map fun entry => (keyText entry.1, entry.2))

def toMapping (tree : Overrides) : List (Value × Value) :=
  tree.entries.map fun entry => (.text entry.1, entry.2)

def toValue (tree : Overrides) : Value :=
  .mapping tree.toMapping

mutual

/-- How many mappings stand inside each other at most. What is inside of sequences and tags
belongs to no mapping around them. -/
def mappingDepth : Value → Nat
  | .mapping entries => entriesDepth entries + 1
  | _ => 0

def entriesDepth : List (Value × Value) → Nat
  | [] => 0
  | (_, value) :: rest => max (mappingDepth value) (entriesDepth rest)

end

def listDepth : List (String × Value) → Nat
  | [] => 0
  | (_, value) :: rest => max (mappingDepth value) (listDepth rest)

theorem listDepth_insertEntry (key : String) (value : Value) (entries : List (String × Value)) :
    listDepth (Dictionary.insertEntry key value entries) ≤
      max (mappingDepth value) (listDepth entries) := by
  induction entries with
  | nil => simp [Dictionary.insertEntry, listDepth]
  | cons entry rest ih =>
    obtain ⟨k, v⟩ := entry
    simp only [Dictionary.insertEntry]
    split
    · simp [listDepth]
    · split <;> simp only [listDepth] <;> omega

theorem listDepth_ofMapping (entries : List (Value × Value)) :
    listDepth (ofMapping entries).entries ≤ entriesDepth entries := by
  suffices h : ∀ (tree : Overrides),
      listDepth ((entries.map fun entry => (keyText entry.1, entry.2)).foldl
        (fun (d : Overrides) entry => d.insert entry.1 entry.2) tree).entries ≤
      max (listDepth tree.entries) (entriesDepth entries) by
    exact Nat.le_trans (h ∅) (Nat.max_le.2 ⟨Nat.zero_le _, Nat.le_refl _⟩)
  induction entries with
  | nil => simp [entriesDepth]
  | cons entry rest ih =>
    obtain ⟨k, v⟩ := entry
    intro tree
    have step := listDepth_insertEntry (keyText k) v tree.entries
    refine Nat.le_trans (ih (tree.insert (keyText k) v)) ?_
    simp only [entriesDepth, Dictionary.insert]
    omega

end Overrides

end Rollout
