/-! Finite maps with text keys, in ascending order of the keys. -/

set_option autoImplicit false

namespace Rollout

structure Dictionary (α : Type) where
  entries : List (String × α)
  ascending : (entries.map (·.1)).Pairwise (· < ·)
  deriving Repr

namespace Dictionary

variable {α : Type}

instance : EmptyCollection (Dictionary α) := ⟨⟨[], .nil⟩⟩

instance : Inhabited (Dictionary α) := ⟨∅⟩

def insertEntry (key : String) (value : α) : List (String × α) → List (String × α)
  | [] => [(key, value)]
  | entry :: rest =>
    if key < entry.1 then (key, value) :: entry :: rest
    else if key = entry.1 then (key, value) :: rest
    else entry :: insertEntry key value rest

theorem mem_insertEntry_keys {key k : String} {value : α} {entries : List (String × α)}
    (h : k ∈ (insertEntry key value entries).map (·.1)) : k = key ∨ k ∈ entries.map (·.1) := by
  induction entries with
  | nil => simpa [insertEntry] using h
  | cons entry rest ih =>
    simp only [insertEntry] at h
    split at h
    · simpa using h
    · split at h
      · rename_i same
        simp only [List.map_cons, List.mem_cons] at h ⊢
        rcases h with rfl | h
        · exact .inl rfl
        · exact .inr (.inr h)
      · simp only [List.map_cons, List.mem_cons] at h ⊢
        rcases h with h | h
        · exact .inr (.inl h)
        · exact (ih h).imp_right .inr

theorem ascending_insertEntry (key : String) (value : α) {entries : List (String × α)}
    (h : (entries.map (·.1)).Pairwise (· < ·)) :
    ((insertEntry key value entries).map (·.1)).Pairwise (· < ·) := by
  induction entries with
  | nil => simp [insertEntry]
  | cons entry rest ih =>
    rw [List.map_cons, List.pairwise_cons] at h
    simp only [insertEntry]
    split
    · rename_i less
      rw [List.map_cons, List.pairwise_cons, List.map_cons, List.pairwise_cons]
      refine ⟨fun k hk => ?_, h⟩
      rcases List.mem_cons.1 hk with rfl | hk
      · exact less
      · exact String.lt_trans less (h.1 k hk)
    · split
      · rename_i same
        rw [List.map_cons, List.pairwise_cons]
        exact ⟨fun k hk => same ▸ h.1 k hk, h.2⟩
      · rename_i notLess differ
        rw [List.map_cons, List.pairwise_cons]
        refine ⟨fun k hk => ?_, ih h.2⟩
        rcases mem_insertEntry_keys hk with rfl | hk
        · exact String.not_le.1 fun le =>
            differ (String.le_antisymm le (String.not_lt.1 notLess))
        · exact h.1 k hk

def insert (key : String) (value : α) (d : Dictionary α) : Dictionary α :=
  ⟨insertEntry key value d.entries, ascending_insertEntry key value d.ascending⟩

def get? (d : Dictionary α) (key : String) : Option α :=
  d.entries.lookup key

def isEmpty (d : Dictionary α) : Bool :=
  d.entries.isEmpty

/-- Of entries with one key the last counts. -/
def ofList (entries : List (String × α)) : Dictionary α :=
  entries.foldl (fun d entry => d.insert entry.1 entry.2) ∅

def singleton (key : String) (value : α) : Dictionary α :=
  (∅ : Dictionary α).insert key value

theorem lookup_insertEntry (key k : String) (value : α) (entries : List (String × α)) :
    (insertEntry key value entries).lookup k =
      if k = key then some value else entries.lookup k := by
  induction entries with
  | nil => grind [insertEntry]
  | cons entry rest ih =>
    obtain ⟨first, content⟩ := entry
    simp only [insertEntry]
    grind

@[simp] theorem get?_insert (d : Dictionary α) (key k : String) (value : α) :
    (d.insert key value).get? k = if k = key then some value else d.get? k :=
  lookup_insertEntry key k value d.entries

@[simp] theorem get?_empty (k : String) : (∅ : Dictionary α).get? k = none := rfl

end Dictionary

end Rollout
