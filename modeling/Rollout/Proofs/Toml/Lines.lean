import Mathlib.Tactic.SplitIfs
import Rollout.Proofs.Toml.Quoted
import Rollout.Proofs.Toml.Scalar
import Rollout.Toml.Table

/-! A document of lines that each give one key a value: what is read are the keys with their
values, in the order of the lines. -/

set_option autoImplicit false

namespace Rollout.Toml

variable {tableOf : TableOf} {c x : Char} {written text tail rest : List Char} {value : Value}

theorem cons_ne (apart : c ≠ x) (tail rest : List Char) : c :: tail ≠ x :: rest :=
  fun same => apart (List.cons.inj same).1

/-! ## Values -/

/-- What is written stands for a value, if the line ends behind it. -/
structure Spells (written : List Char) (value : Value) : Prop where
  spaceless : ∀ rest, dropSpaces (written ++ '\n' :: rest) = written ++ '\n' :: rest
  reads : ∀ (tableOf : TableOf) (fuel depth : Nat) (rest : List Char),
    takeValue tableOf (fuel + 1) depth (written ++ '\n' :: rest) = some (value, '\n' :: rest)

theorem dropSpaces_cons (apart : isSpace c = false) : dropSpaces (c :: tail) = c :: tail :=
  List.dropWhile_cons_of_neg (by simp [apart])

theorem head_quoted (text : List Char) :
    (∃ tail, quoted text = '"' :: tail) ∨ ∃ tail, quoted text = '\'' :: tail := by
  unfold quoted
  split
  · exact .inl ⟨_, rfl⟩
  · exact .inr ⟨_, rfl⟩
  · exact .inl ⟨_, rfl⟩
  · exact .inr ⟨_, rfl⟩

theorem spells_quoted (text : String) : Spells (quoted text.toList) (.text text) := by
  have read (rest : List Char) :
      takeQuoted (quoted text.toList ++ '\n' :: rest) = some (text.toList, '\n' :: rest) :=
    takeQuoted_quoted text.toList rfl rfl
  constructor
  case spaceless =>
    intro rest
    rcases head_quoted text.toList with ⟨tail, here⟩ | ⟨tail, here⟩
    · rw [here]
      exact dropSpaces_cons rfl
    · rw [here]
      exact dropSpaces_cons rfl
  case reads =>
    intro tableOf fuel depth rest
    have whole := read rest
    rcases head_quoted text.toList with ⟨tail, here⟩ | ⟨tail, here⟩
    · rw [here, List.cons_append] at whole ⊢
      rw [takeValue.eq_2, whole, Option.map_some, String.ofList_toList]
    · rw [here, List.cons_append] at whole ⊢
      rw [takeValue.eq_3, whole, Option.map_some, String.ofList_toList]

theorem spells_word {n : Nat} (small : n < 1 <<< 63) : Spells (toString n).toList (.integer n) := by
  have chars : (toString n).toList = Nat.toDigits 10 n := by
    rw [Nat.toString_eq_repr, Nat.toList_repr]
  have read := takeNumeral_toDigits small
  have all : ∀ c ∈ Nat.toDigits 10 n, c.isDigit = true := isDigit_toDigits
  have nonempty : Nat.toDigits 10 n ≠ [] := Nat.toDigits_ne_nil
  rw [chars]
  generalize Nat.toDigits 10 n = digits at read all nonempty
  cases digits with
  | nil => exact absurd rfl nonempty
  | cons digit digits =>
    have apart {x : Char} (other : x.isDigit = false) : digit ≠ x :=
      ne_of_isDigit (all digit List.mem_cons_self) other
    constructor
    case spaceless =>
      intro rest
      refine dropSpaces_cons ?_
      simp [isSpace, apart]
    case reads =>
      intro tableOf fuel depth rest
      rw [List.cons_append, takeValue.eq_8 _ _ _ _ (cons_ne (apart rfl) _) (cons_ne (apart rfl) _)
        (cons_ne (apart rfl) _) (cons_ne (apart rfl) _) (fun _ => cons_ne (apart rfl) _ _)
        (fun _ => cons_ne (apart rfl) _ _)]
      exact read rest

/-! ## Lines -/

structure Field where
  name : String
  written : List Char
  value : Value

namespace Field

variable (field : Field)

def line : List Char :=
  field.name.toList ++ [' ', '=', ' '] ++ field.written ++ ['\n']

def statement : Statement :=
  .pair [field.name] field.value

structure Sound : Prop where
  named : field.name.toList.isEmpty = false
  bare : field.name.toList.all isBareKeyChar = true
  spells : Spells field.written field.value

end Field

variable {field : Field}

theorem ne_of_bare (bare : isBareKeyChar c = true) (other : isBareKeyChar x = false) : c ≠ x := by
  rintro rfl
  rw [bare] at other
  cases other

theorem Field.Sound.exists_head (sound : field.Sound) :
    ∃ c tail, field.name.toList = c :: tail ∧ isBareKeyChar c = true := by
  have named := sound.named
  have bare := sound.bare
  cases name : field.name.toList with
  | nil =>
    rw [name] at named
    cases named
  | cons c tail =>
    rw [name, List.all_cons, Bool.and_eq_true] at bare
    exact ⟨c, tail, rfl, bare.1⟩

theorem Field.Sound.spaceless (sound : field.Sound) (rest : List Char) :
    dropSpaces (field.name.toList ++ rest) = field.name.toList ++ rest := by
  obtain ⟨c, tail, name, bare⟩ := sound.exists_head
  have apart : c ≠ ' ' ∧ c ≠ '\t' := ⟨ne_of_bare bare rfl, ne_of_bare bare rfl⟩
  rw [name]
  exact dropSpaces_cons (by simp [isSpace, apart])

theorem Field.Sound.takeKeyPart (sound : field.Sound) (rest : List Char) :
    takeKeyPart (field.name.toList ++ ' ' :: rest) = some (field.name, ' ' :: rest) := by
  obtain ⟨c, tail, name, bare⟩ := sound.exists_head
  have taken : (field.name.toList ++ ' ' :: rest).takeWhile isBareKeyChar = field.name.toList := by
    rw [List.takeWhile_append_of_pos (List.all_eq_true.mp sound.bare)]
    exact List.append_nil _
  have dropped : (field.name.toList ++ ' ' :: rest).dropWhile isBareKeyChar = ' ' :: rest := by
    rw [List.dropWhile_append_of_pos (List.all_eq_true.mp sound.bare)]
    rfl
  rw [takeKeyPart.eq_3, taken, dropped, sound.named, if_neg Bool.false_ne_true,
    String.ofList_toList]
  · rw [name]
    exact cons_ne (ne_of_bare bare rfl) _
  · rw [name]
    exact cons_ne (ne_of_bare bare rfl) _

theorem Field.Sound.takeKey (sound : field.Sound) (fuel : Nat) (rest : List Char) :
    takeKey (fuel + 1) (field.name.toList ++ ' ' :: '=' :: rest) =
      some ([field.name], '=' :: rest) := by
  rw [Toml.takeKey, sound.spaceless]
  refine Option.bind_eq_some_iff.mpr ⟨_, sound.takeKeyPart ('=' :: rest), ?_⟩
  rfl

/-- A line is read as its key with its value. -/
theorem Field.Sound.takeStatement (sound : field.Sound) (tableOf : TableOf) (rest : List Char) :
    takeStatement tableOf (field.line ++ rest) = some (field.statement, '\n' :: rest) := by
  obtain ⟨c, tail, name, bare⟩ := sound.exists_head
  have shown : field.line ++ rest =
      field.name.toList ++ ' ' :: '=' :: ' ' :: (field.written ++ '\n' :: rest) := by
    simp [line]
  have head : field.line ++ rest = c :: (tail ++ ' ' :: '=' :: ' ' ::
      (field.written ++ '\n' :: rest)) := by
    rw [shown, name, List.cons_append]
  have key := sound.takeKey (tail ++ ' ' :: '=' :: ' ' :: (field.written ++ '\n' :: rest)).length
    (' ' :: (field.written ++ '\n' :: rest))
  rw [← shown, head] at key
  rw [head, takeStatement.eq_3 _ _ (fun _ => cons_ne (ne_of_bare bare rfl) _ _)
    (cons_ne (ne_of_bare bare rfl) _), List.length_cons]
  refine Option.bind_eq_some_iff.mpr ⟨_, key, ?_⟩
  have spaceless : dropSpaces (' ' :: (field.written ++ '\n' :: rest)) =
    field.written ++ '\n' :: rest := sound.spells.spaceless rest
  have short : ¬ nestingLimit < [field.name].length := by simp [nestingLimit]
  simp only [short, if_false, spaceless]
  exact Option.bind_eq_some_iff.mpr ⟨_, sound.spells.reads _ _ _ rest, rfl⟩

theorem statements?_field (sound : field.Sound) (tableOf : TableOf) (fuel : Nat)
    (rest : List Char) : statements? tableOf (fuel + 1) (field.line ++ rest) =
      (statements? tableOf fuel rest).map (field.statement :: ·) := by
  have read := sound.takeStatement tableOf rest
  obtain ⟨c, tail, name, bare⟩ := sound.exists_head
  have head : field.line ++ rest =
      c :: (tail ++ [' ', '=', ' '] ++ field.written ++ ['\n'] ++ rest) := by
    rw [Field.line, name]
    rfl
  have spaceless : dropSpaces (field.line ++ rest) = field.line ++ rest := by
    rw [Field.line, List.append_assoc, List.append_assoc, List.append_assoc]
    exact sound.spaceless _
  rw [statements?.eq_2, spaceless]
  split
  case h_1 same => cases head.symm.trans same
  case h_2 same => exact absurd (head.symm.trans same) (cons_ne (ne_of_bare bare rfl) _ _)
  case h_3 same => exact absurd (head.symm.trans same) (cons_ne (ne_of_bare bare rfl) _ _)
  case h_4 same => exact absurd (head.symm.trans same) (cons_ne (ne_of_bare bare rfl) _ _)
  case h_5 =>
    rw [read]
    change (statements? tableOf fuel rest).bind (fun others => some (field.statement :: others)) = _
    cases statements? tableOf fuel rest <;> rfl

theorem statements?_fields {fields : List Field} (sound : ∀ field ∈ fields, field.Sound)
    (tableOf : TableOf) {fuel : Nat} (enough : fields.length < fuel) :
    statements? tableOf fuel (fields.flatMap Field.line) = some (fields.map Field.statement) := by
  induction fields generalizing fuel with
  | nil =>
    cases fuel with
    | zero => exact absurd enough (Nat.not_lt_zero _)
    | succ fuel => rfl
  | cons field fields ih =>
    obtain ⟨here, others⟩ := List.forall_mem_cons.mp sound
    cases fuel with
    | zero => exact absurd enough (Nat.not_lt_zero _)
    | succ fuel =>
      rw [List.flatMap_cons, statements?_field here, ih others (Nat.lt_of_succ_lt_succ enough)]
      rfl

/-! ## The table -/

open Item

theorem put_new {entries : Entries} {key : String} (fresh : key ∉ entries.map Prod.fst)
    (item : Item) : put key item entries = entries ++ [(key, item)] := by
  induction entries with
  | nil => rfl
  | cons entry entries ih =>
    rw [List.map_cons, List.mem_cons, not_or] at fresh
    rw [put, if_neg fresh.1, ih fresh.2, List.cons_append]

theorem build_fields (fields : List Field) {entries : Entries}
    (distinct : (entries.map Prod.fst ++ fields.map Field.name).Nodup) :
    build entries [] (fields.map Field.statement) =
      some (entries ++ fields.map fun field => (field.name, Item.leaf field.value)) := by
  induction fields generalizing entries with
  | nil => simp [build]
  | cons field fields ih =>
    have split : (entries.map Prod.fst ++ [field.name] ++ fields.map Field.name).Nodup := by
      rw [List.append_assoc]
      exact distinct
    have fresh : field.name ∉ entries.map Prod.fst := fun member =>
      (List.nodup_append.mp distinct).2.2 _ member _ List.mem_cons_self rfl
    have none : lookup? entries field.name = none := by
      refine List.lookup_eq_none_iff.mpr fun entry member => bne_iff_ne.mpr ?_
      exact fun same => fresh (same ▸ List.mem_map_of_mem member)
    have assigned : assignUnder entries [] [field.name] field.value =
        some (entries ++ [(field.name, .leaf field.value)]) := by
      rw [assignUnder, assign, none, put_new fresh]
    rw [List.map_cons, Field.statement, build, assigned, Option.bind_eq_bind, Option.bind_some, ih]
    · rw [List.append_assoc]
      rfl
    · rw [List.map_append]
      exact split

theorem entryValues_fields (fields : List Field) :
    entryValues (fields.map fun field => (field.name, Item.leaf field.value)) =
      fields.map fun field => (field.name, field.value) := by
  induction fields with
  | nil => rfl
  | cons field fields ih => rw [List.map_cons, entryValues, ih, toValue, List.map_cons]

theorem length_flatMap_line (fields : List Field) :
    fields.length ≤ (fields.flatMap Field.line).length := by
  induction fields with
  | nil => exact Nat.le_refl 0
  | cons field fields ih =>
    rw [List.flatMap_cons, List.length_append, List.length_cons, Field.line, List.length_append,
      List.length_singleton]
    omega

/-- A document of such lines holds their values, if no key has two of them. -/
theorem parse?_fields {fields : List Field} (sound : ∀ field ∈ fields, field.Sound)
    (distinct : (fields.map Field.name).Nodup) :
    parse? (String.ofList (fields.flatMap Field.line)) =
      some (fields.map fun field => (field.name, field.value)) := by
  have read : statements? inlineTable ((fields.flatMap Field.line).length + 1)
      (fields.flatMap Field.line) = some (fields.map Field.statement) :=
    statements?_fields sound inlineTable (Nat.lt_succ_of_le (length_flatMap_line fields))
  have built : build [] [] (fields.map Field.statement) = _ := build_fields fields distinct
  -- the first line begins with a name, and not with a byte order mark
  have unmarked (rest : List Char) : fields.flatMap Field.line ≠ '\uFEFF' :: rest := by
    cases fields with
    | nil => exact nofun
    | cons field fields =>
      obtain ⟨c, tail, name, bare⟩ := (sound field List.mem_cons_self).exists_head
      rw [List.flatMap_cons, Field.line, name]
      exact cons_ne (ne_of_bare bare (by decide)) _ rest
  unfold parse?
  rw [String.toList_ofList]
  split
  · rename_i rest marked
    exact absurd marked (unmarked rest)
  · refine Option.bind_eq_some_iff.mpr ⟨_, read, ?_⟩
    refine Option.bind_eq_some_iff.mpr ⟨_, built, ?_⟩
    rw [List.nil_append]
    exact congrArg some (entryValues_fields fields)

end Rollout.Toml
