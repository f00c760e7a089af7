import Rollout.Duration.Units

/-! A span is read back from the text that spells it unit by unit. -/

set_option autoImplicit false

namespace Rollout.Duration

open Text

variable {c : Char} {digits name rest : List Char}

/-! ## Numbers and names -/

theorem ext {d e : Duration} (same : d.nanos = e.nanos) : d = e := by
  cases d
  cases e
  cases same
  rfl

theorem isBlank_of_isDigit (digit : c.isDigit = true) : isBlank c = false := by
  simp only [Char.isDigit, Bool.and_eq_true, decide_eq_true_eq, ge_iff_le,
    UInt32.le_iff_toNat_le] at digit
  change 48 ≤ c.toNat ∧ c.toNat ≤ 57 at digit
  simp [isBlank]
  omega

/-- The name of a unit goes on neither with its number nor behind a blank or a point. -/
theorem unitChar_facts (letter : isUnitChar c = true) :
    c.isDigit = false ∧ isBlank c = false ∧ c ≠ '.' := by
  have ranges : c.isAlpha = (decide ('A'.val ≤ c.val ∧ c.val ≤ 'Z'.val) ||
    (decide ('a'.val ≤ c.val) && decide (c.val ≤ 'z'.val))) := rfl
  simp only [isUnitChar, ranges, Bool.or_eq_true, Bool.and_eq_true, decide_eq_true_eq, beq_iff_eq,
    UInt32.le_iff_toNat_le] at letter
  rcases letter with letter | rfl
  · change (65 ≤ c.toNat ∧ c.toNat ≤ 90) ∨ (97 ≤ c.toNat ∧ c.toNat ≤ 122) at letter
    refine ⟨?_, ?_, ?_⟩
    · simp only [Char.isDigit, Bool.and_eq_false_iff, decide_eq_false_iff_not, ge_iff_le,
        UInt32.le_iff_toNat_le]
      change ¬ 48 ≤ c.toNat ∨ ¬ c.toNat ≤ 57
      omega
    · simp [isBlank]
      omega
    · rintro rfl
      revert letter
      decide
  · decide

theorem le_ofDigitChars (digits : List Char) (n : Nat) : n ≤ Nat.ofDigitChars 10 digits n := by
  rw [Nat.ofDigitChars_eq_ofDigitChars_zero]
  exact Nat.le_trans (Nat.le_mul_of_pos_left n (Nat.pow_pos (by decide))) (Nat.le_add_right _ _)

theorem readNumber_append (all : ∀ c ∈ digits, c.isDigit = true) (letter : isUnitChar c = true)
    {n : Nat} (small : Nat.ofDigitChars 10 digits n < 1 <<< 64) (rest : List Char) :
    readNumber n (digits ++ c :: rest) = some (Nat.ofDigitChars 10 digits n, c :: rest) := by
  obtain ⟨notDigit, notBlank, -⟩ := unitChar_facts letter
  induction digits generalizing n with
  | nil => simp [readNumber, notDigit, notBlank]
  | cons d digits ih =>
    obtain ⟨digit, others⟩ := List.forall_mem_cons.mp all
    rw [Nat.ofDigitChars_cons] at small ⊢
    have here : word? (10 * n + (d.toNat - '0'.toNat)) = some (10 * n + (d.toNat - '0'.toNat)) :=
      if_pos (Nat.lt_of_le_of_lt (le_ofDigitChars digits _) small)
    rw [List.cons_append, readNumber, if_pos digit, here]
    exact ih others small

/-! ## One number with its unit -/

def Names (name : String) (unit : TimeUnit) : Prop :=
  TimeUnit.ofName? name.toList = some unit ∧ name.toList.all isUnitChar = true

theorem names_plural {name : String} {unit : TimeUnit} (one : Names name unit)
    (many : Names (name ++ "s") unit) (n : Nat) :
    Names (name ++ if n = 1 then "" else "s") unit := by
  split
  · rw [String.append_empty]
    exact one
  · exact many

structure Part where
  count : Nat
  name : String
  unit : TimeUnit

namespace Part

variable (part : Part)

def nanos : Nat := part.unit.nanos * part.count

def total (parts : List Part) : Nat :=
  parts.foldr (fun part nanos => part.nanos + nanos) 0

def chars : List Char := Nat.toDigits 10 part.count ++ part.name.toList

/-- Whether the name is understood, and the number of steps that the units come to is one that a
word can hold. -/
structure Sound : Prop where
  named : Names part.name part.unit
  steps : part.count * (part.unit.nanos / part.unit.step) < 1 <<< 64
  fine : part.unit.step = 1 → part.nanos < nanosPerSecond

end Part

variable {part : Part}

theorem whole?_eq (small : part.count * (part.unit.nanos / part.unit.step) < 1 <<< 64) :
    whole? part.count part.unit = some part.nanos := by
  have divides (u : TimeUnit) : u.nanos / u.step * u.step = u.nanos := by cases u <;> rfl
  have product : part.count * (part.unit.nanos / part.unit.step) * part.unit.step = part.nanos := by
    rw [Nat.mul_assoc, divides, Part.nanos, Nat.mul_comm]
  have word : word? (part.count * (part.unit.nanos / part.unit.step)) = some _ := if_pos small
  rw [whole?, word]
  exact congrArg some product

theorem add?_eq {d e : Duration} {n step : Nat} (fine : step = 1 → n < nanosPerSecond)
    (sum : e.nanos = d.nanos + n) : add? d n step = some e := by
  have whole : ofNanos? (d.nanos + n) = some e := by
    rw [← sum]
    exact dif_pos e.bounded
  unfold add?
  split
  · rename_i one
    have word : word? (d.subsecond + n) = some (d.subsecond + n) := by
      refine if_pos ?_
      have := fine one
      have : d.subsecond < nanosPerSecond := Nat.mod_lt _ (by decide)
      simp only [nanosPerSecond] at *
      omega
    rw [word]
    exact whole
  · exact whole

theorem Part.Sound.exists_letter (sound : part.Sound) :
    ∃ letter others, part.name.toList = letter :: others := by
  have named := sound.named.1
  cases letters : part.name.toList with
  | nil =>
    rw [letters] at named
    cases named
  | cons letter others => exact ⟨letter, others, rfl⟩

theorem Part.Sound.count_lt (sound : part.Sound) : part.count < 1 <<< 64 := by
  have positive (u : TimeUnit) : 0 < u.nanos / u.step := by cases u <;> decide
  exact Nat.lt_of_le_of_lt (Nat.le_mul_of_pos_right _ (positive part.unit)) sound.steps

theorem Part.Sound.letters (sound : part.Sound) : ∀ c ∈ part.name.toList, isUnitChar c = true :=
  List.all_eq_true.mp sound.named.2

/-- The text behind a number and its unit ends, or goes on behind a blank. -/
theorem readItem_eq {d e : Duration} {u : TimeUnit} {first n m : Nat} {text : List Char}
    (read : readNumber first text = some (n, c :: rest)) (point : c ≠ '.')
    (named : TimeUnit.ofName? ((c :: rest).takeWhile isUnitChar) = some u)
    (whole : whole? n u = some m) (sum : add? d m u.step = some e)
    (ends : ∀ x ∈ ((c :: rest).dropWhile isUnitChar).head?, isBlank x = true) :
    readItem first text d = some (e, (c :: rest).dropWhile isUnitChar) := by
  refine Option.bind_eq_some_iff.mpr ⟨_, read, ?_⟩
  dsimp only
  split
  · rename_i same
    exact absurd (List.cons.inj same).1 point
  · refine Option.bind_eq_some_iff.mpr ⟨(none, c :: rest), rfl, ?_⟩
    refine Option.bind_eq_some_iff.mpr ⟨u, named, ?_⟩
    refine Option.bind_eq_some_iff.mpr ⟨m, whole, ?_⟩
    refine Option.bind_eq_some_iff.mpr ⟨e, sum, ?_⟩
    refine Option.bind_eq_some_iff.mpr ⟨e, rfl, ?_⟩
    generalize (c :: rest).dropWhile isUnitChar = behind at ends
    cases behind with
    | nil => rfl
    | cons x behind => exact if_pos (by rw [ends x rfl, Bool.or_true])

theorem Part.Sound.cut (sound : part.Sound) (ends : rest = [] ∨ ∃ tail, rest = ' ' :: tail) :
    (part.name.toList ++ rest).takeWhile isUnitChar = part.name.toList ∧
      (part.name.toList ++ rest).dropWhile isUnitChar = rest := by
  have stop : rest.takeWhile isUnitChar = [] ∧ rest.dropWhile isUnitChar = rest := by
    rcases ends with rfl | ⟨tail, rfl⟩ <;> exact ⟨rfl, rfl⟩
  rw [List.takeWhile_append_of_pos sound.letters, List.dropWhile_append_of_pos sound.letters,
    stop.1, stop.2, List.append_nil]
  exact ⟨rfl, rfl⟩

theorem Part.Sound.readNumber (sound : part.Sound) {first : Char} {others : List Char}
    (chars : part.chars = first :: others) (rest : List Char) :
    readNumber (first.toNat - '0'.toNat) (others ++ rest) =
      some (part.count, part.name.toList ++ rest) := by
  obtain ⟨letter, letters, name⟩ := sound.exists_letter
  have inName : isUnitChar letter = true := sound.letters letter (name ▸ List.mem_cons_self)
  have allDigits : ∀ c ∈ Nat.toDigits 10 part.count, c.isDigit = true :=
    fun _ => Nat.isDigit_of_mem_toDigits (by decide) (by decide)
  have value : Nat.ofDigitChars 10 (Nat.toDigits 10 part.count) 0 = part.count :=
    Nat.ofDigitChars_ten_toDigits
  have nonempty : Nat.toDigits 10 part.count ≠ [] := Nat.toDigits_ne_nil
  rw [Part.chars, name] at chars
  rw [name]
  generalize Nat.toDigits 10 part.count = digits at allDigits value chars nonempty
  cases digits with
  | nil => exact absurd rfl nonempty
  | cons digit digits =>
    obtain ⟨rfl, rfl⟩ := List.cons.inj chars
    rw [Nat.ofDigitChars_cons, Nat.mul_zero, Nat.zero_add] at value
    have read := readNumber_append (List.forall_mem_cons.mp allDigits).2 inName
      (value.symm ▸ sound.count_lt) (letters ++ rest)
    rw [value] at read
    have shown : digits ++ letter :: letters ++ rest = digits ++ letter :: (letters ++ rest) := by
      rw [List.append_assoc, List.cons_append]
    exact (congrArg _ shown).trans read

theorem readItem_part (sound : part.Sound) {d e : Duration} (sum : e.nanos = d.nanos + part.nanos)
    (ends : rest = [] ∨ ∃ tail, rest = ' ' :: tail) {first : Char} {others : List Char}
    (chars : part.chars = first :: others) :
    readItem (first.toNat - '0'.toNat) (others ++ rest) d = some (e, rest) := by
  obtain ⟨letter, letters, name⟩ := sound.exists_letter
  have inName : isUnitChar letter = true := sound.letters letter (name ▸ List.mem_cons_self)
  have read := sound.readNumber chars rest
  obtain ⟨taken, dropped⟩ := sound.cut ends
  have named := sound.named.1
  rw [← taken] at named
  have blank : ∀ x ∈ rest.head?, isBlank x = true := by
    rcases ends with rfl | ⟨tail, rfl⟩
    · exact nofun
    · rintro _ ⟨⟩
      rfl
  rw [name, List.cons_append] at read dropped named
  have item := readItem_eq read (unitChar_facts inName).2.2 named (whole?_eq sound.steps)
    (add?_eq sound.fine sum) (dropped.symm ▸ blank)
  rw [dropped] at item
  exact item

/-! ## Many numbers with their units -/

theorem Part.exists_digit (part : Part) :
    ∃ first others, part.chars = first :: others ∧ first.isDigit = true := by
  cases digits : Nat.toDigits 10 part.count with
  | nil => exact absurd digits Nat.toDigits_ne_nil
  | cons first others =>
    have digit : first.isDigit = true :=
      Nat.isDigit_of_mem_toDigits (n := part.count) (by decide) (Nat.le_refl 10)
        (digits ▸ List.mem_cons_self)
    exact ⟨first, others ++ part.name.toList, by rw [chars, digits]; rfl, digit⟩

def joined (parts : List Part) : List Char :=
  List.intercalate [' '] (parts.map Part.chars)

theorem joined_cons (part : Part) (parts : List Part) :
    ∃ rest, joined (part :: parts) = part.chars ++ rest ∧ (rest = [] ∨ ∃ tail, rest = ' ' :: tail) ∧
      rest.dropWhile isBlank = joined parts := by
  cases parts with
  | nil => exact ⟨[], by simp [joined], .inl rfl, rfl⟩
  | cons next parts =>
    obtain ⟨first, others, chars, digit⟩ := next.exists_digit
    refine ⟨' ' :: joined (next :: parts), ?_, .inr ⟨_, rfl⟩, ?_⟩
    · simp [joined, List.intercalate_cons_cons]
    · have blank : isBlank ' ' = true := rfl
      obtain ⟨tail, shown⟩ : ∃ tail, joined (next :: parts) = first :: tail :=
        ⟨_, by rw [joined, List.map_cons, chars, List.intercalate_cons_cons_left]⟩
      rw [List.dropWhile_cons_of_pos blank, shown,
        List.dropWhile_cons_of_neg (by simp [isBlank_of_isDigit digit])]

theorem readItems_parts {parts : List Part} (sound : ∀ part ∈ parts, part.Sound) {d e : Duration}
    (sum : e.nanos = d.nanos + Part.total parts) {fuel : Nat}
    (enough : parts.length < fuel) {text : List Char}
    (shown : text.dropWhile isBlank = joined parts) : readItems fuel text d = some e := by
  induction parts generalizing d fuel text with
  | nil =>
    cases fuel with
    | zero => exact absurd enough (Nat.not_lt_zero _)
    | succ fuel =>
      rw [readItems, shown]
      exact congrArg some (ext sum.symm)
  | cons part parts ih =>
    obtain ⟨here, others⟩ := List.forall_mem_cons.mp sound
    obtain ⟨rest, split, ends, behind⟩ := joined_cons part parts
    obtain ⟨first, tail, chars, digit⟩ := part.exists_digit
    rw [Part.total, List.foldr_cons, ← Nat.add_assoc] at sum
    cases fuel with
    | zero => exact absurd enough (Nat.not_lt_zero _)
    | succ fuel =>
      -- what is read first is a span, being part of one
      have bounded : d.nanos + part.nanos < (1 <<< 64) * nanosPerSecond :=
        Nat.lt_of_le_of_lt (Nat.le_add_right _ _) (sum ▸ e.bounded)
      have item := readItem_part here (e := ⟨_, bounded⟩) rfl ends chars
      rw [readItems, shown, split, chars, List.cons_append]
      simp only [digit, if_true, item]
      exact ih others sum (Nat.lt_of_succ_lt_succ enough) behind

/-! ## The units of a span -/

def parts (d : Duration) : List Part :=
  let months := d.seconds % 31557600
  let days := months % 2630016
  let hours := days % 86400
  let plural (name : String) (n : Nat) := name ++ if n = 1 then "" else "s"
  [⟨d.seconds / 31557600, plural "year" (d.seconds / 31557600), .year⟩,
    ⟨months / 2630016, plural "month" (months / 2630016), .month⟩,
    ⟨days / 86400, plural "day" (days / 86400), .day⟩,
    ⟨hours / 3600, "h", .hour⟩, ⟨hours % 3600 / 60, "m", .minute⟩, ⟨hours % 60, "s", .second⟩,
    ⟨d.subsecond / 1000000, "ms", .millisecond⟩,
    ⟨d.subsecond / 1000 % 1000, "us", .microsecond⟩,
    ⟨d.subsecond % 1000, "ns", .nanosecond⟩]

theorem nanos_eq (d : Duration) : d.nanos = 1000000000 * d.seconds + d.subsecond := by
  simp only [seconds, subsecond, nanosPerSecond]
  omega

theorem total_parts (d : Duration) : Part.total d.parts = d.nanos := by
  rw [nanos_eq]
  unfold parts
  generalize d.seconds = s, d.subsecond = n
  simp only [Part.total, List.foldr_cons, List.foldr_nil, Part.nanos, TimeUnit.nanos]
  omega

theorem sound_parts (d : Duration) : ∀ part ∈ d.parts, part.Sound := by
  have few : d.seconds < 1 <<< 64 := by
    have := d.bounded
    simp only [seconds, nanosPerSecond] at *
    omega
  have less : d.subsecond < 1000000000 := Nat.mod_lt _ (by decide)
  unfold parts
  generalize d.seconds = s, d.subsecond = n at few less
  simp only [List.forall_mem_cons, List.not_mem_nil, false_implies, implies_true, and_true]
  have coarse {n : Nat} {name : String} {unit : TimeUnit} (named : Names name unit)
      (seconds : unit.step ≠ 1) (steps : n * (unit.nanos / unit.step) < 1 <<< 64) :
      (⟨n, name, unit⟩ : Part).Sound := ⟨named, steps, fun same => absurd same seconds⟩
  have fine {n : Nat} {name : String} {unit : TimeUnit} (named : Names name unit)
      (steps : n * (unit.nanos / unit.step) < 1 <<< 64)
      (less : unit.nanos * n < nanosPerSecond) : (⟨n, name, unit⟩ : Part).Sound :=
    ⟨named, steps, fun _ => less⟩
  refine ⟨coarse (names_plural ⟨rfl, rfl⟩ ⟨rfl, rfl⟩ _) (by decide) ?_,
    coarse (names_plural ⟨rfl, rfl⟩ ⟨rfl, rfl⟩ _) (by decide) ?_,
    coarse (names_plural ⟨rfl, rfl⟩ ⟨rfl, rfl⟩ _) (by decide) ?_,
    coarse ⟨rfl, rfl⟩ (by decide) ?_, coarse ⟨rfl, rfl⟩ (by decide) ?_,
    coarse ⟨rfl, rfl⟩ (by decide) ?_, fine ⟨rfl, rfl⟩ ?_ ?_, fine ⟨rfl, rfl⟩ ?_ ?_,
    fine ⟨rfl, rfl⟩ ?_ ?_⟩
  all_goals simp only [TimeUnit.nanos, TimeUnit.step, nanosPerSecond]
  all_goals omega

/-! ## The text of a span -/

/-- What stands in the text for a number of units: nothing where there are none. -/
def Part.words (part : Part) : List String :=
  item part.name part.count

theorem pluralItem_eq (name : String) (n : Nat) :
    pluralItem name n = item (name ++ if n = 1 then "" else "s") n := by
  rw [pluralItem, item, String.append_assoc]

theorem unitText_eq (d : Duration) :
    d.unitText = if (d.parts.flatMap Part.words).isEmpty then "0s"
      else String.intercalate " " (d.parts.flatMap Part.words) := by
  simp only [unitText, pluralItem_eq, parts, List.flatMap_cons, List.flatMap_nil, Part.words,
    List.append_assoc, List.append_nil]

theorem toList_words (part : Part) :
    part.words.map String.toList = if part.count = 0 then [] else [part.chars] := by
  unfold Part.words item
  split
  · rfl
  · simp [Part.chars, Nat.toString_eq_repr]

theorem flatMap_words (parts : List Part) :
    (parts.flatMap Part.words).map String.toList =
      (parts.filter (·.count ≠ 0)).map Part.chars := by
  induction parts with
  | nil => rfl
  | cons part parts ih =>
    rw [List.flatMap_cons, List.map_append, ih, toList_words]
    by_cases none : part.count = 0 <;> simp [none]

theorem total_filter (parts : List Part) :
    Part.total (parts.filter (·.count ≠ 0)) = Part.total parts := by
  induction parts with
  | nil => rfl
  | cons part parts ih =>
    have more (others : List Part) : Part.total (part :: others) = part.nanos + Part.total others :=
      rfl
    rw [more, ← ih]
    by_cases none : part.count = 0
    · simp [none, Part.nanos]
    · simp [none, more]

theorem length_joined (parts : List Part) : parts.length ≤ (joined parts).length := by
  induction parts with
  | nil => exact Nat.zero_le _
  | cons part parts ih =>
    obtain ⟨rest, split, -, behind⟩ := joined_cons part parts
    obtain ⟨first, others, chars, -⟩ := part.exists_digit
    have fewer : (joined parts).length ≤ rest.length :=
      behind ▸ (List.dropWhile_sublist isBlank).length_le
    rw [split, chars]
    simp only [List.length_cons, List.length_append]
    omega

theorem ofText?_joined {parts : List Part} (sound : ∀ each ∈ part :: parts, each.Sound)
    {d : Duration} (sum : d.nanos = (default : Duration).nanos + Part.total (part :: parts))
    {text : String} (chars : text.toList = joined (part :: parts)) : ofText? text = some d := by
  obtain ⟨rest, split, -, -⟩ := joined_cons part parts
  obtain ⟨first, others, here, digit⟩ := part.exists_digit
  have shown : text.toList = first :: (others ++ rest) := by
    rw [chars, split, here, List.cons_append]
  have blank : isBlank first = false := isBlank_of_isDigit digit
  -- there is a unit behind the number
  have notZero : text ≠ "0" := by
    rintro rfl
    obtain ⟨letter, letters, name⟩ := (sound part List.mem_cons_self).exists_letter
    have positive : 0 < (Nat.toDigits 10 part.count).length := Nat.length_toDigits_pos
    have length := congrArg List.length (chars.trans split)
    simp only [Part.chars, name, List.length_append, List.length_cons] at length
    change 1 = _ at length
    omega
  have notBlank : allBlank text = false := by
    rw [allBlank, shown, List.all_cons, blank, Bool.false_and]
  have enough : (part :: parts).length < text.length + 1 := by
    have few := length_joined (part :: parts)
    rw [← chars, String.length_toList] at few
    omega
  have skipped : text.toList.dropWhile isBlank = joined (part :: parts) := by
    rw [← chars, shown, List.dropWhile_cons_of_neg (by simp [blank])]
  rw [ofText?, if_neg (by simpa using notZero), notBlank, if_neg Bool.false_ne_true]
  exact readItems_parts sound sum enough skipped

/-- A span is read back from the text that spells it. -/
theorem ofText?_unitText (d : Duration) : ofText? d.unitText = some d := by
  have sound : ∀ part ∈ d.parts.filter (·.count ≠ 0), part.Sound :=
    fun part member => sound_parts d part (List.mem_filter.mp member).1
  have sum := (total_filter d.parts).trans (total_parts d)
  have words := flatMap_words d.parts
  rw [unitText_eq]
  generalize d.parts.filter (·.count ≠ 0) = shown at sound sum words
  cases shown with
  | nil =>
    rw [List.map_nil, List.map_eq_nil_iff] at words
    rw [words]
    have zero : ofText? "0s" = some default := by decide
    exact zero.trans (congrArg some (ext sum))
  | cons part parts =>
    have nonempty : (d.parts.flatMap Part.words).isEmpty = false := by
      cases texts : d.parts.flatMap Part.words with
      | nil =>
        rw [texts] at words
        cases words
      | cons => rfl
    rw [nonempty, if_neg Bool.false_ne_true]
    have chars : (String.intercalate " " (d.parts.flatMap Part.words)).toList =
        joined (part :: parts) := by
      rw [String.toList_intercalate, words]
      rfl
    generalize String.intercalate " " (d.parts.flatMap Part.words) = text at chars
    exact ofText?_joined sound (sum.symm.trans (Nat.zero_add _).symm) chars

end Rollout.Duration
