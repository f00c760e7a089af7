import Mathlib.Tactic.SplitIfs
import Rollout.Toml.Quoted

/-! A text is read back from between the quotes in which it is written, whatever it holds. -/

set_option autoImplicit false

namespace Rollout.Toml

variable {c : Char} {text rest written : List Char} {long : Bool}

/-! ## Characters between double quotes -/

inductive Written (long : Bool) (c : Char) : List Char → Prop where
  | short (letter : Char) : escaped? letter = some c → letter ≠ 'u' ∧ letter ≠ 'U' →
      Written long c ['\\', letter]
  | hex {x y z w : Char} : ofHex? [x, y, z, w] = some c → Written long c ['\\', 'u', x, y, z, w]
  | plain : c ≠ '"' ∧ c ≠ '\\' ∧ c ≠ '\r' → (isPlainChar c || long && c == '\n') = true →
      Written long c [c]

theorem hex_control : ∀ n < 0x80, n < 0x20 ∨ n = 0x7F →
    (upperHex4 n).length = 4 ∧ ofHex? (upperHex4 n) = some (Char.ofNat n) := by
  decide +kernel

theorem written_escapeChar (long : Bool) (inner : c ≠ '"') :
    Written long c (escapeChar long c) := by
  unfold escapeChar
  split_ifs with backspace tab newline raw feed carriage backslash control
  · exact backspace ▸ .short 'b' rfl (by decide)
  · exact tab ▸ .short 't' rfl (by decide)
  · subst newline raw
    exact .plain (by decide) rfl
  · exact newline ▸ .short 'n' rfl (by decide)
  · exact feed ▸ .short 'f' rfl (by decide)
  · exact carriage ▸ .short 'r' rfl (by decide)
  · subst backslash
    exact .short '\\' rfl (by decide)
  · have code : c.toNat < 0x20 ∨ c.toNat = 0x7F := by simpa using control
    obtain ⟨length, read⟩ := hex_control c.toNat (by omega) code
    rw [Char.ofNat_toNat] at read
    obtain ⟨x, y, z, w, digits⟩ : ∃ x y z w, upperHex4 c.toNat = [x, y, z, w] := by
      generalize upperHex4 c.toNat = digits at length
      match digits, length with
      | [x, y, z, w], _ => exact ⟨x, y, z, w, rfl⟩
    rw [digits] at read ⊢
    exact .hex read
  · refine .plain ⟨inner, backslash, carriage⟩ ?_
    simp [isPlainChar] at control ⊢
    omega

/-- What is written for a character is neither a quote nor the end of a line, unless the character
is that. -/
theorem Written.exists_head (shown : Written long c written) :
    ∃ head tail, written = head :: tail ∧ head ≠ '"' ∧ head ≠ '\r' ∧ (head = '\n' → c = '\n') := by
  cases shown with
  | short | hex => exact ⟨_, _, rfl, by decide, by decide, nofun⟩
  | plain apart => exact ⟨_, _, rfl, apart.1, apart.2.2, id⟩

theorem Written.takeBasic (shown : Written false c written) (rest : List Char) :
    takeBasic (written ++ rest) = consChar c (takeBasic rest) := by
  cases shown with
  | short letter escapes apart =>
    rw [List.cons_append, List.singleton_append, takeBasic.eq_5, escapes]
    · rfl
    · exact fun _ _ _ _ _ same => absurd same apart.1
    · exact fun _ _ _ _ _ _ _ _ _ same => absurd same apart.2
  | hex code =>
    simp only [List.cons_append, List.nil_append]
    rw [takeBasic.eq_3, code]
    rfl
  | plain apart shown =>
    rw [List.singleton_append, takeBasic.eq_6]
    · rw [if_pos (by simpa using shown)]
    · exact apart.1
    · exact fun _ _ _ _ _ same => absurd same apart.2.1
    · exact fun _ _ _ _ _ _ _ _ _ same => absurd same apart.2.1
    · exact fun _ _ same => absurd same apart.2.1

theorem Written.takeLongBasic (shown : Written true c written) (rest : List Char) :
    takeLongBasic (written ++ rest) false = consChar c (takeLongBasic rest false) := by
  cases shown with
  | short letter escapes apart =>
    rw [List.cons_append, List.singleton_append, takeLongBasic.eq_7, escapes]
    · exact fun _ _ _ _ _ same => absurd same apart.1
    · exact fun _ _ _ _ _ _ _ _ _ same => absurd same apart.2
  | hex code =>
    simp only [List.cons_append, List.nil_append]
    rw [takeLongBasic.eq_5, code]
    rfl
  | plain apart shown =>
    rw [List.singleton_append, takeLongBasic.eq_9]
    · rw [Bool.false_and, if_neg Bool.false_ne_true, if_pos (by simpa using shown)]
    · exact fun _ same => absurd same apart.1
    · exact fun _ same => absurd same apart.1
    · exact fun _ same => absurd same apart.1
    · exact fun _ _ _ _ _ same => absurd same apart.2.1
    · exact fun _ _ _ _ _ _ _ _ _ same => absurd same apart.2.1
    · exact fun _ _ same => absurd same apart.2.1
    · exact fun _ same => absurd same apart.2.2

/-! ## Rows of quotes -/

def leading (quote : Char) : List Char → Nat
  | [] => 0
  | c :: rest => if c = quote then leading quote rest + 1 else 0

variable {quote : Char}

@[simp] theorem leading_nil : leading quote [] = 0 := rfl

@[simp] theorem leading_self : leading quote (quote :: text) = leading quote text + 1 :=
  if_pos rfl

@[simp] theorem leading_other (other : c ≠ quote) : leading quote (c :: text) = 0 :=
  if_neg other

theorem exists_of_leading {n : Nat} (row : leading quote text = n + 1) :
    ∃ rest, text = quote :: rest ∧ leading quote rest = n := by
  cases text with
  | nil => cases row
  | cons c rest =>
    by_cases same : c = quote
    · subst same
      rw [leading_self, Nat.add_right_cancel_iff] at row
      exact ⟨rest, rfl, row⟩
    · rw [leading_other same] at row
      cases row

theorem ne_of_leading_eq_zero (none : leading quote text = 0) (rest : List Char) :
    text ≠ quote :: rest := by
  rintro rfl
  simp at none

/-- How a text between rows of three quotes is read where there are quotes: of a row of up to five
the last three end the text. -/
structure ReadsRows (quote : Char) (read : List Char → Option (List Char × List Char)) : Prop where
  five : ∀ rest, read (quote :: quote :: quote :: quote :: quote :: rest) =
    some ([quote, quote], rest)
  four : ∀ rest, (∀ tail, rest ≠ quote :: tail) →
    read (quote :: quote :: quote :: quote :: rest) = some ([quote], rest)
  three : ∀ rest, (∀ tail, rest ≠ quote :: tail) →
    read (quote :: quote :: quote :: rest) = some ([], rest)
  fewer : ∀ text, (∀ tail, text ≠ quote :: quote :: tail) →
    read (quote :: text) = consChar quote (read text)

theorem readsRows_longBasic : ReadsRows '"' (takeLongBasic · false) where
  five := takeLongBasic.eq_2 false
  four := takeLongBasic.eq_3 false
  three rest apart := takeLongBasic.eq_4 false rest (fun _ => apart _) apart
  fewer text apart := by
    rw [takeLongBasic.eq_9]
    · rfl
    · exact fun _ _ => apart _
    · exact fun _ _ => apart _
    · exact fun _ _ => apart _
    · exact fun _ _ _ _ _ same => absurd same (by decide)
    · exact fun _ _ _ _ _ _ _ _ _ same => absurd same (by decide)
    · exact fun _ _ same => absurd same (by decide)
    · exact fun _ same => absurd same (by decide)

theorem readsRows_longLiteral : ReadsRows '\'' takeLongLiteral where
  five := takeLongLiteral.eq_2
  four := takeLongLiteral.eq_3
  three rest apart := takeLongLiteral.eq_4 rest (fun _ => apart _) apart
  fewer text apart := by
    rw [takeLongLiteral.eq_6]
    · rfl
    · exact fun _ _ => apart _
    · exact fun _ _ => apart _
    · exact fun _ _ => apart _
    · exact fun _ same => absurd same (by decide)

/-- A row of quotes with one more in front is read as that quote and the row, where the row is
too short to end the text or does end it. -/
theorem ReadsRows.add {read : List Char → Option (List Char × List Char)}
    (reads : ReadsRows quote read)
    (row : leading quote text < 2 ∨ leading quote text = 3 ∨ leading quote text = 4) :
    read (quote :: text) = consChar quote (read text) := by
  rcases row with short | three | four
  · refine reads.fewer text fun tail same => ?_
    rw [same, leading_self, leading_self] at short
    omega
  · obtain ⟨text, rfl, two⟩ := exists_of_leading three
    obtain ⟨text, rfl, one⟩ := exists_of_leading two
    obtain ⟨rest, rfl, none⟩ := exists_of_leading one
    have apart := ne_of_leading_eq_zero none
    rw [reads.four rest apart, reads.three rest apart]
    rfl
  · obtain ⟨text, rfl, three⟩ := exists_of_leading four
    obtain ⟨text, rfl, two⟩ := exists_of_leading three
    obtain ⟨text, rfl, one⟩ := exists_of_leading two
    obtain ⟨rest, rfl, none⟩ := exists_of_leading one
    rw [reads.five rest, reads.four rest (ne_of_leading_eq_zero none)]
    rfl

/-- Behind so many quotes there are few enough of them, or the text ends with those there are. -/
def Bounded (quote : Char) (row : Nat) (text : List Char) : Prop :=
  row + leading quote text ≤ 2 ∨ 3 ≤ leading quote text ∧ row + leading quote text ≤ 5

theorem bounded_end (clear : leading quote rest = 0) {row : Nat} (few : row ≤ 2) :
    Bounded quote row (quote :: quote :: quote :: rest) := by
  simp [Bounded, clear]
  omega

theorem bounded_cons {row : Nat} (more : Bounded quote (row + 1) text) :
    Bounded quote row (quote :: text) := by
  simp only [Bounded, leading_self] at more ⊢
  omega

theorem bounded_other {row : Nat} (other : c ≠ quote) (few : row ≤ 2) :
    Bounded quote row (c :: text) := by
  simp [Bounded, leading_other other, few]

theorem ReadsRows.add_of_bounded {read : List Char → Option (List Char × List Char)}
    (reads : ReadsRows quote read) {row : Nat} (bounded : Bounded quote (row + 1) text) :
    read (quote :: text) = consChar quote (read text) := by
  apply reads.add
  unfold Bounded at bounded
  omega

/-! ## Texts between double quotes -/

theorem takeBasic_escapeText (text : List Char) (row : Nat) (rest : List Char) :
    takeBasic (escapeText false 0 text row ++ '"' :: rest) = some (text, rest) := by
  induction text generalizing row with
  | nil => rfl
  | cons c text ih =>
    by_cases quote : c = '"'
    · subst quote
      have shown : Written false '"' ['\\', '"'] := .short '"' rfl (by decide)
      refine (shown.takeBasic (escapeText false 0 text 0 ++ '"' :: rest)).trans ?_
      rw [ih]
      rfl
    · rw [escapeText, if_neg quote, List.append_assoc,
        (written_escapeChar false quote).takeBasic, ih]
      rfl

theorem bounded_escapeText (clear : leading '"' rest = 0) (text : List Char) {row : Nat}
    (few : row ≤ 2) :
    Bounded '"' row (escapeText true 2 text row ++ '"' :: '"' :: '"' :: rest) := by
  induction text generalizing row with
  | nil => exact bounded_end clear few
  | cons c text ih =>
    rw [escapeText]
    split
    · split
      · exact bounded_cons (ih (by omega))
      · exact bounded_other (by decide) few
    · rename_i inner
      obtain ⟨head, tail, shown, apart, -⟩ := (written_escapeChar true inner).exists_head
      rw [shown]
      exact bounded_other apart few

theorem takeLongBasic_escapeText (clear : leading '"' rest = 0) (text : List Char) {row : Nat}
    (few : row ≤ 2) :
    takeLongBasic (escapeText true 2 text row ++ '"' :: '"' :: '"' :: rest) false =
      some (text, rest) := by
  induction text generalizing row with
  | nil => exact readsRows_longBasic.three rest (ne_of_leading_eq_zero clear)
  | cons c text ih =>
    rw [escapeText]
    split
    · rename_i quote
      subst quote
      split
      · rename_i few
        have bounded := bounded_escapeText clear text (Nat.succ_le_of_lt few)
        rw [List.cons_append]
        refine (readsRows_longBasic.add_of_bounded bounded).trans ?_
        rw [ih (by omega)]
        rfl
      · have shown : Written true '"' ['\\', '"'] := .short '"' rfl (by decide)
        refine (shown.takeLongBasic
          (escapeText true 2 text 0 ++ '"' :: '"' :: '"' :: rest)).trans ?_
        rw [ih (Nat.zero_le 2)]
        rfl
    · rename_i inner
      rw [List.append_assoc, (written_escapeChar true inner).takeLongBasic, ih (Nat.zero_le 2)]
      rfl

/-! ## Texts as they are -/

theorem plain_of_kept (kept : needsEscape c = false) :
    c ≠ '\r' ∧ (isPlainChar c = true ∨ c = '\n') := by
  by_cases newline : c = '\n'
  · simp [newline]
  · refine ⟨fun same => ?_, .inl ?_⟩
    · simp [same, needsEscape] at kept
    · simp [needsEscape, newline] at kept
      simp only [isPlainChar, Bool.or_eq_true, beq_iff_eq, Bool.and_eq_true, decide_eq_true_eq,
        bne_iff_ne]
      exact Decidable.or_iff_not_imp_left.mpr kept

theorem takeLiteral_append (plain : ∀ c ∈ text, isPlainChar c = true ∧ c ≠ '\'') :
    takeLiteral (text ++ '\'' :: rest) = some (text, rest) := by
  induction text with
  | nil => rfl
  | cons c text ih =>
    obtain ⟨⟨shown, inner⟩, others⟩ := List.forall_mem_cons.mp plain
    rw [List.cons_append, takeLiteral.eq_3 _ _ inner, if_pos shown, ih others]
    rfl

theorem le_longestRow (quote : Char) (text : List Char) (row longest : Nat) :
    max row longest ≤ longestRow quote text row longest := by
  induction text generalizing row longest with
  | nil => exact Nat.le_refl _
  | cons c text ih =>
    rw [longestRow]
    split
    · exact Nat.le_trans (by omega) (ih (row + 1) longest)
    · exact Nat.le_trans (by omega) (ih 0 (max row longest))

theorem not_mem_of_longestRow {row longest : Nat} (none : longestRow quote text row longest = 0) :
    quote ∉ text := by
  induction text generalizing row longest with
  | nil => exact List.not_mem_nil
  | cons c text ih =>
    rw [longestRow] at none
    split at none
    · have more := le_longestRow quote text (row + 1) longest
      omega
    · rename_i other
      exact List.not_mem_cons_of_ne_of_not_mem (Ne.symm other) (ih none)

theorem bounded_longestRow (clear : leading quote rest = 0) {row longest : Nat}
    (few : longestRow quote text row longest ≤ 2) :
    Bounded quote row (text ++ quote :: quote :: quote :: rest) := by
  have here := Nat.le_trans (le_longestRow quote text row longest) few
  induction text generalizing row longest with
  | nil => exact bounded_end clear (by omega)
  | cons c text ih =>
    rw [longestRow] at few
    split at few
    · rename_i same
      subst same
      exact bounded_cons (ih few (Nat.le_trans (le_longestRow _ _ _ _) few))
    · rename_i other
      exact bounded_other other (by omega)

theorem takeLongLiteral_append (clear : leading '\'' rest = 0)
    (kept : ∀ c ∈ text, needsEscape c = false) {row longest : Nat}
    (few : longestRow '\'' text row longest ≤ 2) :
    takeLongLiteral (text ++ '\'' :: '\'' :: '\'' :: rest) = some (text, rest) := by
  induction text generalizing row longest with
  | nil => exact readsRows_longLiteral.three rest (ne_of_leading_eq_zero clear)
  | cons c text ih =>
    obtain ⟨first, others⟩ := List.forall_mem_cons.mp kept
    rw [longestRow] at few
    split at few
    · rename_i quote
      subst quote
      rw [List.cons_append,
        readsRows_longLiteral.add_of_bounded (bounded_longestRow clear few), ih others few]
      rfl
    · rename_i inner
      obtain ⟨apart, shown⟩ := plain_of_kept first
      rw [List.cons_append, takeLongLiteral.eq_6, ih others few]
      · rw [if_pos (by simpa using shown)]
        rfl
      · exact fun _ same => absurd same inner
      · exact fun _ same => absurd same inner
      · exact fun _ same => absurd same inner
      · exact fun _ same => absurd same apart

/-! ## The kind of quotes -/

theorem plain_of_literal (kind : QuoteKind.ofText text = .literal) :
    ∀ c ∈ text, isPlainChar c = true ∧ c ≠ '\'' := by
  simp only [QuoteKind.ofText] at kind
  split_ifs at kind with basic literal
  simp only [Bool.and_eq_true, Bool.not_eq_true', List.any_eq_false, Bool.not_eq_true,
    decide_eq_true_eq, List.contains_eq_mem, decide_eq_false_iff_not] at literal
  obtain ⟨⟨kept, none⟩, line⟩ := literal
  intro c member
  refine ⟨(plain_of_kept (kept c member)).2.resolve_right ?_, ?_⟩
  · exact fun same => line (same ▸ member)
  · exact fun same => not_mem_of_longestRow none (same ▸ member)

theorem kept_of_longLiteral (kind : QuoteKind.ofText text = .longLiteral) :
    (∀ c ∈ text, needsEscape c = false) ∧ longestRow '\'' text 0 0 ≤ 2 := by
  simp only [QuoteKind.ofText] at kind
  split_ifs at kind with basic literal longBasic longLiteral
  simpa using longLiteral

/-- A line end behind the opening quotes is one that was put there. -/
theorem dropLineEnd_opening (head : Char) (carriage : head ≠ '\r')
    (newline : head = '\n' → '\n' ∈ text) (rest : List Char) :
    dropLineEnd (opening text ++ head :: rest) = head :: rest := by
  unfold opening
  split
  · rfl
  · rename_i none
    rw [List.contains_eq_mem, decide_eq_true_eq] at none
    exact dropLineEnd.eq_3 _ (fun _ same => none (newline (List.cons.inj same).1))
      (fun _ same => carriage (List.cons.inj same).1)

theorem dropLineEnd_escapeText (text rest : List Char) :
    dropLineEnd (opening text ++ (escapeText true 2 text 0 ++ '"' :: rest)) =
      escapeText true 2 text 0 ++ '"' :: rest := by
  cases text with
  | nil => rfl
  | cons c text =>
    rw [escapeText]
    split
    · rw [if_pos Nat.two_pos]
      exact dropLineEnd_opening '"' (by decide) nofun _
    · rename_i inner
      obtain ⟨head, tail, shown, -, carriage, newline⟩ :=
        (written_escapeChar true inner).exists_head
      rw [shown]
      exact dropLineEnd_opening head carriage (fun same => newline same ▸ List.mem_cons_self) _

theorem dropLineEnd_kept (kept : ∀ c ∈ text, needsEscape c = false) (rest : List Char) :
    dropLineEnd (opening text ++ (text ++ '\'' :: rest)) = text ++ '\'' :: rest := by
  cases text with
  | nil => rfl
  | cons c text =>
    exact dropLineEnd_opening c (plain_of_kept (kept c List.mem_cons_self)).1
      (fun same => same ▸ List.mem_cons_self) _

/-! ## Whole texts

A text that begins with two quotes more is one between rows of three. -/

theorem escapeText_ne (clear : leading '"' rest = 0) (text tail : List Char) :
    escapeText false 0 text 0 ++ '"' :: rest ≠ '"' :: '"' :: tail := by
  cases text with
  | nil => exact fun same => ne_of_leading_eq_zero clear tail (List.cons.inj same).2
  | cons c text =>
    rw [escapeText]
    split
    · exact fun same => absurd (List.cons.inj same).1 (by decide)
    · rename_i inner
      obtain ⟨head, others, shown, apart, -⟩ := (written_escapeChar false inner).exists_head
      rw [shown]
      exact fun same => apart (List.cons.inj same).1

theorem literal_ne (clear : leading '\'' rest = 0)
    (plain : ∀ c ∈ text, isPlainChar c = true ∧ c ≠ '\'') (tail : List Char) :
    text ++ '\'' :: rest ≠ '\'' :: '\'' :: tail := by
  cases text with
  | nil => exact fun same => ne_of_leading_eq_zero clear tail (List.cons.inj same).2
  | cons c text =>
    exact fun same => (plain c List.mem_cons_self).2 (List.cons.inj same).1

/-- A text is read back from its quotes, where no more of them follow. -/
theorem takeQuoted_quoted (text : List Char) (double : leading '"' rest = 0)
    (single : leading '\'' rest = 0) : takeQuoted (quoted text ++ rest) = some (text, rest) := by
  unfold quoted
  split
  case h_1 =>
    simp only [List.cons_append, List.append_assoc, List.nil_append]
    rw [takeQuoted.eq_2 _ (escapeText_ne double text)]
    exact takeBasic_escapeText text 0 rest
  case h_2 kind =>
    have plain := plain_of_literal kind
    simp only [List.cons_append, List.append_assoc, List.nil_append]
    rw [takeQuoted.eq_4 _ (literal_ne single plain)]
    exact takeLiteral_append plain
  case h_3 =>
    simp only [List.cons_append, List.nil_append, List.append_assoc]
    rw [takeQuoted.eq_1, dropLineEnd_escapeText]
    exact takeLongBasic_escapeText double text (Nat.zero_le 2)
  case h_4 kind =>
    obtain ⟨kept, few⟩ := kept_of_longLiteral kind
    simp only [List.cons_append, List.nil_append, List.append_assoc]
    rw [takeQuoted.eq_3, dropLineEnd_kept kept]
    exact takeLongLiteral_append single kept few

end Rollout.Toml
