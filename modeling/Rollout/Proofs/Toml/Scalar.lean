import Mathlib.Tactic.SplitIfs
import Rollout.Toml.Scalar

/-! A number in decimal digits at the end of a line is read as that number, and as nothing else
that begins with digits. -/

set_option autoImplicit false

namespace Rollout.Toml

variable {digits : List Char} {c : Char}

/-! ## Digits -/

theorem exists_toDigits {n : Nat} (positive : 0 < n) :
    ∃ first others, Nat.toDigits 10 n = first :: others ∧ first ≠ '0' := by
  induction n using Nat.strongRecOn with
  | ind n ih =>
    rw [Nat.toDigits_eq_if (by decide)]
    split_ifs with small
    · have apart : ∀ n < 10, 0 < n → n.digitChar ≠ '0' := by decide
      exact ⟨_, [], rfl, apart n small positive⟩
    · obtain ⟨first, others, shown, apart⟩ := ih (n / 10) (by omega) (by omega)
      exact ⟨first, others ++ [(n % 10).digitChar], by rw [shown]; rfl, apart⟩

theorem isDigit_toDigits {n : Nat} : ∀ c ∈ Nat.toDigits 10 n, c.isDigit = true :=
  fun _ => Nat.isDigit_of_mem_toDigits (by decide) (by decide)

theorem ne_of_isDigit {other : Char} (digit : c.isDigit = true) (apart : other.isDigit = false) :
    c ≠ other := by
  rintro rfl
  rw [digit] at apart
  cases apart

theorem radixDigit?_of_isDigit (digit : c.isDigit = true) :
    radixDigit? 10 c = some (c.toNat - '0'.toNat) := by
  have high : c.toNat ≤ '9'.toNat := by
    simp only [Char.isDigit, Bool.and_eq_true, decide_eq_true_eq] at digit
    exact digit.2
  rw [radixDigit?, if_pos digit]
  exact if_pos (Nat.lt_succ_of_le (Nat.sub_le_sub_right high _))

theorem ofRadix_eq (all : ∀ c ∈ digits, c.isDigit = true) :
    ofRadix 10 digits = Nat.ofDigitChars 10 digits 0 := by
  have same (n : Nat) : digits.foldl (fun n c => 10 * n + (radixDigit? 10 c).getD 0) n =
      Nat.ofDigitChars 10 digits n := by
    induction digits generalizing n with
    | nil => rfl
    | cons c digits ih =>
      obtain ⟨digit, others⟩ := List.forall_mem_cons.mp all
      rw [List.foldl_cons, ih others, radixDigit?_of_isDigit digit, Nat.ofDigitChars_cons]
      rfl
  exact same 0

theorem takeDigits_append (all : ∀ c ∈ digits, c.isDigit = true) (rest : List Char) :
    takeDigits Char.isDigit (digits ++ '\n' :: rest) = (digits, '\n' :: rest) := by
  induction digits with
  | nil => rfl
  | cons c digits ih =>
    obtain ⟨digit, others⟩ := List.forall_mem_cons.mp all
    rw [List.cons_append, takeDigits.eq_3, if_pos digit, ih others]
    exact fun _ _ same => absurd same (ne_of_isDigit digit rfl)

theorem takeDecimal_toDigits (n : Nat) (rest : List Char) :
    takeDecimal (Nat.toDigits 10 n ++ '\n' :: rest) = some (Nat.toDigits 10 n, '\n' :: rest) := by
  rcases Nat.eq_zero_or_pos n with rfl | positive
  · rfl
  · obtain ⟨first, others, shown, apart⟩ := exists_toDigits positive
    have all : ∀ c ∈ Nat.toDigits 10 n, c.isDigit = true := isDigit_toDigits
    rw [shown] at all ⊢
    obtain ⟨digit, all⟩ := List.forall_mem_cons.mp all
    rw [List.cons_append, takeDecimal.eq_2, takeNumber, if_pos digit, takeDigits_append all]
    exact fun _ same => apart (List.cons.inj same).1

/-! ## Other readings -/

theorem expect_append (all : ∀ c ∈ digits, c.isDigit = true) (apart : c.isDigit = false)
    (other : c ≠ '\n') (rest : List Char) : expect c (digits ++ '\n' :: rest) = none := by
  cases digits with
  | nil => exact if_neg other
  | cons digit digits =>
    exact if_neg (ne_of_isDigit (all digit List.mem_cons_self) apart).symm

theorem dropDate_append (all : ∀ c ∈ digits, c.isDigit = true) (rest : List Char) :
    dropDate (digits ++ '\n' :: rest) = none := by
  match digits, all with
  -- a year cannot hold the end of the line
  | [], _ | [_], _ | [_, _], _ | [_, _, _], _ => simp [dropDate]
  | y :: e :: a :: r :: others, all =>
    have behind : expect '-' (others ++ '\n' :: rest) = none :=
      expect_append (fun c member => all c (by simp [member])) rfl (by decide) rest
    simp [dropDate, behind]

theorem takePair_append {low high : Nat} (all : ∀ c ∈ digits, c.isDigit = true)
    (rest : List Char) : takePair low high (digits ++ '\n' :: rest) = none ∨
      ∃ n others, takePair low high (digits ++ '\n' :: rest) = some (n, others ++ '\n' :: rest) ∧
        ∀ c ∈ others, c.isDigit = true := by
  match digits, all with
  | [], _ =>
    refine .inl ?_
    cases rest <;> rfl
  | [a], _ =>
    refine .inl ?_
    simp [takePair]
  | a :: b :: others, all =>
    obtain ⟨first, all⟩ := List.forall_mem_cons.mp all
    obtain ⟨second, all⟩ := List.forall_mem_cons.mp all
    simp only [List.cons_append, takePair, first, second, Bool.and_self, if_true]
    split
    · exact .inr ⟨_, others, rfl, all⟩
    · exact .inl rfl

theorem dropTime_append (all : ∀ c ∈ digits, c.isDigit = true) (rest : List Char) :
    dropTime (digits ++ '\n' :: rest) = none := by
  unfold dropTime
  rcases takePair_append all rest with none | ⟨n, others, some, all⟩
  · rw [none]
    rfl
  · have behind : expect ':' (others ++ '\n' :: rest) = none :=
      expect_append all rfl (by decide) rest
    simp only [some, behind, Option.bind_eq_bind, Option.bind_some, Option.bind_none]

theorem takeMoment_append (all : ∀ c ∈ digits, c.isDigit = true) (rest : List Char) :
    takeMoment (digits ++ '\n' :: rest) = none := by
  rw [takeMoment, dropDate_append all, dropTime_append all]
  rfl

/-! ## The number -/

theorem takeSign_append (all : ∀ c ∈ digits, c.isDigit = true) (rest : List Char) :
    takeSign (digits ++ '\n' :: rest) = (false, digits ++ '\n' :: rest) := by
  cases digits with
  | nil => rfl
  | cons c digits =>
    have digit := all c List.mem_cons_self
    exact takeSign.eq_3 _ (fun _ same => ne_of_isDigit digit rfl (List.cons.inj same).1)
      (fun _ same => ne_of_isDigit digit rfl (List.cons.inj same).1)

theorem takeFloat_toDigits (n : Nat) (rest : List Char) :
    takeFloat (Nat.toDigits 10 n ++ '\n' :: rest) = none := by
  have read := takeDecimal_toDigits n rest
  have all : ∀ c ∈ Nat.toDigits 10 n, c.isDigit = true := isDigit_toDigits
  unfold takeFloat
  rw [takeSign_append all]
  generalize Nat.toDigits 10 n = digits at all read
  cases digits with
  | nil => cases read
  | cons c digits =>
    have digit := all c List.mem_cons_self
    simp only [List.cons_append] at read ⊢
    split
    · rename_i same
      cases (List.cons.inj same).1
      cases digit
    · rename_i same
      cases (List.cons.inj same).1
      cases digit
    · rw [read]
      rfl

theorem word?_of_lt {n : Nat} (small : n < 1 <<< 63) : word? n = some (n : Int) := by
  have power : Int.pow 2 63 = 9223372036854775808 := rfl
  refine if_pos ?_
  rw [power]
  omega

theorem append_ne {x : Char} (letter : x.isDigit = false) (other : x ≠ '\n')
    (all : ∀ c ∈ digits, c.isDigit = true) (rest tail : List Char) :
    digits ++ '\n' :: rest ≠ '0' :: x :: tail := by
  intro same
  match digits, all with
  | [], _ => cases (List.cons.inj same).1
  | [d], _ => exact other (List.cons.inj (List.cons.inj same).2).1.symm
  | d :: e :: digits, all =>
    have digit : e.isDigit = true := all e (by simp)
    exact ne_of_isDigit digit letter (List.cons.inj (List.cons.inj same).2).1

theorem takeInteger_toDigits {n : Nat} (small : n < 1 <<< 63) (rest : List Char) :
    takeInteger (Nat.toDigits 10 n ++ '\n' :: rest) = some (.integer n, '\n' :: rest) := by
  have all : ∀ c ∈ Nat.toDigits 10 n, c.isDigit = true := isDigit_toDigits
  have read := takeDecimal_toDigits n rest
  have value : ofRadix 10 (Nat.toDigits 10 n) = n :=
    (ofRadix_eq all).trans Nat.ofDigitChars_ten_toDigits
  generalize Nat.toDigits 10 n = digits at all read value
  rw [takeInteger.eq_4 _ (append_ne rfl (by decide) all rest)
    (append_ne rfl (by decide) all rest) (append_ne rfl (by decide) all rest), takeSign_append all]
  refine Option.bind_eq_some_iff.mpr ⟨(digits, '\n' :: rest), read, ?_⟩
  refine Option.bind_eq_some_iff.mpr ⟨n, ?_, rfl⟩
  rw [value]
  exact word?_of_lt small

/-- A word that is written in decimal digits is read back. -/
theorem takeNumeral_toDigits {n : Nat} (small : n < 1 <<< 63) (rest : List Char) :
    takeNumeral (Nat.toDigits 10 n ++ '\n' :: rest) = some (.integer n, '\n' :: rest) := by
  rw [takeNumeral, takeMoment_append isDigit_toDigits, takeFloat_toDigits]
  exact takeInteger_toDigits small rest

end Rollout.Toml
