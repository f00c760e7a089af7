import Rollout.Toml.Quoted
import Rollout.Toml.Value

/-! TOML scalars other than texts. -/

set_option autoImplicit false

namespace Rollout.Toml

open Number

/-- Digits, with single underscores between them. -/
def takeDigits (isDigit : Char → Bool) : List Char → List Char × List Char
  | [] => ([], [])
  | '_' :: c :: rest =>
    if isDigit c then
      let (digits, rest) := takeDigits isDigit rest
      (c :: digits, rest)
    else ([], '_' :: c :: rest)
  | c :: rest =>
    if isDigit c then
      let (digits, rest) := takeDigits isDigit rest
      (c :: digits, rest)
    else ([], c :: rest)

/-- At least one digit; the first has no underscore in front. -/
def takeNumber (isDigit : Char → Bool) : List Char → Option (List Char × List Char)
  | c :: rest =>
    if isDigit c then
      let (digits, rest) := takeDigits isDigit rest
      some (c :: digits, rest)
    else none
  | [] => none

def takeSign : List Char → Bool × List Char
  | '-' :: rest => (true, rest)
  | '+' :: rest => (false, rest)
  | rest => (false, rest)

/-- Decimal digits of which the first is no zero, or a lone zero. -/
def takeDecimal : List Char → Option (List Char × List Char)
  | '0' :: rest => some (['0'], rest)
  | rest => takeNumber Char.isDigit rest

def radixDigit? (radix : Nat) (c : Char) : Option Nat :=
  let value :=
    if c.isDigit then c.toNat - '0'.toNat
    else if 'a' ≤ c && c ≤ 'f' then c.toNat - 'a'.toNat + 10
    else if 'A' ≤ c && c ≤ 'F' then c.toNat - 'A'.toNat + 10
    else radix
  if value < radix then some value else none

def ofRadix (radix : Nat) (digits : List Char) : Nat :=
  digits.foldl (fun n c => radix * n + (radixDigit? radix c).getD 0) 0

/-- Integers are those that a signed word of 64 bits holds. -/
def word? (n : Int) : Option Int :=
  if -Int.pow 2 63 ≤ n ∧ n < Int.pow 2 63 then some n else none

def takeRadix (radix : Nat) (text : List Char) : Option (Value × List Char) := do
  let (digits, rest) ← takeNumber (fun c => (radixDigit? radix c).isSome) text
  return (.integer (← word? (ofRadix radix digits)), rest)

def takeInteger (text : List Char) : Option (Value × List Char) :=
  match text with
  | '0' :: 'x' :: rest => takeRadix 16 rest
  | '0' :: 'o' :: rest => takeRadix 8 rest
  | '0' :: 'b' :: rest => takeRadix 2 rest
  | text => do
    let (minus, rest) := takeSign text
    let (digits, rest) ← takeDecimal rest
    let n : Int := ofRadix 10 digits
    return (.integer (← word? (if minus then -n else n)), rest)

def takeExponent : List Char → Option (List Char × List Char)
  | c :: rest =>
    if c == 'e' || c == 'E' then do
      let (minus, rest) := takeSign rest
      let (digits, rest) ← takeNumber Char.isDigit rest
      return ('e' :: (if minus then ['-'] else []) ++ digits, rest)
    else none
  | [] => none

def takeFraction : List Char → Option (List Char × List Char)
  | '.' :: rest => do
    let (digits, rest) ← takeNumber Char.isDigit rest
    return ('.' :: digits, rest)
  | _ => none

/-- A number with a fraction or a power of ten, or one of the numbers with names. A number
beyond all others is none, unless it is negative. -/
def takeFloat (text : List Char) : Option (Value × List Char) :=
  let (minus, rest) := takeSign text
  match rest with
  | 'i' :: 'n' :: 'f' :: rest => some (.float (.infinite minus), rest)
  | 'n' :: 'a' :: 'n' :: rest => some (.float .nan, rest)
  | rest => do
    let (whole, rest) ← takeDecimal rest
    let (tail, rest) ← match takeFraction rest with
      | some (fraction, rest) =>
        match takeExponent rest with
        | some (exponent, rest) => pure (fraction ++ exponent, rest)
        | none => pure (fraction, rest)
      | none => takeExponent rest
    let number ← Binary64.ofText? ((if minus then ['-'] else []) ++ whole ++ tail)
    if number = .infinite false then none else return (.float number, rest)

def takePair (low high : Nat) : List Char → Option (Nat × List Char)
  | a :: b :: rest =>
    if a.isDigit && b.isDigit then
      let n := ofRadix 10 [a, b]
      if low ≤ n && n ≤ high then some (n, rest) else none
    else none
  | _ => none

def expect (c : Char) : List Char → Option (List Char)
  | d :: rest => if c = d then some rest else none
  | [] => none

def daysIn (year month : Nat) : Nat :=
  if month = 2 then
    if year % 4 = 0 && (year % 100 ≠ 0 || year % 400 = 0) then 29 else 28
  else if [4, 6, 9, 11].contains month then 30
  else 31

def dropDate (text : List Char) : Option (List Char) := do
  let year := text.take 4
  if year.length < 4 || !year.all Char.isDigit then none
  else do
    let rest ← expect '-' (text.drop 4)
    let (month, rest) ← takePair 1 12 rest
    let rest ← expect '-' rest
    let (_, rest) ← takePair 1 (daysIn (ofRadix 10 year) month) rest
    return rest

def dropTime (text : List Char) : Option (List Char) := do
  let (_, rest) ← takePair 0 23 text
  let rest ← expect ':' rest
  let (_, rest) ← takePair 0 59 rest
  let rest ← expect ':' rest
  let (_, rest) ← takePair 0 60 rest
  match rest with
  | '.' :: c :: more =>
    if c.isDigit then return more.dropWhile Char.isDigit else return rest
  | rest => return rest

def dropOffset (text : List Char) : Option (List Char) :=
  match text with
  | c :: rest =>
    if c == 'Z' || c == 'z' then some rest
    else if c == '+' || c == '-' then do
      let (_, rest) ← takePair 0 23 rest
      let rest ← expect ':' rest
      let (_, rest) ← takePair 0 59 rest
      return rest
    else none
  | [] => none

/-- A date, a date and a time, possibly with an offset, or a time alone. -/
def takeMoment (text : List Char) : Option (Value × List Char) :=
  match dropDate text with
  | some rest =>
    match rest with
    | c :: more =>
      if c == 'T' || c == 't' || c == ' ' then
        match dropTime more with
        | some rest => some (.moment, (dropOffset rest).getD rest)
        | none => some (.moment, rest)
      else some (.moment, rest)
    | [] => some (.moment, rest)
  | none => (dropTime text).map fun rest => (.moment, rest)

def takeNumeral (text : List Char) : Option (Value × List Char) :=
  match takeMoment text with
  | some taken => some taken
  | none =>
    match takeFloat text with
    | some taken => some taken
    | none => takeInteger text

end Rollout.Toml
