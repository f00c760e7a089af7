/-! Binary floating point numbers of 64 bits, and their decimal texts.

A finite number is an exact product of a mantissa and a power of two, so rounding and
the choice of digits are arithmetic on natural numbers. -/

set_option autoImplicit false

namespace Rollout.Number

inductive Binary64 where
  | nan
  | infinite (negative : Bool)
  /-- The number `mantissa * 2 ^ exponent`, with the sign in front. -/
  | finite (negative : Bool) (mantissa : Nat) (exponent : Int)
  deriving DecidableEq, Repr

namespace Binary64

def minExponent : Int := -1074

def maxExponent : Int := 971

def zero (negative : Bool) : Binary64 :=
  .finite negative 0 minExponent

/-- The quotient rounded to the nearest integer, a half to the even neighbour. -/
def divRound (num den : Nat) : Nat :=
  let floor := num / den
  let rest := 2 * (num % den)
  if rest < den then floor
  else if den < rest then floor + 1
  else if floor % 2 = 0 then floor else floor + 1

/-- `num / den` in units of `2 ^ exponent`, as a quotient of natural numbers. -/
def scaled (num den : Nat) (exponent : Int) : Nat × Nat :=
  match exponent with
  | .ofNat n => (num, den <<< n)
  | .negSucc n => (num <<< (n + 1), den)

/-- The number nearest to `num / den`, a tie to the even mantissa. -/
def ofQuotient (negative : Bool) (num den : Nat) : Binary64 :=
  if num = 0 then zero negative
  else
    let estimate := max ((Nat.log2 num : Int) - Nat.log2 den - 53) minExponent
    let first := scaled num den estimate
    let exponent := if 1 <<< 53 ≤ first.1 / first.2 then estimate + 1 else estimate
    let parts := scaled num den exponent
    let mantissa := divRound parts.1 parts.2
    if mantissa = 1 <<< 53 then
      if exponent + 1 > maxExponent then .infinite negative
      else .finite negative (1 <<< 52) (exponent + 1)
    else if exponent > maxExponent then .infinite negative
    else .finite negative mantissa exponent

/-- The number nearest to `digits * 10 ^ exponent`. Powers far outside the range are not
computed: they are infinite or zero whatever the digits are. -/
def ofDecimal (negative : Bool) (digits : Nat) (exponent : Int) : Binary64 :=
  if digits = 0 then zero negative
  else
    let width : Int := (Nat.toDigits 10 digits).length
    if exponent + width > 400 then .infinite negative
    else if exponent + width < -400 then zero negative
    else match exponent with
      | .ofNat n => ofQuotient negative (digits * Nat.pow 10 n) 1
      | .negSucc n => ofQuotient negative digits (Nat.pow 10 (n + 1))

def digitValue (c : Char) : Nat := c.toNat - '0'.toNat

def ofDigits (digits : List Char) : Nat :=
  digits.foldl (fun n c => 10 * n + digitValue c) 0

def ofExponent? (negative : Bool) (digits : Nat) (shift : Int) :
    List Char → Option Binary64
  | [] => some (ofDecimal negative digits shift)
  | e :: rest =>
    if e == 'e' || e == 'E' then
      let (minus, rest) := match rest with
        | '-' :: r => (true, r)
        | '+' :: r => (false, r)
        | r => (false, r)
      if rest.isEmpty || !rest.all Char.isDigit then none
      else
        let power : Int := ofDigits rest
        some (ofDecimal negative digits (if minus then shift - power else shift + power))
    else none

/-- Reads a sign, digits with at most one point among them, and a power of ten. Neither
names of special numbers nor digit separators are accepted. -/
def ofText? (text : List Char) : Option Binary64 :=
  let (negative, text) := match text with
    | '-' :: r => (true, r)
    | '+' :: r => (false, r)
    | r => (false, r)
  let whole := text.takeWhile Char.isDigit
  let rest := text.dropWhile Char.isDigit
  let (fraction, rest) := match rest with
    | '.' :: r => (r.takeWhile Char.isDigit, r.dropWhile Char.isDigit)
    | r => ([], r)
  if whole.isEmpty && fraction.isEmpty then none
  else ofExponent? negative (ofDigits (whole ++ fraction)) (-(fraction.length : Int)) rest

/-- Four times a finite number and the two ends of the reals that round to it, in units of
`2 ^ (exponent - 2)`. The lower half of the interval is shorter below a power of two. -/
def interval (mantissa : Nat) (exponent : Int) : Nat × Nat × Nat :=
  let low := if mantissa = 1 <<< 52 ∧ exponent > minExponent then 4 * mantissa - 1
    else 4 * mantissa - 2
  (low, 4 * mantissa, 4 * mantissa + 2)

def compareDecimal (unit : Nat) (shift : Int) (digits : Nat) (power : Int) : Ordering :=
  let left := (unit <<< shift.toNat) * Nat.pow 10 (-power).toNat
  let right := (digits * Nat.pow 10 power.toNat) <<< (-shift).toNat
  compare left right

/-- Greatest multiple of `10 ^ power` that is not above `unit * 2 ^ shift`. -/
def floorDecimal (unit : Nat) (shift : Int) (power : Int) : Nat :=
  (unit <<< shift.toNat) * Nat.pow 10 (-power).toNat / (Nat.pow 10 power.toNat <<< (-shift).toNat)

/-- Least `e` with the number below `10 ^ e`, searched upwards from `start`. -/
def decimalTop (unit : Nat) (shift : Int) : Nat → Int → Int
  | 0, start => start
  | fuel + 1, start =>
    if compareDecimal unit shift 1 start = .lt then start
    else decimalTop unit shift fuel (start + 1)

/-- Which of a grid's two points next to the number rounds back to it, the nearer one if
both do. -/
def gridHit (mantissa : Nat) (exponent power : Int) : Option Nat :=
  let (low, middle, high) := interval mantissa exponent
  let shift := exponent - 2
  let closed := mantissa % 2 = 0
  let inside (digits : Nat) : Bool :=
    digits ≠ 0 &&
    (match compareDecimal low shift digits power with
      | .lt => true | .eq => closed | .gt => false) &&
    (match compareDecimal high shift digits power with
      | .gt => true | .eq => closed | .lt => false)
  let down := floorDecimal middle shift power
  let up := down + 1
  match inside down, inside up with
  | false, false => none
  | true, false => some down
  | false, true => some up
  | true, true =>
    -- twice the number against the sum of the two points
    match compareDecimal (2 * middle) shift (down + up) power with
    | .lt => some down
    | .gt => some up
    | .eq => if down % 2 = 0 then some down else some up

def shortestFrom (mantissa : Nat) (exponent top : Int) : Nat → Nat → Nat × Int
  | 0, count => (floorDecimal mantissa exponent (top - count), top - count)
  | fuel + 1, count =>
    match gridHit mantissa exponent (top - count) with
    | some digits => (digits, top - count)
    | none => shortestFrom mantissa exponent top fuel (count + 1)

/-- Digits `d` and power `p` of ten for a finite number other than zero: `d * 10 ^ p` rounds
to it, and no decimal with fewer digits does. -/
def shortest (mantissa : Nat) (exponent : Int) : Nat × Int :=
  let estimate : Int := ((Nat.log2 mantissa : Int) + exponent) * 30103 / 100000 - 1
  let top := decimalTop (4 * mantissa) (exponent - 2) 8 estimate
  shortestFrom mantissa exponent top 17 1

def dropZeros : Nat → Nat → Int → Nat × Int
  | 0, digits, power => (digits, power)
  | fuel + 1, digits, power =>
    if digits % 10 = 0 then dropZeros fuel (digits / 10) (power + 1) else (digits, power)

def zeros (n : Nat) : List Char := List.replicate n '0'

/-- Digits are written out while the point stands within them, at most five places before
or sixteen after their start, and by a power of ten otherwise. -/
def finiteText (mantissa : Nat) (exponent : Int) : List Char :=
  if mantissa = 0 then ['0', '.', '0']
  else
    let (digits, power) := shortest mantissa exponent
    let (digits, power) := dropZeros 20 digits power
    let text := Nat.toDigits 10 digits
    let point : Int := text.length + power
    if 0 ≤ power ∧ point ≤ 16 then
      text ++ zeros power.toNat ++ ['.', '0']
    else if 0 < point ∧ point ≤ 16 then
      text.take point.toNat ++ '.' :: text.drop point.toNat
    else if -5 < point ∧ point ≤ 0 then
      '0' :: '.' :: zeros (-point).toNat ++ text
    else
      let power := (toString (point - 1)).toList
      match text with
      | [d] => d :: 'e' :: power
      | d :: rest => d :: '.' :: rest ++ 'e' :: power
      | [] => []

def toText : Binary64 → String
  | .nan => ".nan"
  | .infinite false => ".inf"
  | .infinite true => "-.inf"
  | .finite negative mantissa exponent =>
    String.ofList ((if negative then ['-'] else []) ++ finiteText mantissa exponent)

end Binary64

end Rollout.Number
