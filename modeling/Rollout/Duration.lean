/-! Spans of time, to the nanosecond. -/

set_option autoImplicit false

namespace Rollout

def nanosPerSecond : Nat := 1000000000

/-- A span of less than `2 ^ 64` seconds. -/
structure Duration where
  nanos : Nat
  bounded : nanos < (1 <<< 64) * nanosPerSecond
  deriving DecidableEq, Repr

namespace Duration

instance : Inhabited Duration := ⟨⟨0, by decide⟩⟩

instance : LE Duration := ⟨fun a b => a.nanos ≤ b.nanos⟩
instance : LT Duration := ⟨fun a b => a.nanos < b.nanos⟩
instance (a b : Duration) : Decidable (a ≤ b) := inferInstanceAs (Decidable (a.nanos ≤ b.nanos))
instance (a b : Duration) : Decidable (a < b) := inferInstanceAs (Decidable (a.nanos < b.nanos))

def ofNanos? (nanos : Nat) : Option Duration :=
  if h : nanos < (1 <<< 64) * nanosPerSecond then some ⟨nanos, h⟩ else none

def ofSeconds (seconds : UInt64) : Duration :=
  ⟨seconds.toNat * nanosPerSecond,
    Nat.mul_lt_mul_of_pos_right seconds.toNat_lt (by decide)⟩

def seconds (d : Duration) : Nat := d.nanos / nanosPerSecond

def subsecond (d : Duration) : Nat := d.nanos % nanosPerSecond

def dropTrailingZeros (digits : List Char) : List Char :=
  (digits.reverse.dropWhile (· == '0')).reverse

/-- A number of units of `10 ^ width` nanoseconds, with as many places as are needed. -/
def decimalText (nanos width : Nat) : String :=
  let fraction := Nat.toDigits 10 (nanos % Nat.pow 10 width)
  let padded := List.replicate (width - fraction.length) '0' ++ fraction
  let places := if width = 0 then [] else dropTrailingZeros padded
  toString (nanos / Nat.pow 10 width) ++
    (if places.isEmpty then "" else "." ++ String.ofList places)

/-- The span as messages show it, in the largest unit that is not longer than it. -/
def text (d : Duration) : String :=
  if nanosPerSecond ≤ d.nanos then decimalText d.nanos 9 ++ "s"
  else if 1000000 ≤ d.nanos then decimalText d.nanos 6 ++ "ms"
  else if 1000 ≤ d.nanos then decimalText d.nanos 3 ++ "µs"
  else decimalText d.nanos 0 ++ "ns"

end Duration

end Rollout
