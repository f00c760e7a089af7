import Rollout.Duration
import Rollout.Text.Blank

/-! Spans of time written with units, such as `1h 30m`. -/

set_option autoImplicit false

namespace Rollout.Duration

open Text

inductive TimeUnit where
  | nanosecond | microsecond | millisecond | second | minute | hour | day | week | month | year
  deriving DecidableEq, Repr

namespace TimeUnit

def names : TimeUnit → List String
  | .nanosecond => ["nanos", "nsec", "ns"]
  | .microsecond => ["usec", "us", "µs"]
  | .millisecond => ["millis", "msec", "ms"]
  | .second => ["seconds", "second", "secs", "sec", "s"]
  | .minute => ["minutes", "minute", "min", "mins", "m"]
  | .hour => ["hours", "hour", "hrs", "hr", "h"]
  | .day => ["days", "day", "d"]
  | .week => ["weeks", "week", "wks", "wk", "w"]
  | .month => ["months", "month", "M"]
  | .year => ["years", "year", "yrs", "yr", "y"]

def all : List TimeUnit :=
  [.nanosecond, .microsecond, .millisecond, .second, .minute, .hour, .day, .week, .month, .year]

def ofName? (name : List Char) : Option TimeUnit :=
  all.find? fun u => u.names.contains (String.ofList name)

/-- The length of a unit. A month has 30.44 days, a year 365.25. -/
def nanos : TimeUnit → Nat
  | .nanosecond => 1
  | .microsecond => 1000
  | .millisecond => 1000000
  | .second => 1000000000
  | .minute => 60 * 1000000000
  | .hour => 3600 * 1000000000
  | .day => 86400 * 1000000000
  | .week => 604800 * 1000000000
  | .month => 2630016 * 1000000000
  | .year => 31557600 * 1000000000

/-- The step in which multiples and fractions of a unit are counted; their number of steps
has to fit a word. -/
def step : TimeUnit → Nat
  | .nanosecond | .microsecond | .millisecond => 1
  | _ => 1000000000

def fractionStep : TimeUnit → Nat
  | .day | .week | .month | .year => 1000000000
  | _ => 1

end TimeUnit

def word? (n : Nat) : Option Nat :=
  if n < 1 <<< 64 then some n else none

/-- Digits behind a number; blanks among them do not count. -/
def readNumber (n : Nat) : List Char → Option (Nat × List Char)
  | [] => some (n, [])
  | c :: rest =>
    if c.isDigit then do readNumber (← word? (10 * n + (c.toNat - '0'.toNat))) rest
    else if isBlank c then readNumber n rest
    else some (n, c :: rest)

def readFraction (num den : Nat) : List Char → Option ((Nat × Nat) × List Char)
  | [] => some ((num, den), [])
  | c :: rest =>
    if c.isDigit then do
      let den ← word? (10 * den)
      let num ← word? (10 * num + (c.toNat - '0'.toNat))
      readFraction num den rest
    else if isBlank c then readFraction num den rest
    else some ((num, den), c :: rest)

def isUnitChar (c : Char) : Bool :=
  c.isAlpha || c == 'µ'

def whole? (n : Nat) (u : TimeUnit) : Option Nat := do
  let steps ← word? (n * (u.nanos / u.step))
  return steps * u.step

/-- A fraction of a unit, which has to be a whole number of steps. -/
def part? (num den : Nat) (u : TimeUnit) : Option Nat :=
  if u = .nanosecond then none
  else do
    let steps ← word? (num * (u.nanos / u.fractionStep))
    if steps % den = 0 then return steps / den * u.fractionStep else none

/-- The sum of two spans, of which the second is so many nanoseconds long and was counted in
steps of the given length. -/
def add? (d : Duration) (n step : Nat) : Option Duration := do
  if step = 1 then let _ ← word? (d.subsecond + n)
  ofNanos? (d.nanos + n)

def readItem (first : Nat) (text : List Char) (sum : Duration) :
    Option (Duration × List Char) := do
  let (n, rest) ← readNumber first text
  let (fraction, rest) ← match rest with
    | '.' :: rest => do
      let ((num, den), rest) ← readFraction 0 1 rest
      if den = 1 then none else pure (some (num, den), rest)
    | rest => pure (none, rest)
  let u ← TimeUnit.ofName? (rest.takeWhile isUnitChar)
  let rest := rest.dropWhile isUnitChar
  let sum ← add? sum (← whole? n u) u.step
  let sum ← match fraction with
    | some (num, den) => do add? sum (← part? num den u) u.fractionStep
    | none => pure sum
  match rest with
  | [] => return (sum, [])
  | c :: _ => if c.isDigit || isBlank c then return (sum, rest) else none

def readItems : Nat → List Char → Duration → Option Duration
  | 0, _, _ => none
  | fuel + 1, text, sum =>
    match text.dropWhile isBlank with
    | [] => some sum
    | c :: rest =>
      if c.isDigit then
        match readItem (c.toNat - '0'.toNat) rest sum with
        | some (sum, rest) => readItems fuel rest sum
        | none => none
      else none

/-- The span that a text spells: numbers, possibly with a fraction, and their units. A lone
zero needs none. -/
def ofText? (text : String) : Option Duration :=
  if text == "0" then some default
  else if allBlank text then none
  else readItems (text.length + 1) text.toList default

def item (name : String) (n : Nat) : List String :=
  if n = 0 then [] else [toString n ++ name]

def pluralItem (name : String) (n : Nat) : List String :=
  if n = 0 then [] else [toString n ++ name ++ (if n = 1 then "" else "s")]

def unitText (d : Duration) : String :=
  let months := d.seconds % 31557600
  let days := months % 2630016
  let hours := days % 86400
  let items :=
    pluralItem "year" (d.seconds / 31557600) ++ pluralItem "month" (months / 2630016) ++
    pluralItem "day" (days / 86400) ++ item "h" (hours / 3600) ++ item "m" (hours % 3600 / 60) ++
    item "s" (hours % 60) ++ item "ms" (d.subsecond / 1000000) ++
    item "us" (d.subsecond / 1000 % 1000) ++ item "ns" (d.subsecond % 1000)
  if items.isEmpty then "0s" else String.intercalate " " items

end Rollout.Duration
