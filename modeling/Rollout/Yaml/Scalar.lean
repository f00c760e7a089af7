import Rollout.Yaml.Fault
import Rollout.Yaml.Value

/-! What a plain scalar stands for. -/

set_option autoImplicit false

namespace Rollout.Yaml.Scalar

open Rollout.Number

def null? (text : String) : Bool :=
  text == "null" || text == "Null" || text == "NULL" || text == "~"

def bool? (text : String) : Option Bool :=
  if text == "true" || text == "True" || text == "TRUE" then some true
  else if text == "false" || text == "False" || text == "FALSE" then some false
  else none

def digitIn? (radix : Nat) (c : Char) : Option Nat :=
  let value :=
    if c.isDigit then c.toNat - '0'.toNat
    else if 'a' ≤ c && c ≤ 'z' then c.toNat - 'a'.toNat + 10
    else if 'A' ≤ c && c ≤ 'Z' then c.toNat - 'A'.toNat + 10
    else radix
  if value < radix then some value else none

def natIn? (radix : Nat) : List Char → Option Nat
  | [] => none
  | digits => digits.foldlM (fun n c => (digitIn? radix c).map (radix * n + ·)) 0

/-- Digits with a zero in front of others are text, not a number. -/
def zeroLed (text : List Char) : Bool :=
  let digits := match text with
    | '-' :: r => r
    | '+' :: r => r
    | r => r
  match digits with
  | '0' :: c :: r => (c :: r).all Char.isDigit
  | _ => false

def magnitude? : List Char → Option Nat
  | '0' :: 'x' :: digits => natIn? 16 digits
  | '0' :: 'o' :: digits => natIn? 8 digits
  | '0' :: 'b' :: digits => natIn? 2 digits
  | digits => if zeroLed digits then none else natIn? 10 digits

def integer? (text : List Char) : Option Int :=
  match text with
  | '-' :: digits => (magnitude? digits).map fun n => -(n : Int)
  | '+' :: digits => (magnitude? digits).map Int.ofNat
  | digits => (magnitude? digits).map Int.ofNat

/-- Integers are kept if a word of 64 bits holds them, with or without a sign. What only a
word of 128 bits holds is refused, and anything larger is no integer. -/
def boundedInteger? (text : List Char) : Option (Except Fault Int) :=
  match integer? text with
  | some n =>
    if -Int.pow 2 63 ≤ n && n < Int.pow 2 64 then some (.ok n)
    else if -Int.pow 2 127 ≤ n && n < Int.pow 2 128 then some (.error .integerRange)
    else none
  | none => none

/-- The float that a text spells; a decimal too large for any float is none. -/
def float? (text : String) : Option Binary64 :=
  let unsigned := match text.toList with
    | '+' :: r => String.ofList r
    | _ => text
  if unsigned == ".inf" || unsigned == ".Inf" || unsigned == ".INF" then some (.infinite false)
  else if text == "-.inf" || text == "-.Inf" || text == "-.INF" then some (.infinite true)
  else if text == ".nan" || text == ".NaN" || text == ".NAN" then some .nan
  else match Binary64.ofText? text.toList with
    | some (.finite s m e) => some (.finite s m e)
    | _ => none

def resolve (text : String) : Except Fault Value :=
  if text.isEmpty || null? text then .ok .null
  else match bool? text with
    | some b => .ok (.bool b)
    | none =>
      match boundedInteger? text.toList with
      | some (.ok n) => .ok (.int n)
      | some (.error fault) => .error fault
      | none =>
        if zeroLed text.toList then .ok (.text text)
        else match float? text with
          | some x => .ok (.float x)
          | none => .ok (.text text)

/-- The value of a scalar under a tag of YAML's own; other tags leave the text as it is. -/
def resolveAs (tag text : String) : Except Fault Value :=
  if tag == "tag:yaml.org,2002:bool" then
    match bool? text with
    | some b => .ok (.bool b)
    | none => .error .tagMismatch
  else if tag == "tag:yaml.org,2002:int" then
    match boundedInteger? text.toList with
    | some result => result.map .int
    | none => .error .tagMismatch
  else if tag == "tag:yaml.org,2002:float" then
    match float? text with
    | some x => .ok (.float x)
    | none => .error .tagMismatch
  else if tag == "tag:yaml.org,2002:null" then
    if null? text then .ok .null else .error .tagMismatch
  else .ok (.text text)

def needsQuotes (text : String) : Bool :=
  match resolve text with
  | .ok (.text _) => zeroLed text.toList
  | _ => true

end Rollout.Yaml.Scalar
