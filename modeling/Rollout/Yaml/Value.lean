import Rollout.Number.Binary64

/-! YAML values.

Mappings keep the order of their entries. `Value.same` is the equality under which the keys
of one mapping are different: it does not look at the order of entries. -/

set_option autoImplicit false

namespace Rollout.Yaml

open Rollout.Number

inductive Value where
  | null
  | bool (b : Bool)
  | int (n : Int)
  | float (x : Binary64)
  | text (s : String)
  | sequence (items : List Value)
  | mapping (entries : List (Value × Value))
  /-- A value under an application tag, named without its exclamation mark. -/
  | tagged (name : String) (value : Value)
  deriving Inhabited, Repr

namespace Value

/-- Floats are the same if they are equal as numbers, or both no number. -/
def sameFloat : Binary64 → Binary64 → Bool
  | .nan, .nan => true
  | .finite _ 0 _, .finite _ 0 _ => true
  | x, y => x = y

mutual

def same : Value → Value → Bool
  | .null, .null => true
  | .bool a, .bool b => a == b
  | .int a, .int b => a == b
  | .float a, .float b => sameFloat a b
  | .text a, .text b => a == b
  | .sequence a, .sequence b => sameItems a b
  | .mapping a, .mapping b => a.length == b.length && sameEntries a b
  | .tagged t a, .tagged u b => t == u && same a b
  | _, _ => false

def sameItems : List Value → List Value → Bool
  | [], [] => true
  | a :: as, b :: bs => same a b && sameItems as bs
  | _, _ => false

/-- Every entry on the left has one on the right with the same key and value. -/
def sameEntries : List (Value × Value) → List (Value × Value) → Bool
  | [], _ => true
  | (k, v) :: rest, entries =>
    (entries.any fun entry => same k entry.1 && same v entry.2) && sameEntries rest entries

end

def hasKey (key : Value) (entries : List (Value × Value)) : Bool :=
  entries.any fun entry => same key entry.1

/-- Writes an entry: the key keeps its place if it is there already, and comes last if not. -/
def putEntry (key value : Value) : List (Value × Value) → List (Value × Value)
  | [] => [(key, value)]
  | entry :: rest =>
    if same key entry.1 then (entry.1, value) :: rest else entry :: putEntry key value rest

end Value

end Rollout.Yaml
