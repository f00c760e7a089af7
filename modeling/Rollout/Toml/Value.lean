import Rollout.Number.Binary64

/-! TOML values. -/

set_option autoImplicit false

namespace Rollout.Toml

open Number

inductive Value where
  | text (s : String)
  | integer (n : Int)
  | float (x : Binary64)
  | bool (b : Bool)
  /-- A date, a time of day, or both. -/
  | moment
  | array (items : List Value)
  | table (entries : List (String × Value))
  deriving Repr, Inhabited

end Rollout.Toml
