/-! Reading bytes as UTF-8.

`pieces` cuts the bytes into characters and the longest pieces that no valid text
can continue. Strict reading refuses any such piece, lossy reading replaces it. -/

set_option autoImplicit false

namespace Rollout.Text

abbrev Bytes := List UInt8

def isContinuation (b : UInt8) : Bool :=
  0x80 ≤ b && b ≤ 0xBF

def isSecondOfThree (first second : UInt8) : Bool :=
  if first == 0xE0 then 0xA0 ≤ second && second ≤ 0xBF
  else if first == 0xED then 0x80 ≤ second && second ≤ 0x9F
  else isContinuation second

def isSecondOfFour (first second : UInt8) : Bool :=
  if first == 0xF0 then 0x90 ≤ second && second ≤ 0xBF
  else if first == 0xF4 then 0x80 ≤ second && second ≤ 0x8F
  else isContinuation second

def bits (b : UInt8) (width : Nat) : Nat :=
  b.toNat % Nat.pow 2 width

/-- The bytes as characters, with `none` for each invalid piece. -/
def pieces : Bytes → List (Option Char)
  | [] => []
  | [a] => [if a < 0x80 then some (Char.ofNat a.toNat) else none]
  | a :: b :: rest =>
    if a < 0x80 then
      some (Char.ofNat a.toNat) :: pieces (b :: rest)
    else if 0xC2 ≤ a && a ≤ 0xDF then
      if isContinuation b then
        some (Char.ofNat (bits a 5 * 64 + bits b 6)) :: pieces rest
      else none :: pieces (b :: rest)
    else if 0xE0 ≤ a && a ≤ 0xEF then
      if isSecondOfThree a b then
        match rest with
        | [] => [none]
        | c :: rest' =>
          if isContinuation c then
            some (Char.ofNat (bits a 4 * 4096 + bits b 6 * 64 + bits c 6)) :: pieces rest'
          else none :: pieces (c :: rest')
      else none :: pieces (b :: rest)
    else if 0xF0 ≤ a && a ≤ 0xF4 then
      if isSecondOfFour a b then
        match rest with
        | [] => [none]
        | [c] => if isContinuation c then [none] else none :: pieces [c]
        | c :: d :: rest' =>
          if isContinuation c then
            if isContinuation d then
              some (Char.ofNat (bits a 3 * 262144 + bits b 6 * 4096 + bits c 6 * 64 + bits d 6))
                :: pieces rest'
            else none :: pieces (d :: rest')
          else none :: pieces (c :: d :: rest')
      else none :: pieces (b :: rest)
    else none :: pieces (b :: rest)
termination_by bytes => bytes.length

def decode? (bytes : Bytes) : Option String :=
  (pieces bytes).mapM id |>.map String.ofList

/-- The text that the bytes encode, with U+FFFD in place of each invalid piece. -/
def decodeLossy (bytes : Bytes) : String :=
  String.ofList ((pieces bytes).map (·.getD '\uFFFD'))

def encode (text : String) : Bytes :=
  text.toUTF8.toList

end Rollout.Text
