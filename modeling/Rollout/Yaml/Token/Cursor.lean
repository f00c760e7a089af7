import Rollout.Yaml.Character
import Rollout.Yaml.Fault

/-! A place in a text with unified line ends. -/

set_option autoImplicit false

namespace Rollout.Yaml

structure Cursor where
  rest : List Char
  line : Nat
  column : Nat
  /-- Characters passed since the start of the text. -/
  index : Nat

namespace Cursor

def start (text : List Char) : Cursor :=
  ⟨text, 0, 0, 0⟩

def advance (c : Cursor) (n : Nat) : Cursor :=
  { c with rest := c.rest.drop n, column := c.column + n, index := c.index + n }

def nextLine (c : Cursor) : Cursor :=
  { rest := c.rest.drop 1, line := c.line + 1, column := 0, index := c.index + 1 }

def takeWhile (c : Cursor) (p : Char → Bool) : List Char :=
  c.rest.takeWhile p

def skipWhile (c : Cursor) (p : Char → Bool) : Cursor :=
  c.advance (c.rest.takeWhile p).length

def looksAt (c : Cursor) (p : Char → Bool) : Bool :=
  match c.rest with
  | [] => false
  | x :: _ => p x

def atBreak (c : Cursor) : Bool := c.looksAt isBreak

def atSpace (c : Cursor) : Bool := c.looksAt isSpace

def atBlank (c : Cursor) : Bool := startsBlank c.rest

def atDocumentMark (c : Cursor) : Bool :=
  c.column == 0 &&
  match c.rest with
  | '-' :: '-' :: '-' :: rest => startsBlank rest
  | '.' :: '.' :: '.' :: rest => startsBlank rest
  | _ => false

/-- Passes blanks and a comment, which have to reach the end of the line, and that end. -/
def finishLine (c : Cursor) : Except Fault Cursor :=
  let c := c.skipWhile isSpace
  let c := if c.looksAt (· == '#') then c.skipWhile (!isBreak ·) else c
  match c.rest with
  | [] => .ok c
  | x :: _ => if isBreak x then .ok c.nextLine else .error .badToken

end Cursor

end Rollout.Yaml
