import Rollout.Text.Visible

/-! Texts between double quotes, as messages show paths and command lines. -/

set_option autoImplicit false

namespace Rollout.Text

def hex (n : Nat) : List Char :=
  Nat.toDigits 16 n

def escapedChar (c : Char) : List Char :=
  match c with
  | '\x00' => ['\\', '0']
  | '\t' => ['\\', 't']
  | '\n' => ['\\', 'n']
  | '\r' => ['\\', 'r']
  | '"' => ['\\', '"']
  | '\\' => ['\\', '\\']
  | c => if isVisible c then [c] else ['\\', 'u', '\x7b'] ++ hex c.toNat ++ ['\x7d']

/-- A path as messages show it: quotes and backslashes are escaped, and so are characters
that could not be seen. -/
def quotedPath (path : String) : String :=
  String.ofList ('"' :: path.toList.flatMap escapedChar ++ ['"'])

def escapedArgumentChar (c : Char) : List Char :=
  if c.toNat < 0x80 then
    match c with
    | '\x00' => ['\\', '0']
    | '\t' => ['\\', 't']
    | '\n' => ['\\', 'n']
    | '\r' => ['\\', 'r']
    | '"' => ['\\', '"']
    | '\'' => ['\\', '\'']
    | '\\' => ['\\', '\\']
    | c =>
      if c.toNat < 0x20 || c.toNat == 0x7F then
        ['\\', 'x'] ++ List.replicate (2 - (hex c.toNat).length) '0' ++ hex c.toNat
      else [c]
  else escapedChar c

/-- An argument as messages show it inside a command line. ASCII control characters are
written by their two digit code, and an apostrophe is escaped too. -/
def quotedArgument (argument : String) : String :=
  String.ofList ('"' :: argument.toList.flatMap escapedArgumentChar ++ ['"'])

end Rollout.Text
