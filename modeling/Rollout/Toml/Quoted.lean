/-! The quoted texts of TOML: four kinds of quotes, the text between them read back, and the
kind in which a text is written. -/

set_option autoImplicit false

namespace Rollout.Toml

def isSpace (c : Char) : Bool :=
  c == ' ' || c == '\t'

def isPlainChar (c : Char) : Bool :=
  c == '\t' || (0x20 ≤ c.toNat && c.toNat != 0x7F)

def escaped? : Char → Option Char
  | 'b' => some '\x08'
  | 't' => some '\t'
  | 'n' => some '\n'
  | 'f' => some '\x0c'
  | 'r' => some '\r'
  | '"' => some '"'
  | '\\' => some '\\'
  | _ => none

def hexDigit? (c : Char) : Option Nat :=
  if c.isDigit then some (c.toNat - '0'.toNat)
  else if 'a' ≤ c && c ≤ 'f' then some (c.toNat - 'a'.toNat + 10)
  else if 'A' ≤ c && c ≤ 'F' then some (c.toNat - 'A'.toNat + 10)
  else none

def ofHex? (digits : List Char) : Option Char := do
  let code ← digits.foldlM (fun n c => (hexDigit? c).map (16 * n + ·)) 0
  if h : code.isValidChar then return Char.ofNatAux code h else none

def consChar (c : Char) (taken : Option (List Char × List Char)) : Option (List Char × List Char) :=
  taken.map fun t => (c :: t.1, t.2)

def consFound (found : Option Char) (taken : Option (List Char × List Char)) : Option (List Char × List Char) :=
  found.bind fun c => consChar c taken

def takeBasic : List Char → Option (List Char × List Char)
  | [] => none
  | '"' :: rest => some ([], rest)
  | '\\' :: 'u' :: a :: b :: c :: d :: rest =>
    consFound (ofHex? [a, b, c, d]) (takeBasic rest)
  | '\\' :: 'U' :: a :: b :: c :: d :: e :: f :: g :: h :: rest =>
    consFound (ofHex? [a, b, c, d, e, f, g, h]) (takeBasic rest)
  | '\\' :: c :: rest => consFound (escaped? c) (takeBasic rest)
  | c :: rest => if isPlainChar c then consChar c (takeBasic rest) else none

def takeLiteral : List Char → Option (List Char × List Char)
  | [] => none
  | '\'' :: rest => some ([], rest)
  | c :: rest => if isPlainChar c then consChar c (takeLiteral rest) else none

def endsLine : List Char → Bool
  | '\n' :: _ => true
  | '\r' :: '\n' :: _ => true
  | c :: rest => isSpace c && endsLine rest
  | [] => false

/-- The text up to three double quotes, on one line or more. Blanks and line ends are left
out where `skipping` holds, as behind a backslash at the end of a line. -/
def takeLongBasic : List Char → (skipping : Bool) → Option (List Char × List Char)
  | [], _ => none
  | '"' :: '"' :: '"' :: '"' :: '"' :: rest, _ => some (['"', '"'], rest)
  | '"' :: '"' :: '"' :: '"' :: rest, _ => some (['"'], rest)
  | '"' :: '"' :: '"' :: rest, _ => some ([], rest)
  | '\\' :: 'u' :: a :: b :: c :: d :: rest, _ =>
    consFound (ofHex? [a, b, c, d]) (takeLongBasic rest false)
  | '\\' :: 'U' :: a :: b :: c :: d :: e :: f :: g :: h :: rest, _ =>
    consFound (ofHex? [a, b, c, d, e, f, g, h]) (takeLongBasic rest false)
  | '\\' :: c :: rest, _ =>
    match escaped? c with
    | some x => consChar x (takeLongBasic rest false)
    | none => if endsLine (c :: rest) then takeLongBasic rest true else none
  | '\r' :: '\n' :: rest, skipping =>
    if skipping then takeLongBasic rest true else consChar '\n' (takeLongBasic rest false)
  | c :: rest, skipping =>
    if skipping && (isSpace c || c == '\n') then takeLongBasic rest true
    else if isPlainChar c || c == '\n' then consChar c (takeLongBasic rest false)
    else none

def takeLongLiteral : List Char → Option (List Char × List Char)
  | [] => none
  | '\'' :: '\'' :: '\'' :: '\'' :: '\'' :: rest => some (['\'', '\''], rest)
  | '\'' :: '\'' :: '\'' :: '\'' :: rest => some (['\''], rest)
  | '\'' :: '\'' :: '\'' :: rest => some ([], rest)
  | '\r' :: '\n' :: rest => consChar '\n' (takeLongLiteral rest)
  | c :: rest =>
    if isPlainChar c || c == '\n' then consChar c (takeLongLiteral rest) else none

/-- A line end right behind the opening quotes does not count. -/
def dropLineEnd : List Char → List Char
  | '\n' :: rest => rest
  | '\r' :: '\n' :: rest => rest
  | rest => rest

def takeQuoted : List Char → Option (List Char × List Char)
  | '"' :: '"' :: '"' :: rest => takeLongBasic (dropLineEnd rest) false
  | '"' :: rest => takeBasic rest
  | '\'' :: '\'' :: '\'' :: rest => takeLongLiteral (dropLineEnd rest)
  | '\'' :: rest => takeLiteral rest
  | _ => none

def longestRow (x : Char) : List Char → (row longest : Nat) → Nat
  | [], row, longest => max row longest
  | c :: rest, row, longest =>
    if c = x then longestRow x rest (row + 1) longest else longestRow x rest 0 (max row longest)

def needsEscape (c : Char) : Bool :=
  c != '\t' && c != '\n' && (c.toNat < 0x20 || c.toNat == 0x7F)

inductive QuoteKind where
  | basic | literal | longBasic | longLiteral
  deriving DecidableEq, Repr

/-- The first kind of quotes between which a text needs no escapes, or the kind that can
escape what has to be. -/
def QuoteKind.ofText (text : List Char) : QuoteKind :=
  let escapes := text.any needsEscape
  let backslash := text.contains '\\'
  let newline := text.contains '\n'
  let doubles := longestRow '"' text 0 0
  let singles := longestRow '\'' text 0 0
  if !escapes && !backslash && doubles = 0 && !newline then .basic
  else if !escapes && singles = 0 && !newline then .literal
  else if !escapes && !backslash && doubles ≤ 2 then .longBasic
  else if !escapes && singles ≤ 2 then .longLiteral
  else if newline then .longBasic
  else .basic

def upperHex4 (n : Nat) : List Char :=
  let digits := (Nat.toDigits 16 n).map Char.toUpper
  List.replicate (4 - digits.length) '0' ++ digits

def escapeChar (long : Bool) (c : Char) : List Char :=
  if c = '\x08' then ['\\', 'b']
  else if c = '\t' then ['\\', 't']
  else if c = '\n' then if long then ['\n'] else ['\\', 'n']
  else if c = '\x0c' then ['\\', 'f']
  else if c = '\r' then ['\\', 'r']
  else if c = '\\' then ['\\', '\\']
  else if c.toNat < 0x20 || c.toNat == 0x7F then '\\' :: 'u' :: upperHex4 c.toNat
  else [c]

/-- The text between double quotes; `row` quotes stand before it that are not escaped, and
at most `limit` may. -/
def escapeText (long : Bool) (limit : Nat) : List Char → (row : Nat) → List Char
  | [], _ => []
  | c :: rest, row =>
    if c = '"' then
      if row < limit then '"' :: escapeText long limit rest (row + 1)
      else '\\' :: '"' :: escapeText long limit rest 0
    else escapeChar long c ++ escapeText long limit rest 0

def opening (text : List Char) : List Char :=
  if text.contains '\n' then ['\n'] else []

def quoted (text : List Char) : List Char :=
  match QuoteKind.ofText text with
  | .basic => '"' :: escapeText false 0 text 0 ++ ['"']
  | .literal => '\'' :: text ++ ['\'']
  | .longBasic =>
    ['"', '"', '"'] ++ opening text ++ escapeText true 2 text 0 ++ ['"', '"', '"']
  | .longLiteral => ['\'', '\'', '\''] ++ opening text ++ text ++ ['\'', '\'', '\'']

end Rollout.Toml
