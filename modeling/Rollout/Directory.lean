import Rollout.Text.Utf8

/-! A directory in which settings are found and saved: its files by their paths below it. -/

set_option autoImplicit false

namespace Rollout

open Text

structure Directory where
  files : List (List String × Bytes) := []

namespace Directory

inductive Fault where
  | notFound
  | isDirectory
  | notADirectory
  | nameTooLong
  | nulInName
  | notUtf8
  deriving DecidableEq, Repr

def Fault.message : Fault → String
  | .notFound => "No such file or directory (os error 2)"
  | .isDirectory => "Is a directory (os error 21)"
  | .notADirectory => "Not a directory (os error 20)"
  | .nameTooLong => "File name too long (os error 36)"
  | .nulInName => "file name contained an unexpected NUL byte"
  | .notUtf8 => "stream did not contain valid UTF-8"

/-- The steps of a path, without those that stay where they are. -/
def steps : List Char → (step : List Char) → List String
  | [], step => if step.isEmpty || step == ['.'] then [] else [String.ofList step]
  | c :: rest, step =>
    if c = '/' then
      if step.isEmpty || step == ['.'] then steps rest [] else String.ofList step :: steps rest []
    else steps rest (step ++ [c])

inductive Place where
  | file (content : Bytes)
  | directory
  /-- Nothing, in a directory that is there. -/
  | free (steps : List String)
  | unreachable (fault : Fault)

def wantsDirectory (path : List Char) : Bool :=
  match path.reverse with
  | '/' :: _ => true
  | '.' :: '/' :: _ => true
  | _ => false

def isInside (steps : List String) (d : Directory) : Bool :=
  d.files.any fun file => steps.isPrefixOf file.1 && steps.length < file.1.length

def isBelowFile (steps : List String) (d : Directory) : Bool :=
  d.files.any fun file => file.1.isPrefixOf steps && file.1.length < steps.length

/-- Nothing is known of what lies outside of the directory, except that it exists. -/
def locate (d : Directory) (path : String) : Place :=
  let chars := path.toList
  let way := steps chars []
  if chars.contains '\x00' then .unreachable .nulInName
  else if chars.isEmpty then .unreachable .notFound
  else if way.any fun step => 255 < step.utf8ByteSize then .unreachable .nameTooLong
  else if way.all (· == "..") then .directory
  else if chars.head? == some '/' || way.head? == some ".." then .unreachable .notFound
  else match d.files.lookup way with
    | some content =>
      if wantsDirectory chars then .unreachable .notADirectory else .file content
    | none =>
      if isInside way d then .directory
      else if isBelowFile way d then .unreachable .notADirectory
      else if way.dropLast.isEmpty || isInside way.dropLast d then
        if wantsDirectory chars then .unreachable .isDirectory else .free way
      else .unreachable .notFound

def read (d : Directory) (path : String) : Except Fault Bytes :=
  match d.locate path with
  | .file content => .ok content
  | .directory => .error .isDirectory
  | .free _ => .error .notFound
  | .unreachable .isDirectory => .error .notFound
  | .unreachable fault => .error fault

def readText (d : Directory) (path : String) : Except Fault String := do
  match decode? (← d.read path) with
  | some text => return text
  | none => .error .notUtf8

def put (d : Directory) (path : String) (content : Bytes) : Directory :=
  let way := steps path.toList []
  ⟨(way, content) :: d.files.filter (·.1 != way)⟩

def remove (d : Directory) (path : String) : Directory :=
  let way := steps path.toList []
  ⟨d.files.filter (·.1 != way)⟩

def write (d : Directory) (path : String) (content : Bytes) : Except Fault Directory :=
  match d.locate path with
  | .file _ | .free _ => .ok (d.put path content)
  | .directory => .error .isDirectory
  | .unreachable fault => .error fault

end Directory

end Rollout
