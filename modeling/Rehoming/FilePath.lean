/-! Names of files as they are written, with slashes between their parts. -/

namespace Rehoming

structure FilePath where
  text : String
  deriving DecidableEq, Inhabited

namespace FilePath

/-- The parts between slashes, the empty ones included. -/
def parts (path : FilePath) : List (List Char) := path.text.toList.splitOn '/'

def isAbsolute (path : FilePath) : Bool := path.text.toList.head? == some '/'

/-- A part that leads nowhere. -/
def isIdle (part : List Char) : Bool := part.isEmpty || part == ['.']

private def dropEnd (p : List Char → Bool) (parts : List (List Char)) : List (List Char) :=
  (parts.reverse.dropWhile p).reverse

private def joined (parts : List (List Char)) : List Char := ['/'].intercalate parts

/-- A path seen from a directory. -/
def join (directory path : FilePath) : FilePath :=
  let front := directory.text.toList
  if path.isAbsolute then path
  else if front.isEmpty ∨ front.getLast? = some '/' then ⟨directory.text ++ path.text⟩
  else ⟨directory.text ++ "/" ++ path.text⟩

/-- What comes after a part of its own that is a tilde. -/
def afterTilde? (path : FilePath) : Option FilePath :=
  match path.parts with
  | ['~'] :: rest => some ⟨String.ofList (joined (dropEnd isIdle (rest.dropWhile isIdle)))⟩
  | _ => none

/-- A tilde in front stands for the home directory. -/
def expandTilde (path home : FilePath) : FilePath :=
  match path.afterTilde? with
  | some rest => home.join rest
  | none => path

/-- The directory that a path leads into; none if the path has no last part. A dot
counts as a part only in front. -/
def parent? (path : FilePath) : Option FilePath :=
  match path.parts with
  | [] => none
  | first :: rest =>
    if path.isAbsolute then
      match dropEnd isIdle rest with
      | [] => none
      | body => some ⟨String.ofList ('/' :: joined (dropEnd isIdle body.dropLast))⟩
    else
      match dropEnd isIdle rest, first with
      | [], [] => none
      | [], _ => some ⟨""⟩
      | body, first => some ⟨String.ofList (joined (first :: dropEnd isIdle body.dropLast))⟩

/-- The directory in which a file of this name would be. -/
def directory (path : FilePath) : FilePath :=
  match path.parent? with
  | some parent => if parent.text.isEmpty then ⟨"."⟩ else parent
  | none => ⟨"."⟩

/-- The home directory: where one works, if none is named. -/
def homeOr (named : Option String) (working : FilePath) : FilePath :=
  match named with
  | some home => if home.isEmpty then working else ⟨home⟩
  | none => working

end FilePath
end Rehoming
