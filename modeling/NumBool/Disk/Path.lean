/-!
# Paths

A path is a list of names behind a root or behind the working directory.  Reading a
path drops empty names and names that are a single dot, and keeps the double dot;
resolving it makes it absolute and removes the double dots name by name, without a
look at the disk.
-/

namespace NumBool.Disk

/-- Divides a text at its slashes. -/
def splitSlash : List Char → List (List Char)
  | [] => [[]]
  | c :: rest =>
    if c = '/' then [] :: splitSlash rest
    else
      match splitSlash rest with
      | [] => [[c]]
      | name :: names => (c :: name) :: names

/-- The names between the slashes of a text, empty ones left out. -/
def namesOf (text : String) : List String :=
  ((splitSlash text.toList).filter (fun name => !name.isEmpty)).map String.ofList

/-- The absolute place that some names lead to from the root. -/
abbrev Place := List String

/-- The text of an absolute place. -/
def Place.text (place : Place) : String :=
  "/" ++ "/".intercalate place

/-- How a path starts; two slashes are kept apart from one. -/
inductive Root where
  | relative
  | single
  | double
  deriving DecidableEq, Repr

/-- A path: how it starts and the names on it. -/
structure Path where
  root : Root
  names : List String
  deriving DecidableEq, Repr

namespace Root

/-- The start of a path as it is written. -/
def text : Root → String
  | relative => ""
  | single => "/"
  | double => "//"

/-- How a text starts; three slashes and more count as one. -/
def ofChars : List Char → Root
  | '/' :: '/' :: '/' :: _ => single
  | '/' :: '/' :: _ => double
  | '/' :: _ => single
  | _ => relative

end Root

namespace Path

/-- Reads a path. -/
def ofText (text : String) : Path where
  root := .ofChars text.toList
  names := (namesOf text).filter (· != ".")

/-- A path as it is written; the working directory itself is a single dot. -/
def text (path : Path) : String :=
  match path.root, path.names with
  | .relative, [] => "."
  | root, names => root.text ++ "/".intercalate names

/-- The path from the root, the working directory put in front of a relative one. -/
def absolute (cwd : Place) (path : Path) : Path :=
  match path.root with
  | .relative => ⟨.single, cwd ++ path.names⟩
  | _ => path

/-- One name further; the double dot goes back by one. -/
def follow (place : Place) (name : String) : Place :=
  if name = ".." then place.dropLast else place ++ [name]

/-- The place that a path leads to. -/
def resolve (cwd : Place) (path : Path) : Place :=
  (path.absolute cwd).names.foldl follow []

end Path

end NumBool.Disk
