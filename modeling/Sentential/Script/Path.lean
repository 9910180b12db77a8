import Sentential.Text.Field

/-!
# Paths

A path leads from a directory down through names, a single dot staying where it is and two dots
going back up. It leads on only from directories. A folder is a directory of which one file is
known, with the directories on the way to the file.
-/
namespace Sentential.Path

def baseName (path : String) : String :=
  String.ofList (path.toList.reverse.takeWhile (· ≠ '/')).reverse

/-- The names on the way down from the starting directory. -/
abbrev Place := List (List Char)

/-- The place that one part of a path leads to, or none above the starting directory. -/
def enter (place : Place) (part : List Char) : Option Place :=
  if part = [] ∨ part = ['.'] then some place
  else if part = ['.', '.'] then (if place = [] then none else some place.dropLast)
  else some (place ++ [part])

def isAbsolute (path : List Char) : Bool := path.head? == some '/'

structure Folder where
  directories : List Place
  file : Place
  deriving DecidableEq, Repr

def follow (passed : List Place) (place : Place) : List (List Char) → Option Folder
  | [] => some ⟨passed, place⟩
  | part :: more =>
    match enter place part with
    | none => none
    | some next => follow (place :: passed) next more

/-- The folder that has a file at a path. -/
def Folder.ofFile? (path : String) : Option Folder :=
  if isAbsolute path.toList then none else follow [] [] (Text.fields '/' path.toList)

def Folder.leads (folder : Folder) (place : Place) : List (List Char) → Bool
  | [] => place == folder.file
  | part :: more =>
    folder.directories.contains place &&
      match enter place part with
      | none => false
      | some next => folder.leads next more

/-- Whether a path names the file of a folder. -/
def Folder.finds (folder : Folder) (path : String) : Bool :=
  !isAbsolute path.toList && folder.leads [] (Text.fields '/' path.toList)

end Sentential.Path
