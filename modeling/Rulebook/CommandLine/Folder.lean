import Rulebook.Text.Quoted
import Rulebook.Text.Numeral

/-!
Opening files. A path is tidied before it is used: repeated slashes, single dots and slashes at the
end mean nothing, and an empty path is the folder itself.
-/

namespace Rulebook.CommandLine

/-! ## Paths -/

def pathParts : List Char → List (List Char)
  | [] => [[]]
  | char :: rest =>
      if char = '/' then [] :: pathParts rest
      else
        match pathParts rest with
        | [] => [[char]]
        | part :: others => (char :: part) :: others

def steps (path : List Char) : List (List Char) :=
  (pathParts path).filter fun part => !part.isEmpty && part != ['.']

/-- Exactly two slashes at the front stay two. -/
def rootOf : List Char → List Char
  | '/' :: '/' :: '/' :: _ => ['/']
  | '/' :: '/' :: _ => ['/', '/']
  | '/' :: _ => ['/']
  | _ => []

def joinSteps : List (List Char) → List Char
  | [] => []
  | [last] => last
  | first :: next :: others => first ++ '/' :: joinSteps (next :: others)

def tidy (path : List Char) : List Char :=
  match rootOf path ++ joinSteps (steps path) with
  | [] => ['.']
  | tidied => tidied

/-! ## Opening -/

inductive Obstacle where
  | notFound
  | notAFolder
  | isAFolder
  | denied
  | unreadable
  deriving DecidableEq, Repr

def Obstacle.kind : Obstacle → List Char
  | .notFound => "FileNotFoundError".toList
  | .notAFolder => "NotADirectoryError".toList
  | .isAFolder => "IsADirectoryError".toList
  | .denied => "PermissionError".toList
  | .unreadable => "OSError".toList

def Obstacle.number : Obstacle → Nat
  | .notFound => 2
  | .notAFolder => 20
  | .isAFolder => 21
  | .denied => 13
  | .unreadable => 5

def Obstacle.detail : Obstacle → List Char
  | .notFound => "No such file or directory".toList
  | .notAFolder => "Not a directory".toList
  | .isAFolder => "Is a directory".toList
  | .denied => "Permission denied".toList
  | .unreadable => "Input/output error".toList

def Obstacle.message (obstacle : Obstacle) (path : List Char) : List Char :=
  obstacle.kind ++ " [Errno ".toList ++ Numeral.nat obstacle.number ++ "] ".toList ++
    obstacle.detail ++ ": ".toList ++ Quoted.encode (tidy path)

abbrev Opened := Except Obstacle (List UInt8)

/-- The files of a working folder that holds nothing else, by their paths. -/
abbrev Folder := List (List Char × List UInt8)

def Folder.holdsFolder (folder : Folder) (path : List (List Char)) : Bool :=
  folder.any fun file =>
    let inside := steps file.1
    path.isPrefixOf inside && path.length < inside.length

/-- Goes down the steps of a path; `here` lists the steps taken so far. Above the working folder
there are folders, but no files. -/
def Folder.descend (folder : Folder) (here : List (List Char)) : List (List Char) → Opened
  | [] =>
      if here.isEmpty || folder.holdsFolder here then .error .isAFolder
      else
        match folder.find? fun file => steps file.1 == here with
        | some file => .ok file.2
        | none => .error .notFound
  | step :: others =>
      if here.isEmpty || folder.holdsFolder here then
        if step = ['.', '.'] then
          if here.isEmpty then
            if others.all (· == ['.', '.']) then .error .isAFolder else .error .notFound
          else folder.descend here.dropLast others
        else folder.descend (here ++ [step]) others
      else if folder.any fun file => steps file.1 == here then .error .notAFolder
      else .error .notFound

def Folder.open (folder : Folder) (path : List Char) : Opened :=
  match rootOf path with
  | [] => folder.descend [] (steps path)
  | _ => if (steps path).all (· == ['.', '.']) then .error .isAFolder else .error .notFound

end Rulebook.CommandLine
