import ApiTypes.Error
import ApiTypes.Path

/-!
A tree of files below a working directory, and what is at a path in it.
-/

namespace ApiTypes

inductive Entry where
  | file (content : ByteArray)
  | directory

/-- Files by the steps to them. The directories are those that the files are in. -/
structure FileTree where
  files : List (List String × ByteArray)

namespace FileTree

/-- A place relative to the working directory: how many steps above it, and the steps below
that. -/
structure Place where
  above : Nat := 0
  below : List String := []
  deriving DecidableEq, Repr

/-- What is at a place. Above the working directory only directories on the way are known. -/
def at? (tree : FileTree) (place : Place) : Option Entry :=
  if place.above > 0 then if place.below.isEmpty then some .directory else none
  else
    match tree.files.find? fun (steps, _) => steps == place.below with
    | some (_, content) => some (.file content)
    | none =>
      if place.below.isEmpty || tree.files.any fun (steps, _) => place.below.isPrefixOf steps then
        some .directory
      else none

def Place.up (place : Place) : Place :=
  if place.below.isEmpty then { place with above := place.above + 1 }
  else { place with below := place.below.dropLast }

def Place.down (place : Place) (step : String) : Place :=
  { place with below := place.below ++ [step] }

/-- Follows steps from a place at which `entry` is. -/
def walk (tree : FileTree) (place : Place) (entry : Entry) :
    List String → Except FileError Entry
  | [] => .ok entry
  | step :: rest =>
    match entry with
    | .file _ => .error .throughFile
    | .directory =>
      if Path.isLongStep step then .error .nameTooLong
      else
        let next := if step = ".." then place.up else place.down step
        match tree.at? next with
        | some entry => walk tree next entry rest
        | none => .error .absent

/-- Follows steps from the root, above which there is nothing. Nothing but the root is known
outside the working directory. -/
def walkRoot : List String → Except FileError Entry
  | [] => .ok .directory
  | step :: rest =>
    if step = ".." then walkRoot rest
    else if Path.isLongStep step then .error .nameTooLong
    else .error .absent

def entry (tree : FileTree) (path : String) : Except FileError Entry :=
  if Path.isLong path then .error .nameTooLong
  else if Path.isAbsolute path then walkRoot (Path.steps path)
  else walk tree {} .directory (Path.steps path)

def ofFiles (files : List (String × ByteArray)) : FileTree :=
  ⟨files.map fun (path, content) => (Path.steps path, content)⟩

end FileTree

end ApiTypes
