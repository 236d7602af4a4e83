import ChangeFeed.File

/-!
# Files in memory — folders, and what paths lead to

A `FileTree` holds files by their places; a folder is there if it is on the
way to a file or to the working folder. A path is walked name by name, from
the root or from the working folder: one dot stays, two dots go up, and any
other name goes down; every name but the last has to be a folder's. Nothing
between two slashes, or behind the last one, is a name that stays, so a path
that ends in a slash can only be a folder's.
-/

namespace ChangeFeed

/-- Where a file or folder is: the names that lead to it from the root. -/
abbrev Place := List Text

/-- Where a name leads to from a folder. -/
def Place.next (folder : Place) (name : Text) : Place :=
  if name = [] ∨ name = ['.'] then folder
  else if name = ['.', '.'] then folder.dropLast
  else folder ++ [name]

/-- What is at a place. -/
inductive Entry where
  | folder (place : Place)
  | file (place : Place) (content : Bytes)
  | nothing (place : Place)
deriving Repr, DecidableEq

/-- **Files in memory.** -/
structure FileTree where
  files : List (Place × Bytes) := []
  /-- The folder in which a path begins that does not begin with a slash. -/
  working : Place := ["work".toList]
deriving Repr

namespace FileTree

/-- A folder is there if it is on the way to a file or to the working folder. -/
def hasFolder (place : Place) (tree : FileTree) : Bool :=
  place.isPrefixOf tree.working ||
    tree.files.any fun (other, _) => place.isPrefixOf other && place ≠ other

/-- Puts a file at a place. -/
def put (place : Place) (content : Bytes) (tree : FileTree) : FileTree :=
  { tree with files := (place, content) :: tree.files.filter fun (other, _) => other ≠ place }

/-- A file is found where it has been put. -/
theorem lookup_put (place : Place) (content : Bytes) (tree : FileTree) :
    (tree.put place content).files.lookup place = some content := by
  simp [put]

/-- What a name stands for in a folder. -/
def entry (folder : Place) (name : Text) (tree : FileTree) : Except FileFault Entry :=
  let place := folder.next name
  if longestName < name.size then .error .nameTooLong
  else match tree.files.lookup place with
    | some content => .ok (.file place content)
    | none => .ok (if tree.hasFolder place then .folder place else .nothing place)

/-- The folder that names lead to from a folder. -/
def enter (tree : FileTree) : List Text → Place → Except FileFault Place
  | [], folder => .ok folder
  | name :: rest, folder =>
    match tree.entry folder name with
    | .error fault => .error fault
    | .ok (.folder place) => tree.enter rest place
    | .ok (.file _ _) => .error .notFolder
    | .ok (.nothing _) => .error .missing

/-- The folder in which a path begins. -/
def origin (path : Text) (tree : FileTree) : Place :=
  if path.head? = some '/' then [] else tree.working

/-- What a path leads to. -/
def locate (path : Text) (tree : FileTree) : Except FileFault Entry := do
  let names := Text.splitAll '/' path
  let folder ← tree.enter names.dropLast (tree.origin path)
  tree.entry folder (names.getLast?.getD [])

/-- **The content of a file.** -/
def read (path : Text) (tree : FileTree) : Except FileFault Bytes :=
  match pathFault? path with
  | some fault => .error fault
  | none =>
    match tree.locate path with
    | .error fault => .error fault
    | .ok (.file _ content) => .ok content
    | .ok (.folder _) => .error .isFolder
    | .ok (.nothing _) => .error .missing

/-- What is wrong with creating a file by a path that ends in a slash. Such a path can only be a
folder's, whether the folder is there or not, if the way to it is free. -/
def slashFault (path : Text) (tree : FileTree) : FileFault :=
  let names := ((Text.splitAll '/' path).reverse.dropWhile List.isEmpty).reverse
  match tree.enter names.dropLast (tree.origin path) with
  | .error fault => fault
  | .ok _ => .isFolder

/-- **Creates a file**, or empties it. Its folder has to be there. -/
def create (path : Text) (tree : FileTree) : Except FileFault FileTree :=
  match pathFault? path with
  | some fault => .error fault
  | none =>
    if path.getLast? = some '/' then .error (tree.slashFault path)
    else match tree.locate path with
      | .error fault => .error fault
      | .ok (.folder _) => .error .isFolder
      | .ok (.file place _) | .ok (.nothing place) => .ok (tree.put place [])

/-- The files after adding to one of them; a path that leads to none changes nothing. -/
def append (path : Text) (bytes : Bytes) (tree : FileTree) : FileTree :=
  match tree.locate path with
  | .ok (.file place content) => tree.put place (content ++ bytes)
  | _ => tree

/-- The files with one more, its folders included, at a path whatever is there. -/
def withFile (path : Text) (content : Bytes) (tree : FileTree) : FileTree :=
  tree.put ((Text.splitAll '/' path).foldl Place.next (tree.origin path)) content

end FileTree

end ChangeFeed
