import CompiledScript.Bytes

/-!
# Trees of files

A tree of files is known by its files, each under the names that lead to it from
the root, and by directories that may be empty.  Paths are resolved against a
working directory one name after the other, so a path that leads through
something that is not a directory is refused even if it comes back out of it.
-/

namespace CompiledScript

set_option autoImplicit false

/-- Why a file cannot be read or made. -/
inductive FileError where
  /-- Nothing is there, or the directory for it is not. -/
  | missing
  /-- A directory is in its place. -/
  | isDirectory
  /-- The path leads through a file. -/
  | notDirectory
  /-- The path, or a name in it, is longer than any can be. -/
  | nameTooLong
  /-- The path holds a character that none can hold. -/
  | nulInName
  /-- Something else that the machine reports. -/
  | other (report : String)
deriving DecidableEq, Inhabited, Repr

def FileError.message : FileError → String
  | missing => "No such file or directory (os error 2)"
  | isDirectory => "Is a directory (os error 21)"
  | notDirectory => "Not a directory (os error 20)"
  | nameTooLong => "File name too long (os error 36)"
  | nulInName => "file name contained an unexpected NUL byte"
  | other report => report

/-- The names that lead from the root to a place. -/
abbrev Place := List String

/-- A tree of files. -/
structure FileTree where
  files : List (Place × Bytes)
  /-- Directories that exist whether files are in them or not. -/
  directories : List Place
deriving Inhabited

namespace FileTree

def empty : FileTree := ⟨[], []⟩

/-- What stands at a place. -/
inductive Node where
  | file (content : Bytes)
  | directory
deriving Inhabited

/-- What stands at a place, if anything does. -/
def node? (tree : FileTree) (place : Place) : Option Node :=
  match tree.files.lookup place with
  | some content => some (.file content)
  | none =>
    if place.isEmpty || tree.files.any (fun file => place.isPrefixOf file.1) ||
        tree.directories.any (fun directory => place.isPrefixOf directory) then
      some .directory
    else none

def names (path : String) : List String := path.splitOn "/"

def maxNameLength : Nat := 255

def maxPathLength : Nat := 4095

/-- The place that further names lead to, of which the last need not exist. -/
def follow (tree : FileTree) : (place : Place) → (names : List String) → Except FileError Place
  | place, [] => .ok place
  | place, name :: names =>
    match tree.node? place with
    | none => .error .missing
    | some (.file _) => .error .notDirectory
    | some .directory =>
      if name = "" ∨ name = "." then follow tree place names
      else if name = ".." then follow tree place.dropLast names
      else if maxNameLength < name.utf8ByteSize then .error .nameTooLong
      else follow tree (place ++ [name]) names

/-- The place that names lead to from a working directory, or from the root if the first
one is empty. -/
def walk (tree : FileTree) (directory : Place) : List String → Except FileError Place
  | "" :: names => tree.follow [] names
  | names => tree.follow directory names

/-- Refuses what cannot be a path. -/
def checkPath (path : String) : Except FileError Unit :=
  if path.contains '\x00' then .error .nulInName
  else if path.isEmpty then .error .missing
  else if maxPathLength < path.utf8ByteSize then .error .nameTooLong
  else .ok ()

/-- The place that a path leads to from a working directory. -/
def resolve (tree : FileTree) (directory : Place) (path : String) : Except FileError Place := do
  checkPath path
  tree.walk directory (names path)

/-- Whether a path leads to something. -/
def contains (tree : FileTree) (directory : Place) (path : String) : Bool :=
  match tree.resolve directory path with
  | .ok place => (tree.node? place).isSome
  | .error _ => false

/-- The content of the file that a path leads to. -/
def read (tree : FileTree) (directory : Place) (path : String) : Except FileError Bytes := do
  match tree.node? (← tree.resolve directory path) with
  | none => .error .missing
  | some .directory => .error .isDirectory
  | some (.file content) => .ok content

/-- The place of a file that is to be made where a path leads to.  A separator at the end
of a path asks for a directory, which no file can be made in place of. -/
def placeFor (tree : FileTree) (directory : Place) (path : String) : Except FileError Place := do
  if path.endsWith "/" then
    checkPath path
    let above := ((names path).reverse.dropWhile String.isEmpty).drop 1
    match tree.node? (← tree.walk directory above.reverse) with
    | some .directory => .error .isDirectory
    | some (.file _) => .error .notDirectory
    | none => .error .missing
  else
    let place ← tree.resolve directory path
    match tree.node? place with
    | some .directory => .error .isDirectory
    | some (.file _) | none => .ok place

end FileTree

end CompiledScript
