import CompiledScript.Storage.FileTree

/-!
# What a command finds around it

A command reads files and is run in a directory.  Both are given to it, so it
runs on a tree of files in the same way as on those of a machine.
-/

namespace CompiledScript.CommandLine

set_option autoImplicit false

structure Surroundings (m : Type → Type) where
  contains : String → m Bool
  read : String → m (Except FileError Bytes)
  /-- The directory that the command is run in, if it has a place. -/
  directory : Option Place
  /-- The directory of the user's settings, if there is one. -/
  userSettings : Option String

/-- A tree of files around a command that is run in a directory of it. -/
def Surroundings.ofTree (tree : FileTree) (directory : Place) (userSettings : String) :
    Surroundings Id where
  contains path := tree.contains directory path
  read path := tree.read directory path
  directory := some directory
  userSettings := some userSettings

end CompiledScript.CommandLine
