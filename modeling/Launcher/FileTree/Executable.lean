import Launcher.FileTree

/-!
# Looking up executables

A name with a directory part is taken as it is. Any other name is looked up in the directories of a
search path, whose parts are separated by colons; an empty part is the working directory, and an
empty search path has no parts. An executable is a regular file that may be executed.
-/

namespace Launcher.FileTree

/-- The directories of a search path. -/
def searchDirectories (searchPath : String) : List String :=
  if searchPath.isEmpty then [] else (Path.splitAt ':' searchPath.toList).map String.ofList

/-- The path of an executable. -/
def findExecutable (t : FileTree) (searchPath name : String) : Option String :=
  if (Path.split name).1.isEmpty then
    ((searchDirectories searchPath).map (Path.join · name)).find? t.isExecutable
  else if t.isExecutable name then some name else none

end Launcher.FileTree
