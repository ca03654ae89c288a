import Launcher.Note
import Launcher.Path
import Launcher.SearchPath

/-!
# The state of reading a command line

Reading a command line asks the file system two questions, builds up a plan, and adds directories
to the search path. It ends by handing back the tokens it has not read, or by a request for the
version.
-/

namespace Launcher.Argv

/-- What reading a command line can see of its surroundings. -/
structure Surroundings where
  /-- The paths that a pattern matches, in order. -/
  wildcard : String → List String
  /-- Whether a path names a directory. -/
  isDirectory : String → Bool
  /-- What relative and home-relative paths refer to. -/
  place : Place
  /-- The ending of the names of source files. -/
  suffix : String := ".py"

/-- What has been read so far. -/
structure Progress where
  plan : Plan := {}
  path : SearchPath := {}
  notes : List Note := []

/-- How the reading ends: with the tokens that are left, or at a request for the version. -/
inductive Ending
  | finished (rest : List String)
  | versionRequested
  deriving DecidableEq, Repr

namespace Progress

/-- Change the plan. -/
def mapPlan (f : Plan → Plan) (p : Progress) : Progress := { p with plan := f p.plan }

/-- Add a command to the plan. -/
def addCommand (p : Progress) (command : Command) : Progress :=
  p.mapPlan (·.addCommand command)

/-- Add a note. -/
def note (p : Progress) (n : Note) : Progress := { p with notes := p.notes ++ [n] }

/-- Record a token that nobody knows. -/
def unknown (p : Progress) (token : String) : Progress :=
  (p.note (.unknownOption token)).mapPlan (·.addError (token ++ " : Unknown option"))

/-- Add one directory to the search path. -/
def addPath (e : SearchPath.End) (p : Progress) (path : String) : Progress :=
  let n := match e with
    | .front => Note.prependedPath path
    | .back => Note.appendedPath path
  { p.note n with path := p.path.add e path }

end Progress

/-- The directories that the value of a search path option stands for: it is expanded to an
absolute path, and that to the paths it matches, or to itself if there are none. -/
def Surroundings.directories (s : Surroundings) (value : String) : List String :=
  let expanded := Path.absolute s.place.directory (Path.expandHome s.place value)
  match s.wildcard expanded with
  | [] => [expanded]
  | found => found

end Launcher.Argv
