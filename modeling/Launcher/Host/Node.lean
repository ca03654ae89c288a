/-!
# The node

The part that a process plays in a cluster. A node is alive if it has been given a name; its cookie
can be set at any time.
-/

namespace Launcher.Host

/-- A node. -/
structure Node where
  name : Option String := none
  cookie : Option String := none
  deriving DecidableEq, Repr

namespace Node

/-- Whether the node is part of a cluster. -/
def isAlive (node : Node) : Bool := node.name.isSome

/-- The node with another cookie. -/
def setCookie (node : Node) (cookie : String) : Node := { node with cookie := some cookie }

end Node

/-- The name and version of the language runtime, from its version number. -/
def runtimeVersion (number : String) : String := "Python " ++ number

/-- The version of the launcher itself. -/
def launcherVersion : String := "0.4.0"

end Launcher.Host
