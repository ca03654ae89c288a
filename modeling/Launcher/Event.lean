import Launcher.Failure
import Launcher.Note

/-!
# Events

What a session leaves behind, in order. Hosted programs and collaborators account for some events,
the launcher itself for the others; the first kind is a type of its own, so that no hosted program
can pass for the launcher.
-/

namespace Launcher

/-- An exit hook, known by its name. -/
abbrev Hook := String

/-- A queue of exit hooks, known by a number. -/
abbrev QueueId := Nat

/-- What dispatch asks of a collaborator. -/
inductive Request
  | eval (expression : String)
  | require (path : String)
  | start (application : String)
  | load (files : List String)
  | cookie (value : String)
  | ensureDirectory (path : String)
  /-- Compile `files`; `announcing` tells whether every compiled file is announced. -/
  | compile (files : List String) (output : String) (options : List (String × Bool))
      (announcing : Bool)
  deriving DecidableEq, Repr

/-- An event that a collaborator or a hosted program accounts for. -/
inductive HostedEvent
  /-- Dispatch turned to a collaborator. -/
  | asked (request : Request)
  /-- A line appeared on standard output. -/
  | printed (line : String)
  /-- A compiled file was announced. -/
  | announced (file : String)
  /-- A diagnostic note was made. -/
  | noted (note : Note)
  /-- The file at an absolute path was run. -/
  | ran (path : String)
  /-- The start function of an application was called. -/
  | started (application : String)
  /-- A file was compiled to a target at an optimization level. -/
  | compiled (file target : String) (level : Int)
  deriving DecidableEq, Repr

/-- An event of a session. -/
inductive Event
  | hosted (event : HostedEvent)
  /-- A diagnostic note was made. -/
  | noted (note : Note)
  /-- The version of the language runtime was shown. -/
  | versionShown (version : String)
  /-- The trailing arguments were handed to the hosted program. -/
  | published (arguments : List String)
  /-- A hook was put into a queue; `named` tells whether the queue was named, or just the bound
  one. -/
  | queued (queue : QueueId) (hook : Hook) (named : Bool)
  /-- The waiting hooks were taken out of a queue, to be called or dropped. -/
  | taken (queue : QueueId) (hooks : List Hook)
  /-- A hook was called with a status. -/
  | hookCalled (hook : Hook) (status : Int)
  /-- The user was told that the run was aborted. -/
  | aborted
  /-- A failure was reported. -/
  | reported (failure : Failure)
  /-- An error line was shown. -/
  | errorShown (line : String)
  /-- The process was halted. -/
  | halted (status : Int)
  /-- A callback for the end of the process was registered. -/
  | shutdownPlanned
  deriving DecidableEq, Repr

/-- The note of an event that is one. -/
def Event.note? : Event → Option Note
  | .noted note => some note
  | .hosted (.noted note) => some note
  | _ => none

end Launcher
