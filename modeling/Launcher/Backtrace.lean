import Launcher.Failure
import Launcher.Path
import Launcher.Text.Blank

/-!
# Backtraces

How a failure is shown: a heading, the frames it passed through, outermost first, and a line with
its name and text. Two kinds of frame are of no interest to the author of the hosted program: the
machinery that loads and compiles code, at the inner end, and everything up to the last frame of
the launcher's generic call. Pruning takes both away and leaves the block between them untouched.
-/

namespace Launcher

/-- Which frames are taken away. -/
structure Pruning where
  /-- The origins of the machinery that loads and compiles hosted code. -/
  machinery : List String :=
    ["runpy", "py_compile", "importlib", "importlib._bootstrap", "importlib._bootstrap_external"]
  /-- The dotted name of the module with the generic call. -/
  wrapperModule : String := "runtime_cli.core.dispatcher"
  /-- The name of the generic call. -/
  wrapperFunction : String := "_invoke"

namespace Frame

/-- The opening of the file name of a frozen module. -/
def frozenOpening : List Char := "<frozen ".toList

/-- Where a frame comes from, judged by its file: the module in the name of a frozen file, the
directory of a package's own file, the name without its extension for all others. -/
def origin (frame : Frame) : String :=
  let file := frame.file.toList
  if frozenOpening.isPrefixOf file && file.getLast? = some '>' then
    String.ofList ((file.drop frozenOpening.length).dropLast)
  else
    let (directory, name) := Path.split frame.file
    let stem := (Path.splitExtension name).1
    if stem = "__init__" then Path.baseName directory else stem

/-- The two lines' worth of a frame in a trace. -/
def text (frame : Frame) : String :=
  "  File \"" ++ frame.file ++ "\", line " ++ toString frame.line ++ ", in " ++ frame.name ++ "\n"

end Frame

namespace Backtrace

/-- Take away the machinery at the end, then everything up to the last wrapper. -/
def prune {α : Type} (machinery wrapper : α → Bool) (frames : List α) : List α :=
  ((Text.dropEndWhile machinery frames).reverse.takeWhile fun frame ↦ !wrapper frame).reverse

/-- How many equal frames in a row are shown. -/
def repeatLimit : Nat := 3

/-- A run of equal frames: the first few, and a line that counts the others. -/
def runText (frames : List Frame) : String :=
  let more := frames.length - repeatLimit
  String.join ((frames.take repeatLimit).map Frame.text) ++
    if more = 0 then ""
    else "  [Previous line repeated " ++ toString more ++ " more time" ++
      (if more = 1 then "" else "s") ++ "]\n"

/-- The frames of a trace. -/
def framesText (frames : List Frame) : String :=
  String.join ((frames.splitBy (· == ·)).map runText)

/-- The last line of a trace: the full name of the failure, and its text if it has one. -/
def causeText (cause : Cause) : String :=
  if cause.message.isEmpty then cause.fullName ++ "\n"
  else cause.fullName ++ ": " ++ cause.message ++ "\n"

/-- The heading of a trace. -/
def heading : String := "Traceback (most recent call last):\n"

end Backtrace

namespace Pruning

/-- Whether a frame belongs to the machinery. -/
def isMachinery (pruning : Pruning) (frame : Frame) : Bool :=
  pruning.machinery.contains frame.origin

/-- How the normal path of the wrapper's file ends. -/
def wrapperPath (pruning : Pruning) : List Char :=
  let parts := Path.splitAt '.' pruning.wrapperModule.toList
  '/' :: parts.foldl Path.joinChars [] ++ ".py".toList

/-- Whether a frame is one of the generic call. -/
def isWrapper (pruning : Pruning) (frame : Frame) : Bool :=
  frame.name = pruning.wrapperFunction &&
    pruning.wrapperPath.isSuffixOf (Path.normalChars frame.file.toList)

/-- The frames that are shown. -/
def keep (pruning : Pruning) (frames : List Frame) : List Frame :=
  Backtrace.prune pruning.isMachinery pruning.isWrapper frames

/-- The trace of a failure, without line feeds at its end. -/
def trace (pruning : Pruning) (failure : Failure) : String :=
  Text.trimLineEnds
    (Backtrace.heading ++ Backtrace.framesText (pruning.keep failure.frames) ++
      Backtrace.causeText failure.cause)

end Pruning

end Launcher
