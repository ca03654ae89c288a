import Launcher.Argv.Parser
import Launcher.Console
import Launcher.Exit.Operation
import Launcher.Main
import Launcher.Rehearsal
import Launcher.Run
import Launcher.SearchPath.Operation
import Launcher.Proofs.Argv.Item
import Launcher.Proofs.Argv.Batch
import Launcher.Proofs.Story
import Launcher.Proofs.Exit.Drain
import Launcher.Proofs.Exit.Boundary
import Launcher.Proofs.Alike
import Launcher.Proofs.Run.Catchable
import Launcher.Proofs.Run.Plain
import Launcher.Proofs.Run.Ending
import Launcher.Proofs.Exit.Ledger
import Launcher.Proofs.Run.Binding
import Launcher.Proofs.Run.Printing
import Launcher.Proofs.SearchPath.Additions
import Launcher.Proofs.SearchPath.Closing
import Launcher.Proofs.SearchPath.Foreign
import Launcher.Proofs.Dispatch.Executed
import Launcher.Proofs.ErrorLines
import Launcher.Proofs.Run.Errors
import Launcher.Proofs.Host.Dependencies
import Launcher.Proofs.Host.Starting
import Launcher.Proofs.Argv.Shape
import Launcher.Proofs.Deeds
import Launcher.Proofs.Host.Watched
import Launcher.Proofs.Host.Order
import Launcher.Proofs.Dispatch.Raising
import Launcher.Proofs.Host.WatchedHost
import Launcher.Proofs.Run.Halting
import Launcher.Proofs.Run.Requests
import Launcher.Proofs.Dispatch.Calls
import Launcher.Proofs.Dispatch.InTurn
import Launcher.Proofs.Host.OneRun
import Launcher.Proofs.Host.Traffic
import Launcher.Proofs.Host.Solo
import Launcher.Proofs.Host.Pool
import Launcher.Proofs.Host.OneRunHost
import Launcher.Proofs.Run.Passage
import Launcher.Proofs.Run.OneRun
import Launcher.Proofs.Host.Fixed
import Launcher.Proofs.Host.FixedPool
import Launcher.Proofs.Dispatch.Parallel
import Launcher.Proofs.FileTree.Following
import Launcher.Proofs.FileTree.Spelling
import Launcher.Proofs.FileTree.Below
import Launcher.Proofs.FileTree.Sources
import Launcher.Proofs.Dispatch.Directory
import Launcher.Proofs.FileTree.Naming
import Launcher.Proofs.Pruning
import Launcher.Proofs.Argv.Stopping
import Launcher.Proofs.Dispatch.Compiling
import Launcher.Proofs.Argv.Continuing
import Launcher.Proofs.SearchPath.Reading
import Launcher.Proofs.Argv.CompilerMode
import Launcher.Proofs.Dispatch.OptionOrder
import Launcher.Proofs.Host.Crew
import Launcher.Proofs.Host.Compiled
import Launcher.Proofs.Host.Schedules
import Launcher.Proofs.Host.Conflicts
import Launcher.Proofs.FileTree.LastName
import Launcher.Proofs.Dispatch.Spellings
import Launcher.Proofs.Argv.SharedOptions
import Launcher.Proofs.Run.Arguments
import Launcher.Proofs.Run.LogLevels
