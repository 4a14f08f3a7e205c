import ScriptHost.Main
import ScriptHost.Proofs.Project.Dispatching
import ScriptHost.Proofs.Project.LastGood
import ScriptHost.Proofs.Project.Stopping
import ScriptHost.Proofs.Project.Timers
import ScriptHost.Proofs.Schedule.Planning
import ScriptHost.Proofs.Project.Grown
import ScriptHost.Proofs.Project.Reloading
import ScriptHost.Proofs.Project.Converging
import ScriptHost.Proofs.Project.Failing
import ScriptHost.Proofs.Project.Snapshots
import ScriptHost.Proofs.Project.Defining
import ScriptHost.Proofs.Project.Diffing
import ScriptHost.Proofs.Project.Checking
import ScriptHost.Proofs.Dispatch.Reconciling
import ScriptHost.Proofs.Assembly.Injecting
import ScriptHost.Proofs.Script.Writing
import ScriptHost.Proofs.Script.Extending
import ScriptHost.Proofs.Script.Appending
import ScriptHost.Proofs.Script.Rethrowing
import ScriptHost.Proofs.Script.Integers
import ScriptHost.Proofs.Script.Balancing
import ScriptHost.Proofs.Script.Wording
import ScriptHost.Proofs.Script.Progress
import ScriptHost.Proofs.Project.Watched
import ScriptHost.Proofs.Assembly.Clean
import ScriptHost.Proofs.Schedule.Periods
import ScriptHost.Proofs.Schedule.Resolving
import ScriptHost.Proofs.Schedule.Naming
