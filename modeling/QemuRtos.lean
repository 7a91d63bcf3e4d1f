import QemuRtos.Lib.Transition
import QemuRtos.Core.Trap
import QemuRtos.Core.TrapSpec
import QemuRtos.System
import QemuRtos.Core.ThreadSpec
import QemuRtos.Memory.Kept
import QemuRtos.Memory.PageRefine
import QemuRtos.Core.SyncSpec
import QemuRtos.User.TaskSpec
import QemuRtos.Safety.Waits
import QemuRtos.SystemOk
import QemuRtos.SystemExec
import QemuRtos.Safety.Scheduler
import QemuRtos.Safety.Breakpoint
import QemuRtos.Safety.RoundRobin
import QemuRtos.Safety.Mutex
import QemuRtos.User.TaskTables
import QemuRtos.Core.Trace
import QemuRtos.Memory.UsercopySpec
import QemuRtos.Safety.Sleepers
import QemuRtos.Drivers.MemsetSpec
import QemuRtos.Arch.Trap
import QemuRtos.Memory.PagingSpec
import QemuRtos.Clients
import QemuRtos.Safety.Spaces
import QemuRtos.Safety.Tasks
import QemuRtos.Safety.HardwareWalk
import QemuRtos.Memory.TaskCopy
import QemuRtos.Safety.TaskCopy
import QemuRtos.Safety.TimerChain
import QemuRtos.Safety.TrapRoundTrip
import QemuRtos.Safety.KernelMap
import QemuRtos.Safety.ProbedCopy
import QemuRtos.Safety.TaskThreads
import QemuRtos.Safety.TidQueue
import QemuRtos.Safety.TrapReturn
import QemuRtos.Safety.AccelOutcome
import QemuRtos.Safety.AccelProtocol
import QemuRtos.Safety.Heap
import QemuRtos.Safety.Progress
import QemuRtos.Safety.Device
import QemuRtos.Safety.AccelRelease
import QemuRtos.Safety.AccelPages
import QemuRtos.Safety.AccelExact
