import CyclicDeadline.CpuList.Basic
import CyclicDeadline.CpuList.Text
import CyclicDeadline.CpuList.Insert
import CyclicDeadline.CpuList.Parse
import CyclicDeadline.CpuList.Accept
import CyclicDeadline.CpuList.Complement
import CyclicDeadline.CpuList.Affinity
import CyclicDeadline.CpuList.Overflow
import CyclicDeadline.Deadline.Runtime
import CyclicDeadline.Deadline.Clock
import CyclicDeadline.Deadline.Schedule
import CyclicDeadline.Deadline.HrTick
import CyclicDeadline.Cpuset.Tasks
import CyclicDeadline.Libc.Scanf
import CyclicDeadline.Trace.Vsprintf
import CyclicDeadline.Trace.Printf
import CyclicDeadline.Trace.Mounts
import CyclicDeadline.Trace.Marker
import CyclicDeadline.Trace.Cycle
import CyclicDeadline.Cpuset.Make
import CyclicDeadline.Cpuset.Destroy
import CyclicDeadline.Startup.Barrier
import CyclicDeadline.Startup.Machine
import CyclicDeadline.Startup.Invariant
import CyclicDeadline.Startup.Ordering
import CyclicDeadline.Startup.Progress
import CyclicDeadline.Startup.Pids
import CyclicDeadline.Startup.Options
