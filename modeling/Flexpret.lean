import Flexpret.Core.ArbiterFairness
import Flexpret.Core.ArchPath
import Flexpret.Core.Config
import Flexpret.Core.Counters
import Flexpret.Core.Csr
import Flexpret.Core.CsrRead
import Flexpret.Core.Datapath
import Flexpret.Core.Decode
import Flexpret.Core.DecodeMinimiser
import Flexpret.Core.DelayUntil
import Flexpret.Core.DspmBytes
import Flexpret.Core.Exceptions
import Flexpret.Core.FenceOrder
import Flexpret.Core.Forwarding
import Flexpret.Core.InstructionStream
import Flexpret.Core.IntegerInstr
import Flexpret.Core.IsaRefinement
import Flexpret.Core.IspmCoherence
import Flexpret.Core.IssuePeriod
import Flexpret.Core.IssueThrough
import Flexpret.Core.LoadStore
import Flexpret.Core.MissedDeadline
import Flexpret.Core.ModeUpdate
import Flexpret.Core.Pipeline
import Flexpret.Core.PipelineThread
import Flexpret.Core.PreciseTrap
import Flexpret.Core.Protection
import Flexpret.Core.Scheduler
import Flexpret.Core.SchedulerRate
import Flexpret.Core.ServiceRate
import Flexpret.Core.Simplify
import Flexpret.Core.SlackFairness
import Flexpret.Core.System
import Flexpret.Core.ThreadProgram
import Flexpret.Core.TimerDelivery
import Flexpret.Core.TimingIsolation
import Flexpret.Core.TrapEntry
import Flexpret.Core.TrapIsolation
import Flexpret.Core.WaitUntil
import Flexpret.Gcc.CycleTable
import Flexpret.Gcc.DeadlineMet
import Flexpret.Gcc.Dfs
import Flexpret.Gcc.History
import Flexpret.Gcc.InsnTable
import Flexpret.Gcc.Pass
import Flexpret.Gcc.Scan
import Flexpret.Gcc.ScanRows
import Flexpret.Gcc.WorstCase
import Flexpret.Lib.Assembly
import Flexpret.Lib.BitCount
import Flexpret.Lib.Buffer
import Flexpret.Lib.ByteMemory
import Flexpret.Lib.CriticalSection
import Flexpret.Lib.Graph
import Flexpret.Lib.Numerals
import Flexpret.Lib.RoundRobin
import Flexpret.Lib.Rv32
import Flexpret.Lib.Rv32Threads
import Flexpret.Lib.SplitCounter
import Flexpret.Lib.Tickets
import Flexpret.Lib.Transition
import Flexpret.Os.AttrObjects
import Flexpret.Os.ControlBlocks
import Flexpret.Os.DefaultStacks
import Flexpret.Os.Enumerate
import Flexpret.Os.Kernel
import Flexpret.Os.KernelInfo
import Flexpret.Os.KernelStart
import Flexpret.Os.ModeWrites
import Flexpret.Os.Mutex
import Flexpret.Os.MutexSafety
import Flexpret.Os.MutexTimeout
import Flexpret.Os.NestedTraps
import Flexpret.Os.NeverEarly
import Flexpret.Os.Schedulability
import Flexpret.Os.ScheduledService
import Flexpret.Os.Scheduler
import Flexpret.Os.SlotAtomicity
import Flexpret.Os.SlotCalls
import Flexpret.Os.SlotWord
import Flexpret.Os.Startup
import Flexpret.Os.Stats
import Flexpret.Os.StoppedThread
import Flexpret.Os.Terminate
import Flexpret.Os.ThreadClean
import Flexpret.Os.ThreadControl
import Flexpret.Os.Threads
import Flexpret.Os.Timer
import Flexpret.Os.TimerArmed
import Flexpret.Os.TimerRuns
import Flexpret.Os.TimerStop
import Flexpret.Os.TrapCode
import Flexpret.Os.TrapPhases
import Flexpret.Os.TrapRuns
import Flexpret.Os.TrapTransparent
