import FreeRtosSim.Lib.CursorList
import FreeRtosSim.Lib.Circuit
import FreeRtosSim.Lib.Fold
import FreeRtosSim.Lib.KeyInsert
import FreeRtosSim.Lib.Streak
import FreeRtosSim.Lib.Backlog
import FreeRtosSim.Lib.Periodic
import FreeRtosSim.Kernel.State
import FreeRtosSim.Kernel.Ready
import FreeRtosSim.Kernel.Tick
import FreeRtosSim.Kernel.Create
import FreeRtosSim.Sim.Report
import FreeRtosSim.Sim.Admission
import FreeRtosSim.Sim.Generator
import FreeRtosSim.Sim.Run
import FreeRtosSim.Job.Machine
import FreeRtosSim.Job.Invariant
import FreeRtosSim.Job.Work
import FreeRtosSim.Job.History
import FreeRtosSim.Job.Charges
import FreeRtosSim.Job.Queue
import FreeRtosSim.Proofs.Shape
import FreeRtosSim.Proofs.Moves
import FreeRtosSim.Proofs.Kill
import FreeRtosSim.Proofs.Wake
import FreeRtosSim.Proofs.Tick
import FreeRtosSim.Proofs.Start
import FreeRtosSim.Proofs.Refine
import FreeRtosSim.Proofs.Lifetime
import FreeRtosSim.Proofs.Order
import FreeRtosSim.Proofs.Dispatch
import FreeRtosSim.Proofs.Necessary
import FreeRtosSim.Proofs.Demand
import FreeRtosSim.Proofs.Verdict
import FreeRtosSim.Proofs.Charged
import FreeRtosSim.Proofs.Edf
import FreeRtosSim.Proofs.Counter
import FreeRtosSim.Proofs.WeaklyHard
import FreeRtosSim.Proofs.Sufficient
import FreeRtosSim.Proofs.Broken
import FreeRtosSim.Proofs.Generated
import FreeRtosSim.Proofs.Lines
import FreeRtosSim.Proofs.Coincide
import FreeRtosSim.Proofs.Isolate
import FreeRtosSim.Kernel.Api
import FreeRtosSim.Kernel.Query
import FreeRtosSim.Sim.System
import FreeRtosSim.Proofs.Linked
import FreeRtosSim.Proofs.Passes
import FreeRtosSim.Proofs.Processed
import FreeRtosSim.Proofs.Moved
import FreeRtosSim.Proofs.Sound
import FreeRtosSim.Proofs.Tracked
import FreeRtosSim.Proofs.Queried
import FreeRtosSim.Proofs.Admitted
import FreeRtosSim.Proofs.Advance
import FreeRtosSim.Sim.Ledger
import FreeRtosSim.Proofs.Credited
import FreeRtosSim.Sim.Observe
import FreeRtosSim.Proofs.Spared
import FreeRtosSim.Sim.Contents
import FreeRtosSim.Proofs.Twin
import FreeRtosSim.Proofs.TwinRun
import FreeRtosSim.Proofs.TwinBoot
import FreeRtosSim.Proofs.Unwritten
import FreeRtosSim.Proofs.Violations
import FreeRtosSim.Proofs.Hyperperiod
import FreeRtosSim.Proofs.Load
import FreeRtosSim.Proofs.Sampled
import FreeRtosSim.Proofs.Drawn
import FreeRtosSim.Job.Tally
import FreeRtosSim.Proofs.Conserved
import FreeRtosSim.Job.Skipping
import FreeRtosSim.Proofs.Skipped
import FreeRtosSim.Proofs.Homed
import FreeRtosSim.Proofs.Parked
import FreeRtosSim.Proofs.Keyed
import FreeRtosSim.Proofs.Heads
import FreeRtosSim.Proofs.Announced
import FreeRtosSim.Lib.RingMemory
import FreeRtosSim.Kernel.Links
import FreeRtosSim.Proofs.Linkage
import FreeRtosSim.Proofs.Filtered
import FreeRtosSim.Proofs.OnePass
import FreeRtosSim.Sim.Priorities
import FreeRtosSim.Proofs.Ranked
import FreeRtosSim.Proofs.Enforced
import FreeRtosSim.Lib.Clock
import FreeRtosSim.Proofs.Delayed
import FreeRtosSim.Proofs.Clocked
import FreeRtosSim.Proofs.Countdown
import FreeRtosSim.Proofs.Passage
import FreeRtosSim.Proofs.Punctual
import FreeRtosSim.Kernel.Timeout
import FreeRtosSim.Proofs.Elapsed
import FreeRtosSim.Sim.Summary
import FreeRtosSim.Proofs.Summed
import FreeRtosSim.Proofs.Optimal
import FreeRtosSim.Lib.Ring
import FreeRtosSim.Kernel.Queue
import FreeRtosSim.Kernel.Blocking
import FreeRtosSim.Lib.Deque
import FreeRtosSim.Proofs.Calls
import FreeRtosSim.Proofs.Fifo
import FreeRtosSim.Proofs.Effects
import FreeRtosSim.Proofs.Orderly
import FreeRtosSim.Proofs.Wakeup
import FreeRtosSim.Kernel.Notify
import FreeRtosSim.Proofs.Notified
import FreeRtosSim.Lib.Framing
import FreeRtosSim.Kernel.StreamBuffer
import FreeRtosSim.Kernel.Streaming
import FreeRtosSim.Proofs.Stored
import FreeRtosSim.Proofs.Streamed
import FreeRtosSim.Proofs.Roused
import FreeRtosSim.Kernel.Mutex
import FreeRtosSim.Sim.Locking
import FreeRtosSim.Proofs.Graded
import FreeRtosSim.Proofs.Lent
import FreeRtosSim.Lib.Lock
import FreeRtosSim.Proofs.Held
import FreeRtosSim.Proofs.Excluded
import FreeRtosSim.Proofs.Floored
import FreeRtosSim.Kernel.EventGroup
import FreeRtosSim.Lib.Mask
import FreeRtosSim.Proofs.Signalled
import FreeRtosSim.Kernel.Timers
import FreeRtosSim.Proofs.Timed
import FreeRtosSim.Proofs.Expiry
