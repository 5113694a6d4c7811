import TtKmd.Lib.Runs
import TtKmd.Lib.Ring
import TtKmd.Iatu.Glitch
import TtKmd.Iatu.Ownership
import TtKmd.Arc.Correlation
import TtKmd.Memory.Bookkeeping
import TtKmd.Memory.Close
import TtKmd.Memory.References
import TtKmd.Memory.Mapping
import TtKmd.Tlb.Tenure
import TtKmd.Tlb.Configuration
import TtKmd.Device.Waiters
import TtKmd.Device.Isolation
import TtKmd.Device.ProcessExit
import TtKmd.Device.LockTable
import TtKmd.Reset.Marker
import TtKmd.Device.Window
import TtKmd.Device.Rollback
import TtKmd.Device.Mirror
import TtKmd.Device.ControlFailures
import TtKmd.Memory.Quota
import TtKmd.Device.Buffers
import TtKmd.Shim.Passthrough
import TtKmd.Device.Rebalance
import TtKmd.Device.Pointers
import TtKmd.Device.LockOrder
import TtKmd.Reset.PlatformReset
import TtKmd.Iatu.FirstFit
import TtKmd.Memory.Pinnings
import TtKmd.Device.Backing
import TtKmd.Power.Message
import TtKmd.Tlb.Encoding
import TtKmd.Device.NocCleanup
import TtKmd.Reset.Fixpoint
import TtKmd.Reset.Provenance
import TtKmd.Arc.Telemetry
import TtKmd.Reset.Capabilities
import TtKmd.Shim.Views
import TtKmd.Device.ListMemory
import TtKmd.Device.KernelWindow
import TtKmd.Arc.Exchange
import TtKmd.Device.LockService
import TtKmd.Device.Hardware
import TtKmd.Reset.PayloadSize
import TtKmd.Device.Dispatch
import TtKmd.Shim.Enumeration
