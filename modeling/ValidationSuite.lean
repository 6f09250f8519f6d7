import ValidationSuite.Library.ByteString
import ValidationSuite.Library.Decimal
import ValidationSuite.Library.CommandLine
import ValidationSuite.Library.Base64
import ValidationSuite.Library.Utf8
import ValidationSuite.Library.Path
import ValidationSuite.Library.SortedMap
import ValidationSuite.Library.Json
import ValidationSuite.Library.JsonText
import ValidationSuite.Library.Xml
import ValidationSuite.Library.Check
import ValidationSuite.Library.Transition
import ValidationSuite.Library.Pool
import ValidationSuite.Library.Sequential
import ValidationSuite.Library.SparseFile
import ValidationSuite.Library.Exceptional
import ValidationSuite.Library.Descriptors
import ValidationSuite.Library.Simt
import ValidationSuite.Library.SimtApart
import ValidationSuite.Library.Ptx
import ValidationSuite.Library.Atomics
import ValidationSuite.Library.Grouping
import ValidationSuite.Library.MapM
import ValidationSuite.Library.Xorshift
import ValidationSuite.Library.Lines
import ValidationSuite.Library.Words
import ValidationSuite.Library.Entries
import ValidationSuite.Library.SortBy
import ValidationSuite.Library.Ownership
import ValidationSuite.Dtest.Jobs
import ValidationSuite.Dtest.Labels
import ValidationSuite.Dtest.Jobs.Parse
import ValidationSuite.Dtest.Jobs.Language
import ValidationSuite.Dtest.Jobs.Properties
import ValidationSuite.Dtest.Report
import ValidationSuite.Dtest.Report.Junit
import ValidationSuite.Dtest.Report.Encoding
import ValidationSuite.Dtest.Report.Tail
import ValidationSuite.Dtest.Report.Text
import ValidationSuite.Dtest.Policy
import ValidationSuite.Dtest.AllowList
import ValidationSuite.Dtest.Rpc
import ValidationSuite.Dtest.GrpcExecutor
import ValidationSuite.Dtest.Scheduler.Basic
import ValidationSuite.Dtest.Scheduler.Properties
import ValidationSuite.Dtest.Scheduler.Worker
import ValidationSuite.Dtest.Scheduler.Bookkeeping
import ValidationSuite.Dtest.Scheduler.History
import ValidationSuite.Dtest.Scheduler.Retirement
import ValidationSuite.Dtest.Scheduler.Freshness
import ValidationSuite.Dtest.Scheduler.Capable
import ValidationSuite.Dtest.Scheduler.Wakeup
import ValidationSuite.Dtest.Scheduler.Progress
import ValidationSuite.Dtest.Scheduler.Verdict
import ValidationSuite.Dtest.Scheduler.Attempts
import ValidationSuite.Dtest.Scheduler.Reference
import ValidationSuite.Dtest.Scheduler.Reasons
import ValidationSuite.Dtest.Scheduler.Addresses
import ValidationSuite.Dtest.Process.Basic
import ValidationSuite.Dtest.Process.Ownership
import ValidationSuite.Dtest.Process.Conserve
import ValidationSuite.Dtest.Process.Cloexec
import ValidationSuite.Dtest.Process.Output
import ValidationSuite.Dtest.Process.Termination
import ValidationSuite.Dtest.Agent.Basic
import ValidationSuite.Dtest.Agent.Capacity
import ValidationSuite.Dtest.Agent.Requests
import ValidationSuite.Dtest.Agent.Refusals
import ValidationSuite.Dtest.Agent.Authentication
import ValidationSuite.Dtest.Ctl
import ValidationSuite.Dtest.Cluster
import ValidationSuite.Dtest.Executions
import ValidationSuite.Dtest.Commands
import ValidationSuite.Dtest.Completion
import ValidationSuite.Dtest.Agent.Main
import ValidationSuite.Dtest.Controller
import ValidationSuite.Kmod.Valdev
import ValidationSuite.Kmod.Refinement
import ValidationSuite.Kmod.Errors
import ValidationSuite.Kmod.Commute
import ValidationSuite.Kmod.Snapshot
import ValidationSuite.Kmod.OpenFiles
import ValidationSuite.Kmod.Readers
import ValidationSuite.Cudatest.Gemm
import ValidationSuite.Cudatest.GemmProperties
import ValidationSuite.Cudatest.GemmAgreement
import ValidationSuite.Cudatest.Strided
import ValidationSuite.Cudatest.Transpose
import ValidationSuite.Cudatest.TransposeProperties
import ValidationSuite.Cudatest.Offsets
import ValidationSuite.Cudatest.Reduce
import ValidationSuite.Cudatest.ReduceProperties
import ValidationSuite.Cudatest.Histogram
import ValidationSuite.Cudatest.HistogramProperties
import ValidationSuite.Cudatest.Rng
import ValidationSuite.Cudatest.VectorAdd
import ValidationSuite.Cudatest.AddOne
import ValidationSuite.Cudatest.DeviceBuffer
import ValidationSuite.Cudatest.Allclose
import ValidationSuite.Vmtest.Harness
import ValidationSuite.Vmtest.Properties
import ValidationSuite.Vmtest.Domains
import ValidationSuite.Vmtest.Overlays
import ValidationSuite.Vmtest.Util
import ValidationSuite.Vmtest.Junit
import ValidationSuite.Vmtest.DomainXml
import ValidationSuite.Vmtest.Main
import ValidationSuite.Vmtest.GuestAgent
import ValidationSuite.Vmtest.Handles
import ValidationSuite.Platcheck.Report
import ValidationSuite.Platcheck.Text
import ValidationSuite.Platcheck.Iommu
import ValidationSuite.Platcheck.Topology
import ValidationSuite.Platcheck.Isolation
import ValidationSuite.Platcheck.Checks
import ValidationSuite.Platcheck.Proc
import ValidationSuite.Platcheck.Readiness
