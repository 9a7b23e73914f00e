import Stormnetboot.Agent.EngineLines
import Stormnetboot.Agent.EngineLog
import Stormnetboot.Agent.Flowover
import Stormnetboot.Agent.Inventory
import Stormnetboot.Agent.LogDelivery
import Stormnetboot.Agent.LineCuts
import Stormnetboot.Agent.LogPrefixes
import Stormnetboot.Agent.PrimaryMac
import Stormnetboot.Agent.Reporter
import Stormnetboot.Agent.TerminalReports
import Stormnetboot.Agent.TextLog
import Stormnetboot.Boot.AttachRoot
import Stormnetboot.Boot.AttachUri
import Stormnetboot.Boot.BootMedia
import Stormnetboot.Boot.Delivery
import Stormnetboot.Boot.Fleet
import Stormnetboot.Boot.Identity
import Stormnetboot.Boot.KernelLine
import Stormnetboot.Boot.MediaLife
import Stormnetboot.Boot.NoPortal
import Stormnetboot.Boot.ReportWire
import Stormnetboot.Boot.Reporting
import Stormnetboot.Boot.ReportsAccepted
import Stormnetboot.Boot.RoundTrip
import Stormnetboot.Boot.UkiSections
import Stormnetboot.Common.Changes
import Stormnetboot.Common.CrashTriple
import Stormnetboot.Common.CutOff
import Stormnetboot.Common.Exposition
import Stormnetboot.Common.Fstab
import Stormnetboot.Common.HashMap
import Stormnetboot.Common.Hex
import Stormnetboot.Common.Http
import Stormnetboot.Common.Instrument
import Stormnetboot.Common.Json
import Stormnetboot.Common.JsonGrammar
import Stormnetboot.Common.JsonReader
import Stormnetboot.Common.JsonUnique
import Stormnetboot.Common.JsonWriter
import Stormnetboot.Common.Lines
import Stormnetboot.Common.Listings
import Stormnetboot.Common.Occurrences
import Stormnetboot.Common.Placement
import Stormnetboot.Common.Process
import Stormnetboot.Common.Program
import Stormnetboot.Common.Quota
import Stormnetboot.Common.Runs
import Stormnetboot.Common.Since
import Stormnetboot.Common.Text
import Stormnetboot.Common.Utf8
import Stormnetboot.Common.Words
import Stormnetboot.Init.BootOps
import Stormnetboot.Init.BootStages
import Stormnetboot.Init.Cmdline
import Stormnetboot.Init.Console
import Stormnetboot.Init.DataSlabGuard
import Stormnetboot.Init.ExportLayout
import Stormnetboot.Init.ForeignEsp
import Stormnetboot.Init.Media
import Stormnetboot.Init.MediaConverges
import Stormnetboot.Init.MediaCrash
import Stormnetboot.Init.MediaReturns
import Stormnetboot.Init.MediaVerdict
import Stormnetboot.Init.NetworkFallback
import Stormnetboot.Init.NewRoot
import Stormnetboot.Init.PidOne
import Stormnetboot.Init.Report
import Stormnetboot.Init.Settings
import Stormnetboot.Init.SlabResolution
import Stormnetboot.Init.StepEnds
import Stormnetboot.Init.Steps
import Stormnetboot.Init.System
import Stormnetboot.Init.VolumeNames
import Stormnetboot.Server.AssetReads
import Stormnetboot.Server.AvailableStatus
import Stormnetboot.Server.BootGate
import Stormnetboot.Server.BootHost
import Stormnetboot.Server.BootScript
import Stormnetboot.Server.BootSurface
import Stormnetboot.Server.BoundedTracking
import Stormnetboot.Server.Claims
import Stormnetboot.Server.ClusterLayer
import Stormnetboot.Server.Components
import Stormnetboot.Server.Config
import Stormnetboot.Server.DigestPin
import Stormnetboot.Server.FailureRecovery
import Stormnetboot.Server.FeedStream
import Stormnetboot.Server.FeedView
import Stormnetboot.Server.HostExport
import Stormnetboot.Server.HostFile
import Stormnetboot.Server.HostViews
import Stormnetboot.Server.Hosts
import Stormnetboot.Server.InventoryOrder
import Stormnetboot.Server.Ipxe
import Stormnetboot.Server.Isolation
import Stormnetboot.Server.JsonFields
import Stormnetboot.Server.KubeStore
import Stormnetboot.Server.Mac
import Stormnetboot.Server.MacIdentity
import Stormnetboot.Server.Metrics
import Stormnetboot.Server.NodePosts
import Stormnetboot.Server.NvmeOnly
import Stormnetboot.Server.OneClone
import Stormnetboot.Server.Pallet
import Stormnetboot.Server.PalletIntegrity
import Stormnetboot.Server.PhaseReport
import Stormnetboot.Server.Projection
import Stormnetboot.Server.QuietPasses
import Stormnetboot.Server.Readiness
import Stormnetboot.Server.RefreshRuns
import Stormnetboot.Server.RunningPhases
import Stormnetboot.Server.ServedLoadout
import Stormnetboot.Server.SignatureCalls
import Stormnetboot.Server.SignatureOrder
import Stormnetboot.Server.SignatureTrust
import Stormnetboot.Server.SignedRuns
import Stormnetboot.Server.State
import Stormnetboot.Server.StatementLayout
import Stormnetboot.Server.StatusConverges
import Stormnetboot.Server.StatusNotes
import Stormnetboot.Server.StatusPatch
import Stormnetboot.Server.StatusWriter
import Stormnetboot.Server.StoredStatus
import Stormnetboot.Server.Stormsig
import Stormnetboot.Server.SubjectBinding
import Stormnetboot.Server.Traffic
import Stormnetboot.Server.TransitionTimes
import Stormnetboot.Server.WatchRefinement
import Stormnetboot.Server.WriteBurst
