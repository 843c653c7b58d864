import EliteTelemetry.Lib.GoNumbers
import EliteTelemetry.Lib.Limiter
import EliteTelemetry.Lib.LittleEndian
import EliteTelemetry.Lib.CStruct
import EliteTelemetry.Lib.Packet
import EliteTelemetry.Lib.GoFlag
import EliteTelemetry.Lib.StableSort
import EliteTelemetry.Lib.Halting
import EliteTelemetry.Lib.BpfMaps
import EliteTelemetry.Lib.ByteOrder
import EliteTelemetry.Lib.Decimal
import EliteTelemetry.Lib.Fallible
import EliteTelemetry.Lib.GoText
import EliteTelemetry.Lib.Machine
import EliteTelemetry.Lib.Spans
import EliteTelemetry.Lib.FirstWins
import EliteTelemetry.Lib.NumberedLog
import EliteTelemetry.Lib.Channel
import EliteTelemetry.Lib.Files
import EliteTelemetry.Lib.NetAddr
import EliteTelemetry.Lib.Cidr
import EliteTelemetry.Lib.AddrText
import EliteTelemetry.Lib.Recursion
import EliteTelemetry.Lib.WorkList
import EliteTelemetry.Lib.NumberText
import EliteTelemetry.Lib.HexText
import EliteTelemetry.Lib.LineScanner
import EliteTelemetry.Lib.Bisect
import EliteTelemetry.Lib.Caches
import EliteTelemetry.Lib.DoubleBuffer
import EliteTelemetry.Lib.Utf8
import EliteTelemetry.Lib.LeastSquares
import EliteTelemetry.Lib.BitMask
import EliteTelemetry.Xdp.PolicyMap
import EliteTelemetry.Xdp.Mitigator
import EliteTelemetry.Xdp.Accounting
import EliteTelemetry.Xdp.LambdaRing
import EliteTelemetry.Xdp.Tokens
import EliteTelemetry.Xdp.Charges
import EliteTelemetry.Xdp.Conforming
import EliteTelemetry.Xdp.Frames
import EliteTelemetry.Xdp.Priority
import EliteTelemetry.Forecaster.KernelSignal
import EliteTelemetry.Forecaster.Kinematic
import EliteTelemetry.Forecaster.RingWindow
import EliteTelemetry.Forecaster.TrackerLaws
import EliteTelemetry.Forecaster.Rebound
import EliteTelemetry.Forecaster.Fuse
import EliteTelemetry.Forecaster.Overload
import EliteTelemetry.Forecaster.LatencyTerm
import EliteTelemetry.Forecaster.MuBound
import EliteTelemetry.Forecaster.PolicySync
import EliteTelemetry.Forecaster.PolicyEncoding
import EliteTelemetry.Forecaster.Runner
import EliteTelemetry.Forecaster.Agreement
import EliteTelemetry.Forecaster.ScrapeGap
import EliteTelemetry.Forecaster.ShedRate
import EliteTelemetry.Forecaster.Push
import EliteTelemetry.Forecaster.AdmissionRate
import EliteTelemetry.Forecaster.SemiMode
import EliteTelemetry.Forecaster.FloatText
import EliteTelemetry.Forecaster.Exposition
import EliteTelemetry.Forecaster.ScrapeBody
import EliteTelemetry.Forecaster.Scraper
import EliteTelemetry.Forecaster.ScrapeRate
import EliteTelemetry.Forecaster.PolicyFile
import EliteTelemetry.Forecaster.SnapshotBuffer
import EliteTelemetry.Dcic.Controller
import EliteTelemetry.Dcic.Loop
import EliteTelemetry.Dcic.Slack
import EliteTelemetry.Dcic.Resctrl
import EliteTelemetry.Ipcache.Service
import EliteTelemetry.Ipcache.Agent
import EliteTelemetry.Ipcache.System
import EliteTelemetry.Ipcache.History
import EliteTelemetry.Ipcache.Invariant
import EliteTelemetry.Ipcache.Control
import EliteTelemetry.Ipcache.Replication
import EliteTelemetry.Ipcache.Sync
import EliteTelemetry.Ipcache.Pods
import EliteTelemetry.Exporter.ProbeServer
import EliteTelemetry.Exporter.Reload
import EliteTelemetry.Exporter.Torn
import EliteTelemetry.Exporter.Registry
import EliteTelemetry.Exporter.Shedder
import EliteTelemetry.Exporter.Loki
import EliteTelemetry.Exporter.Fanout
import EliteTelemetry.Skoop.Model
import EliteTelemetry.Skoop.NetworkPolicy
import EliteTelemetry.Skoop.PolicyVerdict
import EliteTelemetry.Skoop.PodPeers
import EliteTelemetry.Skoop.IPCache
import EliteTelemetry.Skoop.Service
import EliteTelemetry.Skoop.PolicyCheck
import EliteTelemetry.Skoop.IngressPort
import EliteTelemetry.Skoop.Diagnose
import EliteTelemetry.Netstack.Iptables
import EliteTelemetry.Netstack.Chains
import EliteTelemetry.Netstack.Matchers
import EliteTelemetry.Netstack.Parse
import EliteTelemetry.Netstack.MarkValue
import EliteTelemetry.Netstack.Routes
import EliteTelemetry.Netstack.SourceMatch
import EliteTelemetry.Netstack.Insertion
import EliteTelemetry.Netstack.Ipvs
import EliteTelemetry.Skoop.Flannel
import EliteTelemetry.Skoop.FlannelPaths
import EliteTelemetry.Skoop.IpvsValidate
import EliteTelemetry.Nettop.EntityCache
import EliteTelemetry.Nettop.LinkManager
import EliteTelemetry.Probes.TxLatency
import EliteTelemetry.Probes.SocketLatency
import EliteTelemetry.Probes.Softirq
import EliteTelemetry.Probes.Inspector
import EliteTelemetry.Probes.Labels
import EliteTelemetry.Probes.Flow
import EliteTelemetry.Probes.PacketLoss
import EliteTelemetry.Probes.Scrape
import EliteTelemetry.Probes.Ports
import EliteTelemetry.Probes.TupleLabels
import EliteTelemetry.Probes.Legacy
import EliteTelemetry.Probes.AdditionalLabels
import EliteTelemetry.Probes.Lifecycle
import EliteTelemetry.Probes.LinkFlows
import EliteTelemetry.Probes.TcpSummary
import EliteTelemetry.Probes.KernelLatency
import EliteTelemetry.Probes.VirtCmd
import EliteTelemetry.Probes.QdiscPool
import EliteTelemetry.Export.Otel
import EliteTelemetry.Exporter.Listen
import EliteTelemetry.Exporter.Kallsyms
import EliteTelemetry.Updater.Swap
import EliteTelemetry.Updater.Verify
import EliteTelemetry.Controller.Tasks
import EliteTelemetry.Controller.Ping
import EliteTelemetry.Controller.Capture
