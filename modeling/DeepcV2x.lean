import DeepcV2x.Foundation.Runs
import DeepcV2x.Foundation.EventQueue
import DeepcV2x.Foundation.IntervalUnion
import DeepcV2x.Foundation.Association
import DeepcV2x.Foundation.Strings
import DeepcV2x.Foundation.Decimal
import DeepcV2x.Foundation.Deques
import DeepcV2x.Foundation.Json
import DeepcV2x.Foundation.Numerals
import DeepcV2x.Foundation.JsonRead
import DeepcV2x.Foundation.Grids
import DeepcV2x.Foundation.Cycles
import DeepcV2x.Foundation.HeapOrder
import DeepcV2x.Foundation.Slices
import DeepcV2x.Foundation.Sharing
import DeepcV2x.Foundation.Cursors
import DeepcV2x.Foundation.Rounding
import DeepcV2x.Foundation.HashTables
import DeepcV2x.Foundation.RunWindows
import DeepcV2x.Foundation.Marks
import DeepcV2x.Foundation.Loops
import DeepcV2x.Foundation.Watched
import DeepcV2x.Foundation.BitFields
import DeepcV2x.Foundation.Rings
import DeepcV2x.Foundation.Octets
import DeepcV2x.Foundation.BitOctets
import DeepcV2x.Foundation.SharedLists
import DeepcV2x.Pool.Mobility
import DeepcV2x.Pool.Assignment
import DeepcV2x.Pool.Schedule
import DeepcV2x.Pool.Agenda
import DeepcV2x.Pool.Occupancy
import DeepcV2x.Pool.Stages
import DeepcV2x.Pool.Preflight
import DeepcV2x.Pool.Tracks
import DeepcV2x.Pool.Interpolation
import DeepcV2x.Cam.DataProvider
import DeepcV2x.Ipv4.Reassembly
import DeepcV2x.Ipv4.PartialPacket
import DeepcV2x.Ipv4.AddressList
import DeepcV2x.Kpi.Logger
import DeepcV2x.Kpi.Window
import DeepcV2x.Kpi.PairPir
import DeepcV2x.Cbr.Logger
import DeepcV2x.Cbr.Measure
import DeepcV2x.Bridge.StepFiles
import DeepcV2x.Bridge.Protocol
import DeepcV2x.Bridge.Freshness
import DeepcV2x.Bridge.Response
import DeepcV2x.Bridge.FailSafe
import DeepcV2x.Bridge.History
import DeepcV2x.Bridge.ClosedLoop
import DeepcV2x.Bridge.Alignment
import DeepcV2x.Bridge.Printed
import DeepcV2x.Bridge.WriteRequest
import DeepcV2x.Controller.Request
import DeepcV2x.Controller.Solve
import DeepcV2x.Controller.Agreement
import DeepcV2x.Controller.ReadBack
import DeepcV2x.Controller.Dummy
import DeepcV2x.Dataset.Build
import DeepcV2x.Dataset.Trajectories
import DeepcV2x.Dataset.ActiveExact
import DeepcV2x.Sidelink.PhysicalPool
import DeepcV2x.Sidelink.ResourcePool
import DeepcV2x.Sidelink.Selection
import DeepcV2x.Sidelink.Psfch
import DeepcV2x.Sidelink.PoolEquality
import DeepcV2x.Sidelink.Bearers
import DeepcV2x.Scheduler.Events
import DeepcV2x.Scheduler.Heap
import DeepcV2x.Scheduler.CalendarRun
import DeepcV2x.Rlc.UmWindow
import DeepcV2x.Tcp.ScoreboardRun
import DeepcV2x.Tcp.RxRun
import DeepcV2x.Wifi.Reorder
import DeepcV2x.Wifi.Scoreboard
import DeepcV2x.Simulator.Semantics
import DeepcV2x.Packets.ByteTagRun
import DeepcV2x.Packets.PacketTagRun
import DeepcV2x.Packets.NixStack
import DeepcV2x.Lte.RoundRobinRun
import DeepcV2x.Lte.UplinkRun
import DeepcV2x.Lte.Asn1Fields
import DeepcV2x.Epc.GtpcRoundTrip
import DeepcV2x.Epc.TftFragments
import DeepcV2x.HighPrec.Inverse
import DeepcV2x.Rlc.AmHeader
import DeepcV2x.Rlc.AmHeaderRoundTrip
import DeepcV2x.Rlc.AmPolling
import DeepcV2x.Rlc.AmReceive
import DeepcV2x.Rlc.AmStatus
import DeepcV2x.Rlc.UmDiscard
import DeepcV2x.Rlc.UmInvariant
import DeepcV2x.Sidelink.Tft
import DeepcV2x.Tcp.SackRun
import DeepcV2x.Tcp.ConnectionRun
import DeepcV2x.Network.BitSerializer
import DeepcV2x.Applications.PacketLossCounter
import DeepcV2x.Ipv4.StaticRouting
import DeepcV2x.Core.CsvReader
import DeepcV2x.Mobility.WaypointRun
import DeepcV2x.Packets.MetadataRoundTrip
import DeepcV2x.Lte.HarqRun
import DeepcV2x.Epc.GtpcMessagesRoundTrip
import DeepcV2x.Cam.PipelineRun
