import Plotnetcfg.Lib.Bytes
import Plotnetcfg.Lib.AlignedRecords
import Plotnetcfg.Lib.IntrusiveList
import Plotnetcfg.Lib.Dict
import Plotnetcfg.Lib.Prog
import Plotnetcfg.Lib.Matching
import Plotnetcfg.Lib.Pairing
import Plotnetcfg.Lib.OrderedPartition
import Plotnetcfg.Lib.Keyed
import Plotnetcfg.Lib.Tally
import Plotnetcfg.Lib.Transducer
import Plotnetcfg.Lib.DotLanguage
import Plotnetcfg.Lib.Buffer
import Plotnetcfg.Lib.TwoRuns
import Plotnetcfg.Core.RevLists
import Plotnetcfg.Core.ListCalls
import Plotnetcfg.Core.CString
import Plotnetcfg.Core.Topology
import Plotnetcfg.Core.Master
import Plotnetcfg.Core.Match
import Plotnetcfg.Core.Resolve
import Plotnetcfg.Core.Search
import Plotnetcfg.Core.Netnsid
import Plotnetcfg.Core.Names
import Plotnetcfg.Core.Peers
import Plotnetcfg.Core.Addr
import Plotnetcfg.Core.Tunnel
import Plotnetcfg.Core.Jansson
import Plotnetcfg.Core.Handler
import Plotnetcfg.Core.Args
import Plotnetcfg.Netns.Scan
import Plotnetcfg.Netns.Canonical
import Plotnetcfg.Handlers.Openvswitch.Parse
import Plotnetcfg.Handlers.Openvswitch.PortInfo
import Plotnetcfg.Handlers.Openvswitch.Link
import Plotnetcfg.Handlers.Openvswitch.SearchEffect
import Plotnetcfg.Handlers.Openvswitch.LinkInvariant
import Plotnetcfg.Handlers.Openvswitch.LinkSteps
import Plotnetcfg.Handlers.Openvswitch.ParseSafety
import Plotnetcfg.Handlers.Openvswitch.Parsed
import Plotnetcfg.Handlers.Openvswitch.ReplySafety
import Plotnetcfg.Handlers.Openvswitch.LinkFields
import Plotnetcfg.Handlers.Openvswitch.EdgeLabels
import Plotnetcfg.Handlers.Openvswitch.TrunkLabel
import Plotnetcfg.Handlers.Openvswitch.Linked
import Plotnetcfg.Handlers.Openvswitch.Turns
import Plotnetcfg.Handlers.Openvswitch.PatchPairs
import Plotnetcfg.Handlers.Openvswitch.Creations
import Plotnetcfg.Handlers.Openvswitch.LostPorts
import Plotnetcfg.Handlers.Veth
import Plotnetcfg.Handlers.Route
import Plotnetcfg.Handlers.Receive
import Plotnetcfg.Frontends.Dot
import Plotnetcfg.Frontends.Json
import Plotnetcfg.Netlink.Message
import Plotnetcfg.Netlink.Attr
import Plotnetcfg.Netlink.Walk
import Plotnetcfg.Netlink.Build
import Plotnetcfg.Netlink.Growth
import Plotnetcfg.Netlink.Exchange
import Plotnetcfg.Netlink.Dump
import Plotnetcfg.Handlers.Tunnels
import Plotnetcfg.Handlers.LowerDevice
import Plotnetcfg.Handlers.Devices
import Plotnetcfg.Netns.If
import Plotnetcfg.Netns.MacAddress
import Plotnetcfg.Handlers.PrivateData
import Plotnetcfg.Handlers.PrivateUse
import Plotnetcfg.Handlers.Addresses
import Plotnetcfg.Netns.IfList
import Plotnetcfg.Handlers.VethPairing
import Plotnetcfg.Handlers.FillList
import Plotnetcfg.Handlers.Openvswitch.Ids
import Plotnetcfg.Frontends.Connections
import Plotnetcfg.Frontends.DotText
import Plotnetcfg.Handlers.Openvswitch.Configuration
import Plotnetcfg.Handlers.Openvswitch.Release
import Plotnetcfg.Frontends.JsonDocument
import Plotnetcfg.Frontends.ConfigOnly
import Plotnetcfg.Frontends.Outputs
import Plotnetcfg.Frontends.RouteMetrics
import Plotnetcfg.Handlers.FillSteps
import Plotnetcfg.Handlers.Openvswitch.LinkRuns
import Plotnetcfg.Handlers.Collected
import Plotnetcfg.Handlers.PostRuns
import Plotnetcfg.Handlers.FillRuns
import Plotnetcfg.Frontends.LinkNetns
import Plotnetcfg.Handlers.PostTurns
import Plotnetcfg.Handlers.PostReturns
import Plotnetcfg.Handlers.SelfRelation
import Plotnetcfg.Handlers.References
import Plotnetcfg.Frontends.References
import Plotnetcfg.Netns.NetnsIds
import Plotnetcfg.Handlers.Mirror
import Plotnetcfg.Handlers.PostEffect
import Plotnetcfg.Netns.Sysfs
import Plotnetcfg.Handlers.Openvswitch.Query
import Plotnetcfg.Core.ArgsHelp
import Plotnetcfg.Netlink.Genl
import Plotnetcfg.Handlers.Openvswitch.Vport
import Plotnetcfg.Handlers.Openvswitch.Vouched
import Plotnetcfg.Netns.FillList
