import Netscope.Library.ByteString
import Netscope.Library.BitFields
import Netscope.Library.Numerals
import Netscope.Library.ByteClasses
import Netscope.Library.Json
import Netscope.Library.JsonWriting
import Netscope.Library.PartialMemory
import Netscope.Library.BoundedMap
import Netscope.Library.Tallies
import Netscope.Library.OpenAddressing
import Netscope.Model.Util
import Netscope.Model.Filter
import Netscope.Model.Headers
import Netscope.Model.Dns
import Netscope.Model.Packet
import Netscope.Model.Stats
import Netscope.Model.Output
import Netscope.Model.StatsPrint
import Netscope.Model.Config
import Netscope.Model.Capture
import Netscope.Model.Main
import Netscope.Text.AddressText
import Netscope.Text.TerminalOutput
import Netscope.Text.JsonOutput
import Netscope.Text.WireNames
import Netscope.Checked.Headers
import Netscope.Checked.Dns
import Netscope.Checked.DnsNames
import Netscope.Checked.DnsRecords
import Netscope.Checked.DnsMessages
import Netscope.Checked.Packet
import Netscope.Layers.HeaderSpecs
import Netscope.Layers.LayerFrames
import Netscope.Layers.WalkRule
import Netscope.Layers.SnapLength
import Netscope.Layers.Fragments
import Netscope.Layers.FrameFormat
import Netscope.Layers.RoundTrip
import Netscope.Layers.LayerTags
import Netscope.Layers.ExtensionChain
import Netscope.Dns.NameGrammar
import Netscope.Dns.MessageSpecs
import Netscope.Dns.SnapLength
import Netscope.Dns.MessageFormat
import Netscope.Dns.RoundTrip
import Netscope.Dns.Transports
import Netscope.Dns.NameUses
import Netscope.Dns.RdataExtent
import Netscope.CommandLine.FilterExpression
import Netscope.CommandLine.StoredArguments
import Netscope.CommandLine.JsonStream
import Netscope.Stats.FlowKey
import Netscope.Stats.FlowTable
import Netscope.Stats.Accounting
import Netscope.Library.FilterLanguage
import Netscope.CommandLine.FilterMeaning
import Netscope.Layers.VlanTag
import Netscope.Layers.PayloadView
import Netscope.Text.CanonicalIpv6
import Netscope.Library.Callbacks
import Netscope.Text.HexDump
import Netscope.Library.Ranking
import Netscope.Stats.TopConversations
import Netscope.CommandLine.AcceptedOptions
import Netscope.CommandLine.StopRequests
import Netscope.Dns.NameWork
import Netscope.Dns.TextRecords
import Netscope.Library.JsonGrammar
import Netscope.Text.EscapedStrings
import Netscope.Library.Interaction
import Netscope.Model.SystemCalls
import Netscope.Library.Ledger
import Netscope.Program.Delivery
import Netscope.Program.LogLevels
import Netscope.Checked.PrintedPackets
import Netscope.Stats.PacketOrder
import Netscope.Layers.InspectedBytes
import Netscope.CommandLine.PayloadSecrecy
import Netscope.Checked.ReportedRuns
import Netscope.Layers.AcceptedFrames
import Netscope.Library.CountedRuns
import Netscope.Work.DnsWork
import Netscope.Work.PacketWork
