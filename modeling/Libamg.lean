import Libamg.StripControl
import Libamg.Config.PrefixLine
import Libamg.Config.SysLogCommand
import Libamg.Config.ComcertoRoundTrip
import Libamg.Config.PrintedNumbers
import Libamg.Config.MissingFiles
import Libamg.Config.Extraction
import Libamg.Process.OneReturns
import Libamg.Process.Inetd
import Libamg.Process.Inittab
import Libamg.Process.Switch
import Libamg.Process.Arguments
import Libamg.Process.CaptureBuffer
import Libamg.Process.RunStatus
import Libamg.Process.Lookup
import Libamg.Net.DefaultGateway
import Libamg.Net.ArpLookup
import Libamg.Net.InterfaceAddr
import Libamg.Net.Ping
import Libamg.Net.RouteFilter
import Libamg.Net.Checksum
import Libamg.Dahdi.Channels
import Libamg.Dahdi.RoundTrip
import Libamg.Dahdi.ChannelRanges
import Libamg.Dahdi.AisDaemon
import Libamg.Dsp.ToneFifos
import Libamg.Dsp.ToneFrees
import Libamg.Dsp.InbandInvariant
import Libamg.Dsp.SetterFailure
import Libamg.System.SerialNumber
import Libamg.System.Info
import Libamg.System.CpuUsage
import Libamg.Netlink.Nested
import Libamg.Netlink.Gateway
import Libamg.Netlink.LinkNames
import Libamg.Netlink.LinkDump
import Libamg.Dsp.ToneThreads
import Libamg.Config.Settled
import Libamg.Netlink.Session
