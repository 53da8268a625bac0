import MicRs.Cli.Hexdump
import MicRs.Connection.Notifications
import MicRs.Connection.Selection
import MicRs.Device.Conservation
import MicRs.Device.Success
import MicRs.Device.Untrusted
import MicRs.Ogg.Corruption
import MicRs.Ogg.Delimiters
import MicRs.Protocol.Commands
import MicRs.Protocol.Parsers
import MicRs.Session.Answers
import MicRs.Session.Files
import MicRs.Session.KeyExchange
import MicRs.Session.Listing
import MicRs.Session.Queue
import MicRs.Transfer.Callback
import MicRs.Transfer.Counter
import MicRs.Transfer.Failure
import MicRs.Transfer.Gaps
import MicRs.Transfer.Lossless
import MicRs.Transfer.Noise
import MicRs.Transfer.Progress
import MicRs.Transfer.SlicePackets
