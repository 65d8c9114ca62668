import FakeDns.Dns.PtrReply
import FakeDns.Dns.Records
import FakeDns.Dns.Mkquery
import FakeDns.DomainName.Wire
import FakeDns.Hostent.Reentrant
import FakeDns.Hostent.Faithful
import FakeDns.Hostent.Static
import FakeDns.Hostent.Retry
import FakeDns.AddrInfo.Result
import FakeDns.AddrInfo.Image
import FakeDns.AddrInfo.Overlap
import FakeDns.AddrInfo.Port
import FakeDns.AddrInfo.Family
import FakeDns.AddrInfo.Entry
import FakeDns.AddrInfo.Balance
import FakeDns.NameInfo.Bounds
import FakeDns.Services.Getservbyport
import FakeDns.ByteMemory.Outcome
import FakeDns.Dns.ExpandName
import FakeDns.Dns.Questions
import FakeDns.Keyed.Buckets
import FakeDns.Channel.State
import FakeDns.Channel.Process
import FakeDns.Channel.Moves
import FakeDns.Channel.Rings
import FakeDns.Channel.Simulation
import FakeDns.Channel.Runs
import FakeDns.Channel.Once
import FakeDns.Channel.Memory
import FakeDns.Channel.Attempts
import FakeDns.Channel.Streams
import FakeDns.Channel.Input
import FakeDns.Channel.Timeouts
import FakeDns.Channel.Ends
import FakeDns.Channel.Genuine
import FakeDns.Channel.Cancel
import FakeDns.Channel.Clients
import FakeDns.Channel.Lookups
import FakeDns.Channel.Resolves
