import AcmeChampion.Lib.Bytes
import AcmeChampion.Lib.Fifo
import AcmeChampion.Lib.Machine
import AcmeChampion.Lib.Text
import AcmeChampion.Lib.Wire
import AcmeChampion.Checked
import AcmeChampion.Dns.Header
import AcmeChampion.Dns.Query
import AcmeChampion.Challenges
import AcmeChampion.Config
import AcmeChampion.Dns.Message
import AcmeChampion.DnsHandler
import AcmeChampion.Lib.Table
import AcmeChampion.Proofs.Clients
import AcmeChampion.Proofs.Codes
import AcmeChampion.Proofs.LetterCase
import AcmeChampion.Proofs.Sizes
import AcmeChampion.Proofs.Expiry
import AcmeChampion.Proofs.Lockout
import AcmeChampion.Proofs.Names
import AcmeChampion.Proofs.LogLines
import AcmeChampion.Proofs.RateBound
import AcmeChampion.Proofs.Replies
import AcmeChampion.Proofs.WellFormed
import AcmeChampion.Proofs.Timestamps
import AcmeChampion.Proofs.HeaderCase
import AcmeChampion.Proofs.Segments
import AcmeChampion.Proofs.TxtValues
import AcmeChampion.Proofs.Compression
import AcmeChampion.Proofs.Deletions
import AcmeChampion.Proofs.Addresses
import AcmeChampion.MainLoop
import AcmeChampion.Proofs.Representation
import AcmeChampion.Proofs.Drain
import AcmeChampion.Plugin
import AcmeChampion.Proofs.Teardown
import AcmeChampion.Lib.EventLoop
import AcmeChampion.Responder
import AcmeChampion.Lib.Effects
import AcmeChampion.Server
import AcmeChampion.Startup
import AcmeChampion.Proofs.Responder
import AcmeChampion.Proofs.Server
import AcmeChampion.Proofs.Packets
import AcmeChampion.Proofs.Startup
import AcmeChampion.Proofs.Isolation
import AcmeChampion.Proofs.Settings
import AcmeChampion.Proofs.Session
import AcmeChampion.Lib.Numerals
import AcmeChampion.Proofs.LogOrder
import AcmeChampion.Lib.Escapes
import AcmeChampion.Proofs.LogPairs
import AcmeChampion.Proofs.Verdicts
import AcmeChampion.Proofs.Arguments
import AcmeChampion.Proofs.Bounds
