import AgentMsg.Acceptance
import AgentMsg.AckBounds
import AgentMsg.Arrivals
import AgentMsg.Authenticity
import AgentMsg.AuthorityKeys
import AgentMsg.Binding
import AgentMsg.BrowseAll
import AgentMsg.Cascade
import AgentMsg.Cursors
import AgentMsg.Daemon
import AgentMsg.Data
import AgentMsg.Deeds
import AgentMsg.Delivery
import AgentMsg.Downgrade
import AgentMsg.Drain
import AgentMsg.Echoes
import AgentMsg.Encryption
import AgentMsg.EventLoop
import AgentMsg.Eviction
import AgentMsg.Exchange
import AgentMsg.Follow
import AgentMsg.FollowStream
import AgentMsg.Frames
import AgentMsg.GrantStorage
import AgentMsg.GrantSubject
import AgentMsg.Grants
import AgentMsg.Handoff
import AgentMsg.Hellos
import AgentMsg.IdentityFiles
import AgentMsg.IdentityKeys
import AgentMsg.Ingest
import AgentMsg.IngestSpec
import AgentMsg.Interference
import AgentMsg.Introductions
import AgentMsg.IpcCall
import AgentMsg.IpcCodec
import AgentMsg.IpcReplies
import AgentMsg.KeyContinuity
import AgentMsg.Lag
import AgentMsg.Ledger
import AgentMsg.Lib.Account
import AgentMsg.Lib.Base64
import AgentMsg.Lib.Checked
import AgentMsg.Lib.Compact
import AgentMsg.Lib.Crc
import AgentMsg.Lib.Directory
import AgentMsg.Lib.Document
import AgentMsg.Lib.Joined
import AgentMsg.Lib.Json
import AgentMsg.Lib.Latest
import AgentMsg.Lib.Machine
import AgentMsg.Lib.Prog
import AgentMsg.Lib.Record
import AgentMsg.Lib.RowTable
import AgentMsg.Lib.Sql
import AgentMsg.Lib.Tally
import AgentMsg.Lib.Utf8
import AgentMsg.Log
import AgentMsg.Message
import AgentMsg.Migration
import AgentMsg.Minting
import AgentMsg.Network
import AgentMsg.Outbox
import AgentMsg.PacketSize
import AgentMsg.Pairing
import AgentMsg.Pending
import AgentMsg.Platform
import AgentMsg.Presence
import AgentMsg.ReadReceipts
import AgentMsg.Readings
import AgentMsg.ReceiptBounds
import AgentMsg.Receipts
import AgentMsg.Redelivery
import AgentMsg.Reference
import AgentMsg.RejectionLog
import AgentMsg.Rejections
import AgentMsg.Repeated
import AgentMsg.Replay
import AgentMsg.Requests
import AgentMsg.Responses
import AgentMsg.Retention
import AgentMsg.RoundTrip
import AgentMsg.Schema
import AgentMsg.SendAtomic
import AgentMsg.SendLimits
import AgentMsg.Serde
import AgentMsg.Silence
import AgentMsg.Store
import AgentMsg.StoreBounds
import AgentMsg.StoredRows
import AgentMsg.TokenDamage
import AgentMsg.TokenFormats
import AgentMsg.Tokens
import AgentMsg.Trust
import AgentMsg.TrustEdits
import AgentMsg.TrustRecords
import AgentMsg.Versions
import AgentMsg.Vouching
import AgentMsg.World
