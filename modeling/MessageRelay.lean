import MessageRelay.Library.Machine
import MessageRelay.Library.Table
import MessageRelay.Archive.Message
import MessageRelay.Mailbox.Store
import MessageRelay.Mailbox.Rows
import MessageRelay.Database.Store
import MessageRelay.Database.Rows
import MessageRelay.Archive.Batch
import MessageRelay.Archive.Leaders
import MessageRelay.Archive.Writes
import MessageRelay.Archive.Truthful
import MessageRelay.Relay.Hubs
import MessageRelay.Relay.HubInvariant
import MessageRelay.Relay.HubRows
import MessageRelay.Relay.HubWrites
import MessageRelay.Relay.NoBodyLost
import MessageRelay.Relay.World
import MessageRelay.Mailbox.Listing
import MessageRelay.Relay.Merged
import MessageRelay.Relay.Inbox
import MessageRelay.Relay.InboxHub
import MessageRelay.Relay.InboxDatabase
import MessageRelay.Relay.InboxFaithful
import MessageRelay.Relay.Attended
import MessageRelay.Relay.AttendedHub
import MessageRelay.Relay.NeverRelisted
import MessageRelay.Relay.Stored
import MessageRelay.Relay.Relisting
import MessageRelay.Relay.Settling
import MessageRelay.Relay.SettlingHub
import MessageRelay.Relay.SettlingDatabase
import MessageRelay.Library.ReplayWindow
import MessageRelay.Lane.Frame
import MessageRelay.Lane.Mirror
import MessageRelay.Lane.MirrorStore
import MessageRelay.Lane.MirrorHubs
import MessageRelay.Lane.AcceptedOnce
import MessageRelay.Lane.SessionLane
import MessageRelay.Lane.Separation
import MessageRelay.Session.Auth
import MessageRelay.Session.State
import MessageRelay.Session.Engine
import MessageRelay.Session.Machine
import MessageRelay.Session.Synced
import MessageRelay.Session.LaneCounters
import MessageRelay.Library.Cut
import MessageRelay.Mailbox.Machine
import MessageRelay.Mailbox.Quota
import MessageRelay.Mailbox.Kept
import MessageRelay.Mailbox.Retried
import MessageRelay.Archive.Confluent
import MessageRelay.Relay.Complete
import MessageRelay.Permissions.World
import MessageRelay.Permissions.Fresh
import MessageRelay.Handoff.Reclaim
import MessageRelay.Handoff.Spared
import MessageRelay.Send.StoreRows
import MessageRelay.Send.Stores
import MessageRelay.Send.Inserts
import MessageRelay.Send.Repeated
import MessageRelay.Send.Live
import MessageRelay.Send.Acknowledged
import MessageRelay.Relay.Gone
import MessageRelay.Library.History
import MessageRelay.Session.Rounds
import MessageRelay.Session.Polling
import MessageRelay.Session.Proven
import MessageRelay.Session.Heartbeat
import MessageRelay.Session.Wire
import MessageRelay.Session.Transports
import MessageRelay.Permissions.Readers
import MessageRelay.Permissions.Fees
import MessageRelay.Handoff.Ledger
import MessageRelay.Handoff.HandOff
import MessageRelay.Handoff.Deferred
import MessageRelay.Handoff.KeyWorld
import MessageRelay.Handoff.Leaks
import MessageRelay.Presence.RoomRecord
import MessageRelay.Presence.Registry
import MessageRelay.Presence.LostUpdate
import MessageRelay.Presence.Pushes
import MessageRelay.Presence.LastWord
import MessageRelay.Presence.Parked
import MessageRelay.Presence.Departures
import MessageRelay.Presence.Stranded
import MessageRelay.Presence.QuietWindow
import MessageRelay.Library.Like
import MessageRelay.Payments.QuoteTotals
import MessageRelay.Payments.Routing
import MessageRelay.Turn.Budget
import MessageRelay.Retention.Class
import MessageRelay.Retention.Transcript
import MessageRelay.Retention.Purged
import MessageRelay.Door.Roots
import MessageRelay.Door.Saved
import MessageRelay.Door.AtRest
import MessageRelay.Door.Verified
import MessageRelay.Presence.Forwarded
import MessageRelay.Handoff.Drain
import MessageRelay.Library.Chains
import MessageRelay.Send.Owed
import MessageRelay.Lane.Window
import MessageRelay.Session.Attach
import MessageRelay.Library.JsonText
import MessageRelay.Library.JsonGrammar
import MessageRelay.Library.JsonPrint
import MessageRelay.Library.JsonCells
import MessageRelay.Send.JsonValue
import MessageRelay.Archive.Json
import MessageRelay.Mailbox.Archivable
import MessageRelay.Send.Validate
import MessageRelay.Send.ReadBody
import MessageRelay.Send.ReadBodyScan
import MessageRelay.Send.ReadBodyBytes
import MessageRelay.Send.ReadBodyRewrite
import MessageRelay.Send.Handed
import MessageRelay.Library.Base64
import MessageRelay.Door.Carrier
import MessageRelay.Handoff.Serve
import MessageRelay.Handoff.ServeText
import MessageRelay.Handoff.RowText
import MessageRelay.Handoff.Served
import MessageRelay.Handoff.CameBack
import MessageRelay.Handoff.Listing
import MessageRelay.Handoff.Budget
import MessageRelay.Library.Cursor
import MessageRelay.Door.RawTx
import MessageRelay.Session.AuthRuns
import MessageRelay.Presence.RoomHistory
import MessageRelay.Mailbox.Replay
import MessageRelay.Retention.AckStatements
import MessageRelay.Library.Joined
import MessageRelay.Session.Codec
import MessageRelay.Presence.FanOut
import MessageRelay.Presence.FanOutSteps
import MessageRelay.Presence.FanOutAccount
import MessageRelay.Turn.IceServers
import MessageRelay.Turn.Mint
import MessageRelay.Turn.Ownership
import MessageRelay.Presence.Answer
import MessageRelay.Presence.Route
import MessageRelay.Send.Budget
import MessageRelay.Upload.Record
import MessageRelay.Upload.Spool
import MessageRelay.Door.Inline
import MessageRelay.Handoff.Recorded
import MessageRelay.Payments.Judge
import MessageRelay.Payments.Process
import MessageRelay.Payments.Recorded
import MessageRelay.Payments.Agreed
import MessageRelay.Send.FirstParty
import MessageRelay.Presence.Subscribed
import MessageRelay.Devices.Registrations
