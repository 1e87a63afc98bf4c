import VoceChat.Accounts.FirstAdmin
import VoceChat.Accounts.Mutes
import VoceChat.Accounts.Names
import VoceChat.Accounts.PasswordHash
import VoceChat.Accounts.PasswordLogin
import VoceChat.Accounts.PasswordUpgrades
import VoceChat.Accounts.PasswordWrites
import VoceChat.Accounts.Renewals
import VoceChat.Accounts.Sessions
import VoceChat.Accounts.UserLog
import VoceChat.Accounts.Users
import VoceChat.Api.Conversations
import VoceChat.Api.GroupSend
import VoceChat.Api.GroupSequencing
import VoceChat.Api.History
import VoceChat.Api.Locks
import VoceChat.Api.MergeSteps
import VoceChat.Api.MergeSystem
import VoceChat.Api.MergedMessages
import VoceChat.Api.Messages
import VoceChat.Auth.CodeIndex
import VoceChat.Auth.MagicCodes
import VoceChat.Bot.ApiKeys
import VoceChat.Bot.Channels
import VoceChat.Bot.HandOvers
import VoceChat.Bot.Inbound
import VoceChat.Bot.Vault
import VoceChat.Config.Dynamic
import VoceChat.Credentials.Acceptance
import VoceChat.Credentials.Kinds
import VoceChat.Credentials.Parsers
import VoceChat.Credentials.Separation
import VoceChat.Directory.Bundles
import VoceChat.Directory.OneTimePrekeys
import VoceChat.Directory.System
import VoceChat.Directory.Tables
import VoceChat.Directory.Versions
import VoceChat.Envelopes.Addressing
import VoceChat.Envelopes.CatchingUp
import VoceChat.Envelopes.Listing
import VoceChat.Envelopes.Secrets
import VoceChat.Envelopes.System
import VoceChat.Envelopes.Tables
import VoceChat.Envelopes.Wrapping
import VoceChat.Events.Backlog
import VoceChat.Events.Delivery
import VoceChat.Events.Invariant
import VoceChat.Events.Onward
import VoceChat.Events.Reconnect
import VoceChat.Events.Registration
import VoceChat.Events.Senders
import VoceChat.Events.System
import VoceChat.Events.Webhooks
import VoceChat.Files.Archives
import VoceChat.Files.Assembly
import VoceChat.Files.Endpoints
import VoceChat.Files.Expiry
import VoceChat.Files.Favorites
import VoceChat.Files.Uploads
import VoceChat.Foundations.Apart
import VoceChat.Foundations.Base64
import VoceChat.Foundations.BigEndian
import VoceChat.Foundations.Bincode
import VoceChat.Foundations.Blocks
import VoceChat.Foundations.Calendar
import VoceChat.Foundations.Cbor
import VoceChat.Foundations.Decimal
import VoceChat.Foundations.FairLocks
import VoceChat.Foundations.Guards
import VoceChat.Foundations.Hex
import VoceChat.Foundations.HighWater
import VoceChat.Foundations.History
import VoceChat.Foundations.Holders
import VoceChat.Foundations.IndexedTable
import VoceChat.Foundations.Journal
import VoceChat.Foundations.Json
import VoceChat.Foundations.JsonCode
import VoceChat.Foundations.JsonLimits
import VoceChat.Foundations.JsonOrder
import VoceChat.Foundations.JsonText
import VoceChat.Foundations.KeyChain
import VoceChat.Foundations.LastEntry
import VoceChat.Foundations.LexicalPath
import VoceChat.Foundations.LockScripts
import VoceChat.Foundations.Machine
import VoceChat.Foundations.OpenFiles
import VoceChat.Foundations.OrderedMap
import VoceChat.Foundations.PaddedBase64
import VoceChat.Foundations.Paging
import VoceChat.Foundations.Replay
import VoceChat.Foundations.Run
import VoceChat.Foundations.SignedDecimal
import VoceChat.Foundations.Slices
import VoceChat.Foundations.StableSort
import VoceChat.Foundations.Table
import VoceChat.Foundations.Tasks
import VoceChat.Foundations.Utf8
import VoceChat.Groups.AgoraTokens
import VoceChat.Groups.Announcements
import VoceChat.Groups.Copies
import VoceChat.Groups.Owners
import VoceChat.Groups.Pins
import VoceChat.Groups.ReadIndexes
import VoceChat.Groups.Restart
import VoceChat.Groups.Settings
import VoceChat.Groups.State
import VoceChat.Groups.Targets
import VoceChat.License.Installed
import VoceChat.License.Signed
import VoceChat.Links.Challenges
import VoceChat.Links.Identities
import VoceChat.Links.Logins
import VoceChat.Links.Origins
import VoceChat.Links.System
import VoceChat.Message.Payload
import VoceChat.Message.Plaintext
import VoceChat.Message.Send
import VoceChat.Message.SendLaws
import VoceChat.Mls.Application
import VoceChat.Mls.Attachments
import VoceChat.Mls.Commands
import VoceChat.Mls.Delivery
import VoceChat.Mls.Grammar
import VoceChat.Mls.Initialization
import VoceChat.Mls.KeyPackages
import VoceChat.Mls.Routing
import VoceChat.Mls.Sequence
import VoceChat.Mls.SequenceLaws
import VoceChat.Mls.Welcome
import VoceChat.Msgdb.Allocation
import VoceChat.Msgdb.Durability
import VoceChat.Msgdb.KeySpace
import VoceChat.Msgdb.Keys
import VoceChat.Msgdb.Pages
import VoceChat.Msgdb.Records
import VoceChat.Msgdb.Store
import VoceChat.Msgdb.StoredMessages
import VoceChat.Msgdb.Writes
import VoceChat.Notifications.AccessTokens
import VoceChat.Notifications.Delivery
import VoceChat.Notifications.Recipients
import VoceChat.Notifications.System
import VoceChat.OpenGraph.Extraction
import VoceChat.OpenGraph.Fetcher
import VoceChat.Pending.Markers
import VoceChat.Pending.Poison
import VoceChat.Pending.Reconciled
import VoceChat.Pending.Rows
import VoceChat.Pending.System
import VoceChat.Ratchet.Deferred
import VoceChat.Ratchet.Delivery
import VoceChat.Ratchet.History
import VoceChat.Ratchet.Opening
import VoceChat.Ratchet.Receive
import VoceChat.Ratchet.Reliability
import VoceChat.Ratchet.ReplayWindow
import VoceChat.Ratchet.SafetyNumbers
import VoceChat.Ratchet.Saved
import VoceChat.Ratchet.Session
import VoceChat.Ratchet.SkippedKeys
import VoceChat.Ratchet.State
import VoceChat.Ratchet.X3dh
