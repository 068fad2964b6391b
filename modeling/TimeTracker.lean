import TimeTracker.Library.Run
import TimeTracker.Library.Indexed
import TimeTracker.Library.Atomic
import TimeTracker.Library.Rely
import TimeTracker.Library.Serving
import TimeTracker.Library.Recording
import TimeTracker.Library.Twin
import TimeTracker.Library.Base64
import TimeTracker.Library.Decimal
import TimeTracker.Library.Json
import TimeTracker.Library.Aead
import TimeTracker.Library.Bits
import TimeTracker.Library.KeyWrap
import TimeTracker.Library.Tally
import TimeTracker.Library.TokenBucket
import TimeTracker.Text
import TimeTracker.Crypto.Wire
import TimeTracker.Crypto.Subtle
import TimeTracker.Crypto.EncryptionKey
import TimeTracker.Crypto.Transcription
import TimeTracker.Crypto.Ceremony
import TimeTracker.Date
import TimeTracker.Calendar
import TimeTracker.Lenient
import TimeTracker.Pages
import TimeTracker.Partition
import TimeTracker.WeekView
import TimeTracker.Spelling
import TimeTracker.Server.Schema
import TimeTracker.Server.Store
import TimeTracker.Server.Ceremony
import TimeTracker.Server.Functions
import TimeTracker.Server.SessionToken
import TimeTracker.Server.MagicLink
import TimeTracker.Server.Execution
import TimeTracker.Server.Outcomes
import TimeTracker.Server.Entries
import TimeTracker.Server.Unchanged
import TimeTracker.Server.Ranges
import TimeTracker.Server.RateLimit
import TimeTracker.Server.SingleUse
import TimeTracker.Server.Account
import TimeTracker.Server.Concurrent
import TimeTracker.Server.Interference
import TimeTracker.Server.Deciding
import TimeTracker.Server.Revocation
import TimeTracker.Server.Addresses
import TimeTracker.Server.Attested
import TimeTracker.Server.SignIn
import TimeTracker.Server.Views
import TimeTracker.Server.Isolation
import TimeTracker.Server.Opaque
import TimeTracker.Server.Filing
import TimeTracker.Tab.State
import TimeTracker.Tab.System
import TimeTracker.Tab.Outrank
import TimeTracker.Tab.Forget
import TimeTracker.Tab.Rerun
import TimeTracker.Tab.Keys
import TimeTracker.Tab.WayOut
import TimeTracker.Tab.Holders
import TimeTracker.Client.Session
import TimeTracker.Client.SignOut
import TimeTracker.Client.Calls
import TimeTracker.Client.Flow
import TimeTracker.Client.DataKeys
import TimeTracker.Client.KeysAtHome
import TimeTracker.Client.Routes
import TimeTracker.Client.OneTab
import TimeTracker.Client.AfterSignIn
import TimeTracker.Client.Tabs
import TimeTracker.Client.SealedAtHome
import TimeTracker.Client.Panel
import TimeTracker.Storage.Envelopes
import TimeTracker.Storage.Dispatch
import TimeTracker.Storage.Seam
import TimeTracker.Storage.RangeReads
import TimeTracker.Storage.Hook
import TimeTracker.Storage.Newest
import TimeTracker.Storage.Settles
import TimeTracker.Storage.Saves
import TimeTracker.Storage.Loads
import TimeTracker.Storage.RoundTrip
import TimeTracker.Client.Reissues
import TimeTracker.Storage.Local
import TimeTracker.Storage.LocalStore
import TimeTracker.Storage.Readers
import TimeTracker.Storage.LegacyAlias
import TimeTracker.Storage.Identity
import TimeTracker.Import.Banner
import TimeTracker.Import.Settled
import TimeTracker.Import.Untouched
import TimeTracker.Server.LinkHandler
