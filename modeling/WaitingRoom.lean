import WaitingRoom.Backend
import WaitingRoom.Credential
import WaitingRoom.Credential.Jwt
import WaitingRoom.Crypto.Der
import WaitingRoom.Crypto.Pem
import WaitingRoom.Crypto.Rsa
import WaitingRoom.Crypto.Sha256
import WaitingRoom.Desk.Operations
import WaitingRoom.Desk.Procedure
import WaitingRoom.Desk.World
import WaitingRoom.Device
import WaitingRoom.Dialogue
import WaitingRoom.Event
import WaitingRoom.Failure
import WaitingRoom.Hall.Moves
import WaitingRoom.Hall.Session
import WaitingRoom.Hall.Settle
import WaitingRoom.Journal
import WaitingRoom.Json.Decode
import WaitingRoom.Json.Numeral
import WaitingRoom.Json.Render
import WaitingRoom.Json.Token
import WaitingRoom.Json.Value
import WaitingRoom.Listing
import WaitingRoom.Logging.Entry
import WaitingRoom.Logging.Filter
import WaitingRoom.Main
import WaitingRoom.Migration
import WaitingRoom.Mongo.Archive
import WaitingRoom.Mongo.Command
import WaitingRoom.Mongo.Document
import WaitingRoom.Mongo.Script
import WaitingRoom.Mongo.Value
import WaitingRoom.Network
import WaitingRoom.Postgres.Archive
import WaitingRoom.Postgres.ConnectionText
import WaitingRoom.Postgres.Pattern
import WaitingRoom.Postgres.Row
import WaitingRoom.Postgres.Script
import WaitingRoom.Postgres.Statement
import WaitingRoom.Program
import WaitingRoom.Proofs.Backend.Agreement
import WaitingRoom.Proofs.Backend.Archives
import WaitingRoom.Proofs.Backend.Exporting
import WaitingRoom.Proofs.Backend.Keeping
import WaitingRoom.Proofs.Backend.Passing
import WaitingRoom.Proofs.Credential.Forms
import WaitingRoom.Proofs.Credential.Strictness
import WaitingRoom.Proofs.Credential.Tokens
import WaitingRoom.Proofs.Crypto.KeyLines
import WaitingRoom.Proofs.Desk.Accounts
import WaitingRoom.Proofs.Desk.Acts
import WaitingRoom.Proofs.Desk.Adoptions
import WaitingRoom.Proofs.Desk.Batches
import WaitingRoom.Proofs.Desk.Calls
import WaitingRoom.Proofs.Desk.Candor
import WaitingRoom.Proofs.Desk.Checks
import WaitingRoom.Proofs.Desk.Commuting
import WaitingRoom.Proofs.Desk.Courses
import WaitingRoom.Proofs.Desk.Cuts
import WaitingRoom.Proofs.Desk.Deeds
import WaitingRoom.Proofs.Desk.Discretion
import WaitingRoom.Proofs.Desk.Effects
import WaitingRoom.Proofs.Desk.Failures
import WaitingRoom.Proofs.Desk.Handovers
import WaitingRoom.Proofs.Desk.Hanging
import WaitingRoom.Proofs.Desk.Isolation
import WaitingRoom.Proofs.Desk.Lifecycle
import WaitingRoom.Proofs.Desk.Locality
import WaitingRoom.Proofs.Desk.Logs
import WaitingRoom.Proofs.Desk.Occasions
import WaitingRoom.Proofs.Desk.Outcomes
import WaitingRoom.Proofs.Desk.Overlap
import WaitingRoom.Proofs.Desk.Readings
import WaitingRoom.Proofs.Desk.Removals
import WaitingRoom.Proofs.Desk.Replies
import WaitingRoom.Proofs.Desk.Turns
import WaitingRoom.Proofs.Hall.Deliveries
import WaitingRoom.Proofs.Hall.Endings
import WaitingRoom.Proofs.Hall.Follows
import WaitingRoom.Proofs.Hall.Hearing
import WaitingRoom.Proofs.Hall.History
import WaitingRoom.Proofs.Hall.Lines
import WaitingRoom.Proofs.Hall.Ownership
import WaitingRoom.Proofs.Hall.Refinement
import WaitingRoom.Proofs.Hall.Rest
import WaitingRoom.Proofs.Hall.Seats
import WaitingRoom.Proofs.Hall.Staleness
import WaitingRoom.Proofs.Hall.Transitions
import WaitingRoom.Proofs.Hall.Works
import WaitingRoom.Proofs.Json.Attributes
import WaitingRoom.Proofs.Json.Devices
import WaitingRoom.Proofs.Json.Frames
import WaitingRoom.Proofs.Json.Members
import WaitingRoom.Proofs.Json.Rendering
import WaitingRoom.Proofs.Mongo.Holding
import WaitingRoom.Proofs.Mongo.Indexing
import WaitingRoom.Proofs.Mongo.Listing
import WaitingRoom.Proofs.Naming
import WaitingRoom.Proofs.Postgres.Like
import WaitingRoom.Proofs.Postgres.Listing
import WaitingRoom.Proofs.Postgres.Places
import WaitingRoom.Proofs.Postgres.Separation
import WaitingRoom.Proofs.Postgres.Symbols
import WaitingRoom.Proofs.Postgres.Table
import WaitingRoom.Proofs.Registry
import WaitingRoom.Proofs.Settings.Acceptance
import WaitingRoom.Proofs.Settings.Layers
import WaitingRoom.Proofs.Store.Completeness
import WaitingRoom.Proofs.Store.Copying
import WaitingRoom.Proofs.Store.Itinerary
import WaitingRoom.Proofs.Store.Lookup
import WaitingRoom.Proofs.Store.Ordering
import WaitingRoom.Proofs.Store.Overlay
import WaitingRoom.Proofs.Store.Ranking
import WaitingRoom.Proofs.Store.Resumption
import WaitingRoom.Proofs.Store.Search
import WaitingRoom.Proofs.Store.Windows
import WaitingRoom.Proofs.Text.Ascii
import WaitingRoom.Proofs.Text.Bytes
import WaitingRoom.Proofs.Text.Decoding
import WaitingRoom.Proofs.Text.Digits
import WaitingRoom.Proofs.Text.Pieces
import WaitingRoom.Proofs.Text.Sigmas
import WaitingRoom.Proofs.Text.Stripping
import WaitingRoom.Proofs.Time.Calendar
import WaitingRoom.Proofs.Time.Precision
import WaitingRoom.Proofs.Time.Quantities
import WaitingRoom.Proofs.Time.Rounding
import WaitingRoom.Proofs.Time.Stamping
import WaitingRoom.Proofs.Time.Totals
import WaitingRoom.Proofs.Time.Waits
import WaitingRoom.Proofs.Web.Admission
import WaitingRoom.Proofs.Web.Answers
import WaitingRoom.Proofs.Web.Deadline
import WaitingRoom.Proofs.Web.Demands
import WaitingRoom.Registry
import WaitingRoom.Service
import WaitingRoom.Settings
import WaitingRoom.Settings.CommandLine
import WaitingRoom.Settings.Config
import WaitingRoom.Settings.Folder
import WaitingRoom.Settings.Load
import WaitingRoom.Store
import WaitingRoom.Store.Copy
import WaitingRoom.Store.Service
import WaitingRoom.Store.Shelves
import WaitingRoom.Subscriptions
import WaitingRoom.Text.Ascii
import WaitingRoom.Text.Base64
import WaitingRoom.Text.Blank
import WaitingRoom.Text.Decimal
import WaitingRoom.Text.LetterCase
import WaitingRoom.Text.Lowercase
import WaitingRoom.Text.Percent
import WaitingRoom.Text.Quoted
import WaitingRoom.Text.Utf8
import WaitingRoom.Time.Calendar
import WaitingRoom.Time.Instant
import WaitingRoom.Time.Span
import WaitingRoom.Time.Stamp
import WaitingRoom.Web.Api
import WaitingRoom.Web.Client
import WaitingRoom.Web.MediaType
import WaitingRoom.Web.Query
import WaitingRoom.Web.Request
import WaitingRoom.Web.Resource
import WaitingRoom.Web.Response
import WaitingRoom.Web.Upgrade
