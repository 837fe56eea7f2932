import PvrBackend.Engine.Requests
import PvrBackend.Engine.Worker
import PvrBackend.Proofs.Calendar.Dates
import PvrBackend.Proofs.Calendar.Zones
import PvrBackend.Proofs.Calendar.Days
import PvrBackend.Proofs.Calendar.Texts
import PvrBackend.Proofs.Guide.Chunks
import PvrBackend.Proofs.Guide.Filling
import PvrBackend.Proofs.Guide.Progress
import PvrBackend.Proofs.Guide.Requests
import PvrBackend.Proofs.Session.Exchanges
import PvrBackend.Proofs.Session.Operations
import PvrBackend.Session.PairFile
import PvrBackend.Settings.Reader
import PvrBackend.Proofs.Guide.Mirror
import PvrBackend.Proofs.Guide.Following
import PvrBackend.Proofs.Session.Pairings
import PvrBackend.Proofs.Decimal.Rounding
import PvrBackend.Proofs.Decimal.Shortest
import PvrBackend.Proofs.Session.Recovery
import PvrBackend.Proofs.Json.Numbers
import PvrBackend.Proofs.Json.Values
import PvrBackend.Proofs.Session.Records
import PvrBackend.Proofs.Session.Devices
import PvrBackend.Proofs.Session.Outcomes
import PvrBackend.Proofs.Session.Calls
import PvrBackend.Proofs.Recording.Streams
import PvrBackend.Proofs.Recording.Refreshes
import PvrBackend.Proofs.Engine.Courses
import PvrBackend.Proofs.Engine.Contacts
import PvrBackend.Proofs.Engine.PinGate
import PvrBackend.Proofs.Guide.Overrides
import PvrBackend.Proofs.Engine.Frames
import PvrBackend.Proofs.Recording.Retries
import PvrBackend.Proofs.Guide.Readings
import PvrBackend.Proofs.Session.Restarts
import PvrBackend.Proofs.Engine.Rests
import PvrBackend.Proofs.Engine.Routines
import PvrBackend.Proofs.Engine.Scenes
import PvrBackend.Proofs.Engine.Visits
import PvrBackend.Proofs.Engine.Screenings
import PvrBackend.Proofs.Engine.Shutdown
import PvrBackend.Proofs.Engine.Pacing
import PvrBackend.Proofs.Engine.Rates
import PvrBackend.Proofs.Calendar.Minutes
import PvrBackend.Proofs.Engine.Refusals
import PvrBackend.Proofs.Guide.Lookups
import PvrBackend.Proofs.Guide.Tiling
import PvrBackend.Proofs.Guide.Merges
import PvrBackend.Proofs.Guide.Releases
import PvrBackend.Proofs.Engine.Slots
import PvrBackend.Proofs.Engine.Watches
import PvrBackend.Proofs.Engine.Logins
import PvrBackend.Proofs.Text.Forms
import PvrBackend.Proofs.Settings.Saving
import PvrBackend.Proofs.Recording.Listings
import PvrBackend.Proofs.Lineup.Numbering
import PvrBackend.Proofs.Guide.Sharing
import PvrBackend.Proofs.Guide.Cells
import PvrBackend.Proofs.Guide.Snapshots
import PvrBackend.Proofs.Recording.Timers
import PvrBackend.Proofs.Session.Adoptions
import PvrBackend.Proofs.Lineup.Publications
import PvrBackend.Proofs.Text.Literals
import PvrBackend.Proofs.Session.Tokens
import PvrBackend.Proofs.Engine.Senders
import PvrBackend.Proofs.Guide.Entries
import PvrBackend.Proofs.Guide.Links
