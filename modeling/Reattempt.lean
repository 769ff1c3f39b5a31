import Reattempt.Audience.Delivery
import Reattempt.Backoff.Contention
import Reattempt.Backoff.Generator
import Reattempt.Failure.Report
import Reattempt.Number.Read
import Reattempt.Proofs.Campaign.Announcement
import Reattempt.Proofs.Campaign.Closing
import Reattempt.Proofs.Executor.Cancellation
import Reattempt.Proofs.Rehearsal.Laws
import Reattempt.Rehearsal.Run
import Reattempt.Settings.Document
import Reattempt.Settings.Entries
import Reattempt.Proofs.Backoff.Sequence
import Reattempt.Proofs.Backoff.Linearization
import Reattempt.Proofs.Campaign.Frame
import Reattempt.Proofs.Campaign.Expiry
import Reattempt.Proofs.Campaign.Deadline
import Reattempt.Proofs.Campaign.Stream
import Reattempt.Proofs.Campaign.Bare
import Reattempt.Proofs.Campaign.Delays
import Reattempt.Proofs.Json.Documents
import Reattempt.Proofs.Duration.Millis
import Reattempt.Proofs.Settings.RoundTrip
import Reattempt.Proofs.Audience.FanOut
import Reattempt.Proofs.Campaign.Projection
import Reattempt.Proofs.Campaign.Attendance
import Reattempt.Proofs.Failure.History
import Reattempt.Proofs.Failure.Batching
import Reattempt.Proofs.Audience.Order
import Reattempt.Proofs.Backoff.Spread
import Reattempt.Proofs.Backoff.Tower
import Reattempt.Proofs.Campaign.Crowd
import Reattempt.Proofs.Campaign.Sharing
import Reattempt.Proofs.Duration.Forms
import Reattempt.Proofs.Backoff.Sharing
import Reattempt.Proofs.Campaign.Transparency
import Reattempt.Proofs.Json.Recognition
import Reattempt.Proofs.Failure.RoundTrip
import Reattempt.Proofs.Settings.Acceptance
import Reattempt.Proofs.Backoff.Widths
import Reattempt.Proofs.Failure.Intact
import Reattempt.Proofs.Audience.Isolation
