import GroupButler.Config.Mirror
import GroupButler.Config.Trail
import GroupButler.Ingest.Identity
import GroupButler.Memory.Fence
import GroupButler.Sends.Stranded
import GroupButler.Actions.Surfaces
import GroupButler.Replies.Acknowledgement
import GroupButler.Ingest.Attachment
import GroupButler.Ingest.Flush
import GroupButler.Ingest.Pipeline
import GroupButler.Ingest.Counters
import GroupButler.Ingest.Queue
import GroupButler.Memory.Pass
import GroupButler.Memory.Processor
import GroupButler.Memory.Limit
import GroupButler.Owner.Phone
import GroupButler.Owner.Throttle
import GroupButler.Pairing.Chunking
import GroupButler.Foundation.Bytes
import GroupButler.Foundation.Path
import GroupButler.Foundation.Uri
import GroupButler.Foundation.Chunks
import GroupButler.Ingest.HostPath
import GroupButler.Ingest.Keys
import GroupButler.Groups.Routes
import GroupButler.Foundation.IsoDate
import GroupButler.Foundation.Buffer
import GroupButler.Foundation.Keyset
import GroupButler.Messages.TypeAhead
import GroupButler.Messages.Search
import GroupButler.Messages.Paging
import GroupButler.Live.Stream
import GroupButler.Prompt.Budget
import GroupButler.Prompt.Tokens
import GroupButler.Prompt.Assemble
import GroupButler.Prompt.Ceiling
import GroupButler.Prompt.Margin
import GroupButler.Groups.Snapshot
import GroupButler.Groups.Sync
import GroupButler.Groups.Membership
import GroupButler.Foundation.Base64
import GroupButler.Tools.Accepted
import GroupButler.Tools.Groups
import GroupButler.Tools.Confined
import GroupButler.Media.MovieFile
import GroupButler.Media.JpegFile
import GroupButler.Media.Pipeline
import GroupButler.Replies.Gate
import GroupButler.Replies.Generation
import GroupButler.Replies.Retries
import GroupButler.Foundation.Prefixes
import GroupButler.Memory.Exact
import GroupButler.Groups.Accounts
import GroupButler.Foundation.Decimal
import GroupButler.Ingest.Timestamp
import GroupButler.Groups.Outcomes
import GroupButler.Groups.Renames
import GroupButler.Groups.Repeats
import GroupButler.Foundation.Newest
import GroupButler.Replies.History
import GroupButler.Tools.Transcript
import GroupButler.Tools.Sizes
import GroupButler.Ai.Points
import GroupButler.Ai.Links
import GroupButler.Ai.Body
import GroupButler.Ai.Cut
import GroupButler.Foundation.Windows
import GroupButler.Ai.Twice
import GroupButler.Actions.Typing
import GroupButler.Prompt.Longest
import GroupButler.Prompt.Contents
import GroupButler.Foundation.Distinct
import GroupButler.Memory.Ranking
import GroupButler.Tools.Names
import GroupButler.Foundation.Boundary
import GroupButler.Ingest.SearchText
import GroupButler.Foundation.Frames
import GroupButler.Memory.Envelopes
import GroupButler.Tools.Csv
import GroupButler.Foundation.Replace
import GroupButler.Tools.Ooxml
import GroupButler.Tools.Documents
import GroupButler.Replies.Keys
import GroupButler.Foundation.Points
import GroupButler.Tools.Clip
import GroupButler.Foundation.Greedy
import GroupButler.Ingest.Pruning
import GroupButler.Sends.Failures
import GroupButler.Pairing.TerminalQr
import GroupButler.Foundation.Crc
import GroupButler.Foundation.Png
import GroupButler.Pairing.Picture
import GroupButler.Foundation.JsonRead
import GroupButler.Owner.Session
import GroupButler.Owner.Password
import GroupButler.Owner.Client
import GroupButler.Memory.Callback
import GroupButler.Memory.Answers
import GroupButler.Foundation.EventStream
import GroupButler.Live.Wire
import GroupButler.Live.Reconnect
import GroupButler.Foundation.Tally
import GroupButler.Usage.Counters
import GroupButler.Usage.Day
import GroupButler.Usage.Trend
import GroupButler.Foundation.Objects
import GroupButler.Tools.Images
import GroupButler.Replies.Images
import GroupButler.Media.Objects
import GroupButler.Media.Url
import GroupButler.Pairing.Consoles
import GroupButler.Foundation.Form
import GroupButler.Owner.Middleware
import GroupButler.Memory.Gate
