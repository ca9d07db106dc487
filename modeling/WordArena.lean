import WordArena.Scheduler.Publication
import WordArena.Tournament.Fairness
import WordArena.Tournament.Loading
import WordArena.Application.Submissions
import WordArena.Server.Announcements
import WordArena.Server.Events
import WordArena.Server.Registry
import WordArena.Server.Blame
import WordArena.Service.Reads
import WordArena.Migration.FourPlayerSeats
import WordArena.Engine.Order
import WordArena.Engine.Words
import WordArena.Scheduler.Retry
import WordArena.Jobs.Completion
import WordArena.Tournament.Swiss
import WordArena.Service.Stale
import WordArena.Lexicon.Content
import WordArena.Agent.Streaming
import WordArena.Agent.Usage
import WordArena.Statistics.Totals
import WordArena.Export.Stream
import WordArena.Agent.Chunking
import WordArena.Agent.Endpoints
import WordArena.Web.Liveness
import WordArena.Cli.Forwarding
import WordArena.Cli.Addresses
import WordArena.Builder.Accounting
import WordArena.Agent.WorkspaceScan
import WordArena.Cli.Shutdown
import WordArena.Engine.Generator
import WordArena.Engine.Unbiased
import WordArena.Builder.Curation
import WordArena.Engine.Identity
import WordArena.Engine.Privacy
import WordArena.Lexicon.Normalization
import WordArena.Web.Export
