import NexusBackend.Alarms.InMemoryRepository
import NexusBackend.Alarms.Models
import NexusBackend.Api.AccountAccess
import NexusBackend.Api.AlarmsList
import NexusBackend.Api.AlarmsQuery
import NexusBackend.Api.AuditRecent
import NexusBackend.Api.BrokerageAnswers
import NexusBackend.Api.CanvasSnapshot
import NexusBackend.Api.LiveOrders
import NexusBackend.Api.MarketStream
import NexusBackend.Api.MetricsRoutes
import NexusBackend.Api.Readiness
import NexusBackend.Api.Router
import NexusBackend.Api.SecuritiesList
import NexusBackend.Api.SecuritiesRoutes
import NexusBackend.Api.TicksRoutes
import NexusBackend.Core.AuthFailures
import NexusBackend.Core.Authentication
import NexusBackend.Core.JwksRefresh
import NexusBackend.Core.JwksRuns
import NexusBackend.Core.KeyFreshness
import NexusBackend.Core.Security
import NexusBackend.Kis.Account
import NexusBackend.Kis.AccountNumber
import NexusBackend.Kis.Decoding
import NexusBackend.Kis.FrameEncoding
import NexusBackend.Kis.Frames
import NexusBackend.Kis.OAuth
import NexusBackend.Kis.Session
import NexusBackend.Kis.Stream
import NexusBackend.Kis.TokenRefresh
import NexusBackend.Library.AsyncLock
import NexusBackend.Library.Binary64
import NexusBackend.Library.BoundedDeque
import NexusBackend.Library.Changes
import NexusBackend.Library.CounterDeltas
import NexusBackend.Library.DateTime
import NexusBackend.Library.ElementTree
import NexusBackend.Library.Exceptions
import NexusBackend.Library.FirstOccurrences
import NexusBackend.Library.FloatArithmetic
import NexusBackend.Library.Grouping
import NexusBackend.Library.Imputation
import NexusBackend.Library.IsoText
import NexusBackend.Library.Json
import NexusBackend.Library.JsonCut
import NexusBackend.Library.JsonDecoded
import NexusBackend.Library.JsonReader
import NexusBackend.Library.JsonRoundTrip
import NexusBackend.Library.JsonText
import NexusBackend.Library.KeyedTable
import NexusBackend.Library.LastEntries
import NexusBackend.Library.LetterCase
import NexusBackend.Library.LikePattern
import NexusBackend.Library.ListHeap
import NexusBackend.Library.Nesting
import NexusBackend.Library.Number
import NexusBackend.Library.NumberText
import NexusBackend.Library.OrderBy
import NexusBackend.Library.Ranking
import NexusBackend.Library.ReflectedWalk
import NexusBackend.Library.RoundRobin
import NexusBackend.Library.Statistics
import NexusBackend.Library.Strptime
import NexusBackend.Library.Tasks
import NexusBackend.Library.Text
import NexusBackend.Library.Transition
import NexusBackend.Library.Upserts
import NexusBackend.Library.UrlEncoding
import NexusBackend.Library.Utf8
import NexusBackend.Library.WeightedMean
import NexusBackend.Market.Models
import NexusBackend.News.CachingProvider
import NexusBackend.News.CompositeProvider
import NexusBackend.News.Feeds
import NexusBackend.News.NewsRuns
import NexusBackend.News.NewsWiring
import NexusBackend.News.SharedLists
import NexusBackend.News.SingleFlight
import NexusBackend.News.StaleFallback
import NexusBackend.Persistence.AuditMetrics
import NexusBackend.Persistence.AuditRow
import NexusBackend.Persistence.AuditView
import NexusBackend.Persistence.Batches
import NexusBackend.Persistence.Connection
import NexusBackend.Persistence.Decode
import NexusBackend.Persistence.MarketReads
import NexusBackend.Persistence.MarketTick
import NexusBackend.Persistence.PoisonTicks
import NexusBackend.Persistence.PriceColumn
import NexusBackend.Persistence.RelationsQuery
import NexusBackend.Persistence.SecuritiesLookup
import NexusBackend.Persistence.SecuritiesQuery
import NexusBackend.Persistence.SecuritiesSearch
import NexusBackend.Persistence.SecuritiesSeed
import NexusBackend.Persistence.SeedRuns
import NexusBackend.Persistence.TickLoop
import NexusBackend.Persistence.TickWire
import NexusBackend.Persistence.Worker
import NexusBackend.Publishers.Availability
import NexusBackend.Publishers.KisPublisher
import NexusBackend.Publishers.KisRuns
import NexusBackend.Publishers.Lifecycle
import NexusBackend.Publishers.MockPublisher
import NexusBackend.Publishers.MockRuns
import NexusBackend.Publishers.RoundRobin
import NexusBackend.Publishers.Supervisor
import NexusBackend.Publishers.TickMessages
import NexusBackend.Publishers.UniverseRuns
import NexusBackend.Publishers.UniverseTickers
import NexusBackend.Publishers.UsBatch
import NexusBackend.Publishers.UsPoller
import NexusBackend.Publishers.UsQuotes
import NexusBackend.Publishers.UsRuns
import NexusBackend.Publishers.UsVolume
import NexusBackend.Schema.Migrate
import NexusBackend.Schema.MigrationOrder
import NexusBackend.Trading.Aggregation
import NexusBackend.Trading.Audit
import NexusBackend.Trading.BreakerWindows
import NexusBackend.Trading.Context
import NexusBackend.Trading.ContextWindows
import NexusBackend.Trading.CoolDownSpacing
import NexusBackend.Trading.Coordinator
import NexusBackend.Trading.Executor
import NexusBackend.Trading.GuardAlgebra
import NexusBackend.Trading.Guardrails
import NexusBackend.Trading.Interleaving
import NexusBackend.Trading.Ledger
import NexusBackend.Trading.LlmClients
import NexusBackend.Trading.MacroAgent
import NexusBackend.Trading.MacroContract
import NexusBackend.Trading.MacroDecoding
import NexusBackend.Trading.Models
import NexusBackend.Trading.Pipeline
import NexusBackend.Trading.Portfolio
import NexusBackend.Trading.QuantAgent
import NexusBackend.Trading.SequentialRuns
import NexusBackend.Trading.SizeLaw
import NexusBackend.Trading.Sizer
import NexusBackend.Trading.Wiring
import NexusBackend.Universe.BuildUniverse
import NexusBackend.Universe.Enrichment
import NexusBackend.Universe.IndexTables
import NexusBackend.Universe.ListingTables
import NexusBackend.Universe.Models
import NexusBackend.Universe.RealUniverse
import NexusBackend.Universe.Retention
import NexusBackend.Universe.SectorMedians
import NexusBackend.Universe.SeedLoading
