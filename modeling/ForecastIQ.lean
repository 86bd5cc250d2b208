import ForecastIQ.Analysis.Aggregate
import ForecastIQ.Analysis.Batch
import ForecastIQ.Analysis.Buckets
import ForecastIQ.Analysis.CalendarDays
import ForecastIQ.Analysis.Comparison
import ForecastIQ.Analysis.Composite
import ForecastIQ.Analysis.Coverage
import ForecastIQ.Analysis.DayWindow
import ForecastIQ.Analysis.DryPeriod
import ForecastIQ.Analysis.ErrorMetrics
import ForecastIQ.Analysis.Eval
import ForecastIQ.Analysis.Intervals
import ForecastIQ.Analysis.LatePairs
import ForecastIQ.Analysis.Match
import ForecastIQ.Analysis.MatchLoop
import ForecastIQ.Analysis.MetricRows
import ForecastIQ.Analysis.Occurrence
import ForecastIQ.Analysis.OrderRankings
import ForecastIQ.Analysis.PairChains
import ForecastIQ.Analysis.Publication
import ForecastIQ.Analysis.Rank
import ForecastIQ.Analysis.RankMonotone
import ForecastIQ.Analysis.RankPermutation
import ForecastIQ.Analysis.Recompute
import ForecastIQ.Analysis.Reliability
import ForecastIQ.Analysis.Rematch
import ForecastIQ.Analysis.SuspectRows
import ForecastIQ.Analysis.TiedRanks
import ForecastIQ.Analysis.Trends
import ForecastIQ.Analysis.UnrankedVariables
import ForecastIQ.Api.Cache
import ForecastIQ.Api.CacheKey
import ForecastIQ.Api.CacheRecency
import ForecastIQ.Api.Gateway
import ForecastIQ.Api.Listings
import ForecastIQ.Api.Mediation
import ForecastIQ.Api.Problem
import ForecastIQ.Api.ResponseCache
import ForecastIQ.Api.Responses
import ForecastIQ.Api.Staleness
import ForecastIQ.Catalog.Circuit
import ForecastIQ.Catalog.CircuitConcurrent
import ForecastIQ.Catalog.CircuitService
import ForecastIQ.Catalog.Configuration
import ForecastIQ.Catalog.Locations
import ForecastIQ.Catalog.LocationsConcurrent
import ForecastIQ.Collection.Balance
import ForecastIQ.Collection.BudgetRuns
import ForecastIQ.Collection.Chains
import ForecastIQ.Collection.CircuitRuns
import ForecastIQ.Collection.Collect
import ForecastIQ.Collection.CollectConcurrent
import ForecastIQ.Collection.Decompose
import ForecastIQ.Collection.Historical
import ForecastIQ.Collection.Observe
import ForecastIQ.Collection.ObserveConcurrent
import ForecastIQ.Collection.ObserveExact
import ForecastIQ.Collection.ObserveInvariant
import ForecastIQ.Collection.OpenMeteo
import ForecastIQ.Collection.OpenWeather
import ForecastIQ.Collection.ProviderHTTP
import ForecastIQ.Collection.Replay
import ForecastIQ.Collection.RequestBudget
import ForecastIQ.Collection.Snapshot
import ForecastIQ.Foundations.Binary64
import ForecastIQ.Foundations.Calendar
import ForecastIQ.Foundations.Chain
import ForecastIQ.Foundations.CivilTime
import ForecastIQ.Foundations.Csv
import ForecastIQ.Foundations.FormEncoding
import ForecastIQ.Foundations.Grouping
import ForecastIQ.Foundations.HandlerChain
import ForecastIQ.Foundations.Instant
import ForecastIQ.Foundations.Keyset
import ForecastIQ.Foundations.Paging
import ForecastIQ.Foundations.Processes
import ForecastIQ.Foundations.Recency
import ForecastIQ.Foundations.Register
import ForecastIQ.Foundations.Replacement
import ForecastIQ.Foundations.Ruler
import ForecastIQ.Foundations.Runs
import ForecastIQ.Foundations.ScriptText
import ForecastIQ.Foundations.Supersession
import ForecastIQ.Foundations.Table
import ForecastIQ.Foundations.TieGroups
import ForecastIQ.Foundations.TieTiers
import ForecastIQ.Foundations.TokenBucket
import ForecastIQ.Foundations.UUID
import ForecastIQ.Foundations.UnitOfWork
import ForecastIQ.Foundations.UrlOrigin
import ForecastIQ.Foundations.WeightedMean
import ForecastIQ.Foundations.WeightedMoments
import ForecastIQ.Identity.Accounts
import ForecastIQ.Identity.AdminSurface
import ForecastIQ.Identity.ApiKeys
import ForecastIQ.Identity.ExportDocument
import ForecastIQ.Identity.ExportJobs
import ForecastIQ.Identity.Jwks
import ForecastIQ.Identity.JwksConcurrent
import ForecastIQ.Identity.Users
import ForecastIQ.Platform.Pages
import ForecastIQ.Platform.RateLimit
import ForecastIQ.Platform.Sanitize
import ForecastIQ.Scheduler.Slots
import ForecastIQ.Scheduler.Workers
import ForecastIQ.Web.CsvExport
import ForecastIQ.Web.ReturnPath
