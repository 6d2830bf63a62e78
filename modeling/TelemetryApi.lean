import TelemetryApi.Foundations.Validation
import TelemetryApi.Foundations.DatabaseUrl
import TelemetryApi.Config
import TelemetryApi.Json
import TelemetryApi.Dsn
import TelemetryApi.AlembicEnv
import TelemetryApi.Ndjson
import TelemetryApi.Schemas
import TelemetryApi.Auth
import TelemetryApi.Models
import TelemetryApi.Domain
import TelemetryApi.Db
import TelemetryApi.Routes.Ingest
import TelemetryApi.Routes.Outcome
import TelemetryApi.Routes.Records
import TelemetryApi.Routes.ErrorPositions
import TelemetryApi.Routes.Status
import TelemetryApi.Routes.NdjsonBatch
import TelemetryApi.Routes.Persist
import TelemetryApi.Foundations.Tasks
import TelemetryApi.Routes.Lifecycle
import TelemetryApi.Routes.Access
import TelemetryApi.Routes.Formatting
import TelemetryApi.Delivery
import TelemetryApi.Foundations.Paging
import TelemetryApi.Foundations.Grouping
import TelemetryApi.Foundations.Like
import TelemetryApi.Routes.Listing
import TelemetryApi.Routes.Pages
import TelemetryApi.Routes.Search
import TelemetryApi.Routes.GetEvent
import TelemetryApi.Routes.Stored
import TelemetryApi.Foundations.Statements
import TelemetryApi.Foundations.Probe
import TelemetryApi.Routes.Health
import TelemetryApi.Foundations.Routing
import TelemetryApi.Main
import TelemetryApi.Routes.ReadCommitted
import TelemetryApi.Routes.Stats
import TelemetryApi.Foundations.Bins
import TelemetryApi.Routes.Timeline
import TelemetryApi.Routes.Drilldown
import TelemetryApi.Foundations.Runs
import TelemetryApi.Routes.Window
import TelemetryApi.Routes.ListQuery
import TelemetryApi.Routes.InsertParameters
import TelemetryApi.Engine
import TelemetryApi.Foundations.LineTools
import TelemetryApi.Foundations.Numbered
import TelemetryApi.Firewall
import TelemetryApi.Foundations.GrowingPages
import TelemetryApi.Routes.Following
import TelemetryApi.Foundations.LineParts
import TelemetryApi.Routes.Parts
import TelemetryApi.Foundations.Catalog
import TelemetryApi.Migration
import TelemetryApi.Foundations.Processes
import TelemetryApi.MigrateJob
import TelemetryApi.Routes.Rollup
import TelemetryApi.Routes.FacetTotals
import TelemetryApi.Lifespan
import TelemetryApi.FirewallRuns
import TelemetryApi.Foundations.Sessions
import TelemetryApi.Routes.Conversation
import TelemetryApi.CommaLists
import TelemetryApi.Foundations.Rollout
import TelemetryApi.TokenRotation
import TelemetryApi.Routes.Commits
import TelemetryApi.Foundations.Projection
import TelemetryApi.Routes.Metered
import TelemetryApi.Routes.Migrated
