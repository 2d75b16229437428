import FederatedSearch.Main
import FederatedSearch.Proofs.Act.Mirrors
import FederatedSearch.Proofs.Act.Outcome
import FederatedSearch.Proofs.Cache.Catalog
import FederatedSearch.Proofs.Cache.KeySets
import FederatedSearch.Proofs.Cache.SegmentMap
import FederatedSearch.Proofs.Cache.Transparency
import FederatedSearch.Proofs.Collector.Collapsed
import FederatedSearch.Proofs.Collector.Collapsing
import FederatedSearch.Proofs.Collector.Compose
import FederatedSearch.Proofs.Collector.Faceted
import FederatedSearch.Proofs.Collector.Facets
import FederatedSearch.Proofs.Collector.FirstDocs
import FederatedSearch.Proofs.Collector.JoinKeys
import FederatedSearch.Proofs.Collector.Modest
import FederatedSearch.Proofs.Collector.Nest
import FederatedSearch.Proofs.Collector.Outcome
import FederatedSearch.Proofs.Collector.Pages
import FederatedSearch.Proofs.Collector.Quiet
import FederatedSearch.Proofs.Collector.Relevant
import FederatedSearch.Proofs.Collector.Scheduled
import FederatedSearch.Proofs.Collector.Sorted
import FederatedSearch.Proofs.Collector.Tables
import FederatedSearch.Proofs.Engine.Alike
import FederatedSearch.Proofs.Engine.Answer
import FederatedSearch.Proofs.Engine.Caches
import FederatedSearch.Proofs.Engine.Constraints
import FederatedSearch.Proofs.Engine.Decorations
import FederatedSearch.Proofs.Engine.Extends
import FederatedSearch.Proofs.Engine.Grouping
import FederatedSearch.Proofs.Engine.HandedOn
import FederatedSearch.Proofs.Engine.MainSearch
import FederatedSearch.Proofs.Engine.Numbers
import FederatedSearch.Proofs.Engine.Page
import FederatedSearch.Proofs.Engine.Plan
import FederatedSearch.Proofs.Engine.SameTables
import FederatedSearch.Proofs.Engine.Tiles
import FederatedSearch.Proofs.Engine.UnknownCores
import FederatedSearch.Proofs.Engine.Unseen
import FederatedSearch.Proofs.Hit.BestPerKey
import FederatedSearch.Proofs.Hit.Contended
import FederatedSearch.Proofs.Hit.Contest
import FederatedSearch.Proofs.Hit.Failed
import FederatedSearch.Proofs.Hit.Packed
import FederatedSearch.Proofs.Hit.Shared
import FederatedSearch.Proofs.Hit.TopHits
import FederatedSearch.Proofs.Index.Changes
import FederatedSearch.Proofs.Index.Merging
import FederatedSearch.Proofs.Index.Search
import FederatedSearch.Proofs.Index.Snapshot
import FederatedSearch.Proofs.Index.Visits
import FederatedSearch.Proofs.Json.Expressible
import FederatedSearch.Proofs.Keys.Algebra
import FederatedSearch.Proofs.Keys.Contents
import FederatedSearch.Proofs.Keys.KeyTable
import FederatedSearch.Proofs.Keys.Made
import FederatedSearch.Proofs.Keys.Membership
import FederatedSearch.Proofs.Keys.Storage
import FederatedSearch.Proofs.Keys.Words
import FederatedSearch.Proofs.NameMap
import FederatedSearch.Proofs.Number.Order
import FederatedSearch.Proofs.Order.Best
import FederatedSearch.Proofs.Process.Basic
import FederatedSearch.Proofs.Process.Ensures
import FederatedSearch.Proofs.Process.Failures
import FederatedSearch.Proofs.Process.Splits
import FederatedSearch.Proofs.Query.Documents
import FederatedSearch.Proofs.Query.Equivalent
import FederatedSearch.Proofs.Query.Restrict
import FederatedSearch.Proofs.Query.Same
import FederatedSearch.Proofs.Query.Satisfies
import FederatedSearch.Proofs.Relation.Documents
import FederatedSearch.Proofs.Relation.Reading
import FederatedSearch.Proofs.Relation.Restricted
import FederatedSearch.Proofs.Relation.Unrestricted
import FederatedSearch.Proofs.Request.Decorates
import FederatedSearch.Proofs.Request.Documents
import FederatedSearch.Proofs.Request.Names
import FederatedSearch.Proofs.Score.RankTable
import FederatedSearch.Proofs.Search.Alone
import FederatedSearch.Proofs.Search.Arrivals
import FederatedSearch.Proofs.Search.Beside
import FederatedSearch.Proofs.Search.Documents
import FederatedSearch.Proofs.Search.Ensured
import FederatedSearch.Proofs.Search.Failures
import FederatedSearch.Proofs.Search.Interleaving
import FederatedSearch.Proofs.Search.Offers
import FederatedSearch.Proofs.Search.Partition
import FederatedSearch.Proofs.Search.Reading
import FederatedSearch.Proofs.Search.Turns
import FederatedSearch.Proofs.Session
import FederatedSearch.Proofs.Sort.Keys
import FederatedSearch.Proofs.Sort.Order
import FederatedSearch.Proofs.Sort.Precedes
