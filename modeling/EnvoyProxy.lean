import EnvoyProxy.Lib.Bytes
import EnvoyProxy.Lib.Json
import EnvoyProxy.Lib.JsonWriter
import EnvoyProxy.Lib.JsonReader
import EnvoyProxy.Lib.Fuel
import EnvoyProxy.Lib.Paths
import EnvoyProxy.Lib.Runs
import EnvoyProxy.Lib.Numerals
import EnvoyProxy.Lib.Recency
import EnvoyProxy.Lib.Window
import EnvoyProxy.Lib.Pending
import EnvoyProxy.Lib.Decoder
import EnvoyProxy.Lib.Parse
import EnvoyProxy.Lib.Regex
import EnvoyProxy.Lib.Search
import EnvoyProxy.Lib.Stores
import EnvoyProxy.Dubbo.Hessian
import EnvoyProxy.Dubbo.Render
import EnvoyProxy.Dubbo.Termination
import EnvoyProxy.Dubbo.PlainText
import EnvoyProxy.Dubbo.Expansion
import EnvoyProxy.Dubbo.WellFormed
import EnvoyProxy.Dubbo.Protocol
import EnvoyProxy.Dubbo.Request
import EnvoyProxy.Dubbo.Upstream
import EnvoyProxy.Dubbo.Reader
import EnvoyProxy.Dubbo.Chunking
import EnvoyProxy.Dubbo.Visible
import EnvoyProxy.Dubbo.Response
import EnvoyProxy.Dubbo.Lifecycle
import EnvoyProxy.Dubbo.OneResponse
import EnvoyProxy.Dubbo.Pool
import EnvoyProxy.Dubbo.Framing
import EnvoyProxy.Dubbo.Correlation
import EnvoyProxy.Dubbo.Context
import EnvoyProxy.Dubbo.RequestReader
import EnvoyProxy.Dubbo.RoundTrip
import EnvoyProxy.Dubbo.JsonToHessian
import EnvoyProxy.Dubbo.JsonRoundTrip
import EnvoyProxy.Dubbo.Arguments
import EnvoyProxy.Dubbo.BigInteger
import EnvoyProxy.Dubbo.Converted
import EnvoyProxy.Dubbo.NullPairs
import EnvoyProxy.Dubbo.Generic
import EnvoyProxy.Dubbo.Defaults
import EnvoyProxy.Dubbo.Success
import EnvoyProxy.Dubbo.Bridged
import EnvoyProxy.Http.Headers
import EnvoyProxy.Http.Inline
import EnvoyProxy.Http.Filter
import EnvoyProxy.Http.Iteration
import EnvoyProxy.Http.Underway
import EnvoyProxy.Cache.Lru
import EnvoyProxy.Cache.LruHistory
import EnvoyProxy.Cache.Entry
import EnvoyProxy.Cache.Load
import EnvoyProxy.Cache.Sender
import EnvoyProxy.Cache.Lookup
import EnvoyProxy.Cache.Refill
import EnvoyProxy.Cache.Insertion
import EnvoyProxy.Cache.Key
import EnvoyProxy.Cache.Separation
import EnvoyProxy.Cache.Filter
import EnvoyProxy.Cache.Private
import EnvoyProxy.Cache.Origin
import EnvoyProxy.Cache.Streams
import EnvoyProxy.Waf.Filter
import EnvoyProxy.Waf.Request
import EnvoyProxy.Waf.Response
import EnvoyProxy.Waf.Finish
import EnvoyProxy.Waf.Limits
import EnvoyProxy.IpRestriction.Config
import EnvoyProxy.IpRestriction.Entries
import EnvoyProxy.CircuitBreaker.Impl
import EnvoyProxy.CircuitBreaker.RollingNumber
import EnvoyProxy.CircuitBreaker.Trace
import EnvoyProxy.CircuitBreaker.Filter
import EnvoyProxy.Downgrade.Static
import EnvoyProxy.Downgrade.Auxiliary
import EnvoyProxy.Downgrade.Streams
import EnvoyProxy.Downgrade.Uri
import EnvoyProxy.Redis.AsyncClient
import EnvoyProxy.Redis.Frame
import EnvoyProxy.Redis.Reconnect
import EnvoyProxy.Redis.Commands
import EnvoyProxy.Redis.Budget
import EnvoyProxy.Cache.RedisCache
import EnvoyProxy.DetailedStats.Scopes
import EnvoyProxy.Rider.Wrapper
import EnvoyProxy.Rider.Filter
import EnvoyProxy.Rider.Effects
import EnvoyProxy.Rider.Kept
import EnvoyProxy.Rider.Gating
import EnvoyProxy.Rider.Contexts
import EnvoyProxy.Rider.Coroutines
import EnvoyProxy.Rider.Waiting
import EnvoyProxy.Rider.Quiet
import EnvoyProxy.Rider.Conservation
import EnvoyProxy.Rider.Outcome
import EnvoyProxy.Rider.Turns
import EnvoyProxy.Rider.BodyV2
import EnvoyProxy.Rider.Answered
import EnvoyProxy.Rider.BodyV1
import EnvoyProxy.Rider.Mediation
import EnvoyProxy.Rider.PluginHandle
import EnvoyProxy.Rider.Machines
import EnvoyProxy.HeaderRewrite.Atomic
import EnvoyProxy.HeaderRewrite.Filter
import EnvoyProxy.HeaderRewrite.Rest
import EnvoyProxy.TrafficMark.Color
import EnvoyProxy.TrafficMark.Filter
import EnvoyProxy.MetadataHub.Filter
import EnvoyProxy.AccessLog.Escape
import EnvoyProxy.Http.Routing
import EnvoyProxy.Lib.TokenBucket
import EnvoyProxy.LocalLimit.Filter
import EnvoyProxy.LocalLimit.Bucket
import EnvoyProxy.LocalLimit.Rate
import EnvoyProxy.Cache.LocalCache
import EnvoyProxy.Admin.Handlers
import EnvoyProxy.Admin.Remove
import EnvoyProxy.Http.Matcher
import EnvoyProxy.HeaderRestriction.Filter
import EnvoyProxy.IpRestriction.Filter
import EnvoyProxy.DetailedStats.Streams
import EnvoyProxy.Downgrade.Cached
import EnvoyProxy.Downgrade.Served
import EnvoyProxy.CircuitBreaker.Traffic
