import BoingObserver.Js.Text
import BoingObserver.Js.Numeral
import BoingObserver.Js.Value
import BoingObserver.Js.Coerce
import BoingObserver.Oracle
import BoingObserver.Contract.Interfaces
import BoingObserver.Contract.Word
import BoingObserver.Contract.Encode
import BoingObserver.Contract.Decode
import BoingObserver.Contract.RoundTrip
import BoingObserver.Contract.Encodings
import BoingObserver.Contract.Format
import BoingObserver.Contract.Receipt
import BoingObserver.Contract.Describe
import BoingObserver.Contract.NonInterference
import BoingObserver.Contract.Amounts
import BoingObserver.Rpc.Hex
import BoingObserver.Payload.Catalog
import BoingObserver.Payload.Kind
import BoingObserver.Deploy.Address
import BoingObserver.Deploy.Lookup
import BoingObserver.Deploy.Attribution
import BoingObserver.Published.Bytes
import BoingObserver.Published.Doc
import BoingObserver.Published.Registry
import BoingObserver.Published.Resolve
import BoingObserver.NativeUnit.Config
import BoingObserver.NativeUnit.Amount
import BoingObserver.Rpc.Block
import BoingObserver.Economics.Blocks
import BoingObserver.NativeUnit.Live
import BoingObserver.Overlap
import BoingObserver.View.Loads
import BoingObserver.Account.History
import BoingObserver.Account.Window
import BoingObserver.Js.Map
import BoingObserver.FixedWindow
import BoingObserver.RateLimit.Limiter
import BoingObserver.RateLimit.Law
import BoingObserver.PromiseCache
import BoingObserver.Cache.Rpc
import BoingObserver.Cache.Names
import BoingObserver.Http
import BoingObserver.Rpc.Client
import BoingObserver.Proxy.Policy
import BoingObserver.Proxy.Route
import BoingObserver.Blob.Download
import BoingObserver.Bytecode.Disassemble
import BoingObserver.Bytecode.Selectors
import BoingObserver.Published.Blob
import BoingObserver.NativeUnit.Format
import BoingObserver.Payload.Summary
import BoingObserver.Deploy.Receipt
import BoingObserver.Account.Roles
import BoingObserver.Account.Scan
import BoingObserver.Economics.Conservation
import BoingObserver.Rpc.Restore
import BoingObserver.WorkerPool
import BoingObserver.Economics.Recent
import BoingObserver.Payload.Tags
import BoingObserver.Contract.Events
import BoingObserver.Contract.Fees
import BoingObserver.Contract.ReEncode
import BoingObserver.Contract.Routers
import BoingObserver.Contract.PoolVersions
import BoingObserver.Supply.MintFirst
import BoingObserver.Supply.Batch
import BoingObserver.RunningBest
import BoingObserver.Js.Double
import BoingObserver.Rpc.Normalize
import BoingObserver.Rpc.MapPool
import BoingObserver.Deploy.Heights
import BoingObserver.Contract.Match
import BoingObserver.Contract.Identify
import BoingObserver.Published.Record
import BoingObserver.Payload.ReEncode
import BoingObserver.Account.ReEncode
import BoingObserver.Supply.Resolve
import BoingObserver.Nft.Calldata
import BoingObserver.Nft.Discover
import BoingObserver.Nft.Complete
import BoingObserver.NativeUnit.Short
import BoingObserver.Account.Summaries
import BoingObserver.Js.Decimal
import BoingObserver.Js.Fixed
import BoingObserver.Js.ToNumber
import BoingObserver.Contract.TokenAmount
import BoingObserver.NativeUnit.Exact
import BoingObserver.NativeUnit.Compact
import BoingObserver.NativeUnit.Provenance
import BoingObserver.Charts.Axis
import BoingObserver.Published.Words
import BoingObserver.Published.Selectors
import BoingObserver.Nft.MintBatch
import BoingObserver.Nft.Agree
import BoingObserver.Links.Registry
import BoingObserver.Links.Companions
import BoingObserver.Links.Exact
import BoingObserver.Context.TokenMetadata
import BoingObserver.Nft.TokenIdWord
import BoingObserver.RateLimit.Eviction
import BoingObserver.Proxy.Failover
import BoingObserver.BoundedBody
import BoingObserver.Runs
import BoingObserver.Names.Label
import BoingObserver.Economics.Batch
import BoingObserver.Media.Url
import BoingObserver.Media.Resolve
import BoingObserver.Sightings
import BoingObserver.TokenIndex.Build
import BoingObserver.TokenIndex.Exact
import BoingObserver.Insight.Groups
import BoingObserver.Wallet.Web
import BoingObserver.Wallet.Popup
import BoingObserver.Wallet.Provider
import BoingObserver.Utf8
import BoingObserver.Base64
import BoingObserver.UrlEncoded
import BoingObserver.Wallet.Redirect
import BoingObserver.Latest
import BoingObserver.View.Network
import BoingObserver.AtomicFile
import BoingObserver.TokenIndex.Disk
import BoingObserver.Edge.Csp
import BoingObserver.Edge.Middleware
import BoingObserver.Handler
import BoingObserver.Rpc.Call
import BoingObserver.Rpc.Proxied
import BoingObserver.SharedLoads
import BoingObserver.Context.Query
import BoingObserver.View.Descriptions
import BoingObserver.Rpc.Rejection
import BoingObserver.Qa.Reviewer
import BoingObserver.Wallet.Express
import BoingObserver.Qa.Vote
import BoingObserver.Qa.Session
import BoingObserver.View.Interval
import BoingObserver.Tasks
import BoingObserver.Contract.Resolve
import BoingObserver.Answered
import BoingObserver.Context.Directory
import BoingObserver.Context.Server
import BoingObserver.Context.Answer
import BoingObserver.Context.Served
