import TradingEngine.Common.Protobuf
import TradingEngine.Lib.Decimal
import TradingEngine.Common.Text
import TradingEngine.Common.DatabaseInterface
import TradingEngine.Lib.Machine
import TradingEngine.Lib.ActorSystem
import TradingEngine.Lib.PriceTime
import TradingEngine.Lib.Directory
import TradingEngine.Lib.Mismatch
import TradingEngine.Lib.Inspector
import TradingEngine.Lib.RoundRobin
import TradingEngine.Lib.Reader
import TradingEngine.Lib.LineProtocol
import TradingEngine.Lib.HttpServer
import TradingEngine.Lib.Program
import TradingEngine.Lib.JsonText
import TradingEngine.Lib.SortedMap
import TradingEngine.Common.HttpRequest
import TradingEngine.Common.HttpStream
import TradingEngine.Common.HttpAnswer
import TradingEngine.Common.HttpExchange
import TradingEngine.Common.UrlEncode
import TradingEngine.Common.Json
import TradingEngine.MatchEngine.Config
import TradingEngine.MatchEngine.Inspect
import TradingEngine.MatchEngine.MatchActor
import TradingEngine.MatchEngine.SymbolIdRouter
import TradingEngine.MatchEngine.GrpcImpl
import TradingEngine.MatchEngine.Cluster
import TradingEngine.MatchEngine.Subscriptions
import TradingEngine.TradePersistence.TradeEntity
import TradingEngine.TradePersistence.TradePersistenceClient
import TradingEngine.TradePersistence.Config
import TradingEngine.Matching.Sweep
import TradingEngine.Matching.Book
import TradingEngine.Matching.Arrivals
import TradingEngine.Matching.Auction
import TradingEngine.Matching.Priority
import TradingEngine.Matching.WellFormed
import TradingEngine.Matching.Trades
import TradingEngine.Matching.Amounts
import TradingEngine.Matching.Conservation
import TradingEngine.Matching.SinglePrice
import TradingEngine.Matching.Mirror
import TradingEngine.Matching.Relabel
import TradingEngine.Matching.Aggressive
import TradingEngine.Matching.Split
import TradingEngine.OrderManager.OrderManager
import TradingEngine.OrderManager.OrderStoreInfluxdb
import TradingEngine.OrderManager.MatchEngineStub
import TradingEngine.OrderManager.Steps
import TradingEngine.OrderManager.PlaceOrder
import TradingEngine.OrderManager.TradeRecords
import TradingEngine.OrderManager.Persistence
import TradingEngine.OrderManager.LastRecord
import TradingEngine.OrderManager.Recording
import TradingEngine.OrderManager.RecordRows
import TradingEngine.OrderManager.Latency
import TradingEngine.Database.Buffer
import TradingEngine.Database.Points
import TradingEngine.Database.Drain
import TradingEngine.Database.Threads
import TradingEngine.Database.Refinement
import TradingEngine.Database.Select
import TradingEngine.Database.Payload
import TradingEngine.Database.Post
import TradingEngine.OrderGenerator.CreateOrders
import TradingEngine.OrderGenerator.InitialPrices
import TradingEngine.RequestGenerator.Generator
import TradingEngine.RequestGenerator.RoundTrip
import TradingEngine.RequestGenerator.Download
import TradingEngine.RequestGenerator.Dispatch
import TradingEngine.RequestGenerator.SendRequest
import TradingEngine.DataVerifier.DataSource
import TradingEngine.DataVerifier.DataVerifier
import TradingEngine.DataVerifier.Turns
import TradingEngine.DataVerifier.SeveralTurns
import TradingEngine.DataVerifier.Termination
import TradingEngine.DataVerifier.BySymbol
import TradingEngine.DataVerifier.QueryResult
import TradingEngine.DataVerifier.DataSourceInfluxdb
import TradingEngine.System.Steps
import TradingEngine.System.Routing
import TradingEngine.System.Switch
import TradingEngine.System.Knowledge
import TradingEngine.System.Isolation
import TradingEngine.System.Projection
import TradingEngine.System.MergeResult
import TradingEngine.System.SingleNode
import TradingEngine.System.Phases
import TradingEngine.System.Exchange
import TradingEngine.System.Accounts
import TradingEngine.System.Path
import TradingEngine.System.Placement
import TradingEngine.System.Instances
import TradingEngine.System.Delivery
import TradingEngine.System.Deployment
import TradingEngine.System.Verification
import TradingEngine.System.Volume
