import GnkAlgo.Trading.ProfitAndLoss
import GnkAlgo.Trading.PositionLimit
import GnkAlgo.Trading.Reconcile
import GnkAlgo.Trading.LiveSteps
import GnkAlgo.Trading.RiskGate
import GnkAlgo.Trading.QuoteBatch
import GnkAlgo.Trading.OrderRuns
import GnkAlgo.Trading.Lifecycle
import GnkAlgo.Trading.PassBatch
import GnkAlgo.Trading.BrokerFills
import GnkAlgo.Trading.CallRuns
import GnkAlgo.Trading.PaperStates
import GnkAlgo.Trading.PaperDesk
import GnkAlgo.Market.Subscriptions
import GnkAlgo.Auth.SessionRuns
import GnkAlgo.Auth.Browser
import GnkAlgo.Trading.Idempotency
import GnkAlgo.Trading.Tenants
import GnkAlgo.Market.Candles
import GnkAlgo.Market.CandleFold
import GnkAlgo.Market.Frames
import GnkAlgo.Market.FrameSafety
import GnkAlgo.Market.CandleVolume
import GnkAlgo.Market.Outages
import GnkAlgo.Market.DhanMaster
import GnkAlgo.Auth.ApiKeys
import GnkAlgo.Auth.Lockout
import GnkAlgo.Auth.Rotation
import GnkAlgo.Brokers.Binding
import GnkAlgo.Auth.EffectOnce
import GnkAlgo.Market.FeedRuns
import GnkAlgo.Strategies.Evaluator
import GnkAlgo.Market.FeedConnection
import GnkAlgo.Strategies.Preview
import GnkAlgo.Strategies.EvaluationSteps
import GnkAlgo.Strategies.History
import GnkAlgo.Strategies.OrderCaps
import GnkAlgo.Strategies.Exposure
import GnkAlgo.Trading.Divergence
import GnkAlgo.Trading.Unsent
import GnkAlgo.Trading.AmbiguousModify
import GnkAlgo.Trading.PassTwice
import GnkAlgo.Auth.RateLimiter
import GnkAlgo.Market.FeedBatches
import GnkAlgo.Market.SymbolLoop
import GnkAlgo.Trading.OpenOrders
import GnkAlgo.Trading.StaleFills
import GnkAlgo.Auth.Owners
import GnkAlgo.Auth.Tickets
import GnkAlgo.Brokers.Reconnect
import GnkAlgo.Market.CanonicalImport
import GnkAlgo.Market.BadPackets
import GnkAlgo.Strategies.WorkerPass
import GnkAlgo.Strategies.Submissions
import GnkAlgo.Market.Stream
import GnkAlgo.Auth.AccountRuns
import GnkAlgo.Trading.ReconcileOnce
import GnkAlgo.Market.DataPlanes
import GnkAlgo.Strategies.WorkerSubscriptions
import GnkAlgo.Audit
import GnkAlgo.Strategies.Halts
import GnkAlgo.Strategies.Signals
