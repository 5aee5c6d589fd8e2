import MultiAgentTrading.Lib.Rounding
import MultiAgentTrading.Lib.Runs
import MultiAgentTrading.Lib.Dict
import MultiAgentTrading.Lib.Recent
import MultiAgentTrading.Lib.ListSet
import MultiAgentTrading.Lib.DecimalContext
import MultiAgentTrading.Lib.RecentFilter
import MultiAgentTrading.Lib.Records
import MultiAgentTrading.Core.Models
import MultiAgentTrading.Core.Settings
import MultiAgentTrading.Risk.DrawdownMonitor
import MultiAgentTrading.Risk.PositionSizer
import MultiAgentTrading.Risk.Agent
import MultiAgentTrading.Execution.PaperBroker
import MultiAgentTrading.Execution.BrokerTasks
import MultiAgentTrading.Execution.BrokerRuns
import MultiAgentTrading.Core.Market
import MultiAgentTrading.TechnicalAnalysis.CandleBuffer
import MultiAgentTrading.TechnicalAnalysis.Indicators
import MultiAgentTrading.TechnicalAnalysis.SignalGenerator
import MultiAgentTrading.Decision.Agent
import MultiAgentTrading.TechnicalAnalysis.AtrStop
import MultiAgentTrading.TechnicalAnalysis.MlSignalGenerator
import MultiAgentTrading.TechnicalAnalysis.Agent
import MultiAgentTrading.MarketData.Agent
import MultiAgentTrading.Pipeline.System
import MultiAgentTrading.Pipeline.Freshness
import MultiAgentTrading.Backtest.Engine
import MultiAgentTrading.Backtest.FeeLaw
import MultiAgentTrading.Trading.System
import MultiAgentTrading.Trading.Books
import MultiAgentTrading.Trading.Refinement
import MultiAgentTrading.Trading.CloseSafety
import MultiAgentTrading.Trading.LedgerAgreement
import MultiAgentTrading.Mt5.Bridge
import MultiAgentTrading.Mt5.OrderOutcome
import MultiAgentTrading.Mt5.LotRules
import MultiAgentTrading.Control.Halt
import MultiAgentTrading.Risk.SizeBounds
import MultiAgentTrading.Risk.LimitBreach
import MultiAgentTrading.Backtest.NoLookahead
import MultiAgentTrading.Mt5.LiveLoss
import MultiAgentTrading.Trading.RunLoop
import MultiAgentTrading.Trading.StopMonitor
import MultiAgentTrading.Lib.Causal
import MultiAgentTrading.Lib.Scaling
import MultiAgentTrading.TechnicalAnalysis.FeatureEngineer
import MultiAgentTrading.TechnicalAnalysis.LabelGenerator
import MultiAgentTrading.TechnicalAnalysis.BufferHistory
import MultiAgentTrading.TechnicalAnalysis.RejectedCandles
import MultiAgentTrading.TechnicalAnalysis.ServingFeatures
import MultiAgentTrading.TechnicalAnalysis.PriceUnit
import MultiAgentTrading.TechnicalAnalysis.FeatureUnits
import MultiAgentTrading.TechnicalAnalysis.SignalUnits
import MultiAgentTrading.TechnicalAnalysis.FallbackAgreement
import MultiAgentTrading.TechnicalAnalysis.FlatMarket
import MultiAgentTrading.TechnicalAnalysis.RsiAgreement
import MultiAgentTrading.Backtest.WalkForward
import MultiAgentTrading.Execution.Persistence
import MultiAgentTrading.Lib.Decimal
import MultiAgentTrading.Lib.Json
import MultiAgentTrading.Lib.Scan
import MultiAgentTrading.Lib.Writes
import MultiAgentTrading.Lib.TextFiles
import MultiAgentTrading.Execution.PortfolioStore
import MultiAgentTrading.Execution.DecimalBooks
import MultiAgentTrading.Execution.Restart
import MultiAgentTrading.Risk.DailyLoss
import MultiAgentTrading.Mt5.Correlation
import MultiAgentTrading.MarketData.Feed
import MultiAgentTrading.MarketData.ExactlyOnce
import MultiAgentTrading.MarketData.FinalValues
import MultiAgentTrading.MarketData.Reprocessing
import MultiAgentTrading.MarketData.FailedPublication
import MultiAgentTrading.MarketData.NewestCandle
import MultiAgentTrading.Decision.StaleSignals
import MultiAgentTrading.Backtest.Fills
import MultiAgentTrading.Backtest.Accounting
import MultiAgentTrading.Backtest.TradedPrices
import MultiAgentTrading.Risk.Redelivery
import MultiAgentTrading.Execution.RejectedOrders
import MultiAgentTrading.Execution.OrderReplay
import MultiAgentTrading.Execution.FillBounds
import MultiAgentTrading.Execution.OrderArithmetic
import MultiAgentTrading.Execution.Solvency
import MultiAgentTrading.Risk.FailureOwners
import MultiAgentTrading.Risk.Unpublished
import MultiAgentTrading.TechnicalAnalysis.ModelTrainer
import MultiAgentTrading.TechnicalAnalysis.ModelRegistry
import MultiAgentTrading.TechnicalAnalysis.ModelPairs
import MultiAgentTrading.TechnicalAnalysis.SaveCrash
import MultiAgentTrading.Backtest.MlEval
import MultiAgentTrading.Mt5.AdvisorReader
import MultiAgentTrading.Lib.Stretch
import MultiAgentTrading.Backtest.Metrics
import MultiAgentTrading.Mt5.ErrorReport
import MultiAgentTrading.Control.Lifecycle
import MultiAgentTrading.Lib.Calendar
import MultiAgentTrading.Backtest.MonthlyReturns
import MultiAgentTrading.Execution.AuditTrail
import MultiAgentTrading.Execution.AuditedFills
import MultiAgentTrading.Execution.DailyPnl
import MultiAgentTrading.Monitoring.Agent
import MultiAgentTrading.Monitoring.Watchdog
import MultiAgentTrading.Monitoring.Cooldown
import MultiAgentTrading.Monitoring.AlertTraffic
import MultiAgentTrading.Monitoring.Deduplication
import MultiAgentTrading.Backtest.Replay
import MultiAgentTrading.Backtest.ReplayBooks
import MultiAgentTrading.Backtest.ReplayClock
import MultiAgentTrading.Core.Channels
import MultiAgentTrading.Api.Stream
import MultiAgentTrading.Lib.JsonRoundTrip
import MultiAgentTrading.Lib.FixedPoint
import MultiAgentTrading.Mt5.Reply
import MultiAgentTrading.Mt5.Terminal
import MultiAgentTrading.Mt5.OrderRoundTrip
import MultiAgentTrading.MarketData.CandleStore
import MultiAgentTrading.Lib.CompactJson
import MultiAgentTrading.Mt5.Heartbeat
import MultiAgentTrading.Control.Supervisor
import MultiAgentTrading.Api.Portfolio
import MultiAgentTrading.Mt5.ServedState
