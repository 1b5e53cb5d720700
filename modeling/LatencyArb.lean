import LatencyArb.Engine
import LatencyArb.OrderPath
import LatencyArb.LiveRuns
import LatencyArb.Staleness
import LatencyArb.FreshQuote
import LatencyArb.Backtest.Replay
import LatencyArb.Backtest.Accounting
import LatencyArb.CTrader.Executor
import LatencyArb.CTrader.Results
import LatencyArb.CTrader.Instrument
import LatencyArb.CTrader.Retry
import LatencyArb.Library.Search
import LatencyArb.Oanda.Executor
import LatencyArb.Oanda.Mailbox
import LatencyArb.FixSession
import LatencyArb.Oanda.Delivery
import LatencyArb.FixNumbers
import LatencyArb.OrderIds
import LatencyArb.Fix.Message
import LatencyArb.Library.Splitter
import LatencyArb.Fix.Inbound
import LatencyArb.Fix.Residue
import LatencyArb.Fix.Executor
import LatencyArb.Fix.Outbound
import LatencyArb.Fix.Receiving
import LatencyArb.Fix.Isolation
import LatencyArb.CTrader.Orders
import LatencyArb.Direction
import LatencyArb.Fix.OrderBook
import LatencyArb.Fix.Accounts
import LatencyArb.Fix.Framing
import LatencyArb.Fix.Gaps
import LatencyArb.Fix.Outcomes
import LatencyArb.Fix.RoundTrip
import LatencyArb.Library.Strtod
import LatencyArb.Wire.Codec
import LatencyArb.Wire.SignalText
import LatencyArb.Wire.Grammar
import LatencyArb.Wire.Truncation
import LatencyArb.LeadLag.Executor
import LatencyArb.LeadLag.Repost
import LatencyArb.LeadLag.Workers
import LatencyArb.LeadLag.PositionCap
import LatencyArb.Library.Drawdown
import LatencyArb.Backtest.Books
import LatencyArb.Backtest.Merge
import LatencyArb.Backtest.InstantLoss
import LatencyArb.Backtest.Mirror
import LatencyArb.Strategy.Cooldown
import LatencyArb.Strategy.DailyLoss
import LatencyArb.SlippageGate
import LatencyArb.Routes
import LatencyArb.Library.ReceiveBuffer
import LatencyArb.Wire.QuoteFrame
import LatencyArb.Subscribers
import LatencyArb.Wire.QuoteRoundTrip
import LatencyArb.ArrivalOrder
import LatencyArb.SessionWeights
import LatencyArb.PricelessTicks
import LatencyArb.RingSteps
import LatencyArb.RingOverflow
import LatencyArb.LeadLag.Momentum
import LatencyArb.Fix.WriteOrder
import LatencyArb.Fix.ResultOnce
import LatencyArb.Fix.Heartbeat
import LatencyArb.CTrader.Mailbox
import LatencyArb.LeadLag.Drain
import LatencyArb.FeedSessions
import LatencyArb.Library.Backoff
import LatencyArb.FeedBackoff
import LatencyArb.LeadLag.BinanceClient
import LatencyArb.OrderQty
import LatencyArb.Backtest.EntryQuotes
import LatencyArb.Backtest.Quantity
import LatencyArb.Backtest.Holding
import LatencyArb.Fix.BufferBound
import LatencyArb.Library.GeneralFormat
import LatencyArb.Fix.Quantity
import LatencyArb.Backtest.LifeCycle
import LatencyArb.Backtest.SlippageCap
import LatencyArb.Library.Stod
import LatencyArb.Backtest.CsvConvert
import LatencyArb.Backtest.LagShift
import LatencyArb.Backtest.LineEndings
import LatencyArb.Library.OrderStatistics
import LatencyArb.Telemetry.BenchStats
import LatencyArb.LeadLag.OrderForm
import LatencyArb.Telemetry.MmapLog
import LatencyArb.Library.Bisection
import LatencyArb.Backtest.TickReader
import LatencyArb.Library.EarlyReturn
import LatencyArb.Library.BoundedCopy
import LatencyArb.Wire.Scanner
import LatencyArb.Wire.ScannerText
import LatencyArb.Library.Mailbox
import LatencyArb.Trader.Agreement
import LatencyArb.Trader.Orders
import LatencyArb.Trader.Prices
import LatencyArb.ZmqPub
import LatencyArb.CTrader.Frames
import LatencyArb.LeadLag.AsyncLogger
import LatencyArb.SignalPath
import LatencyArb.Telemetry.BenchMark
import LatencyArb.Backtest.CsvRows
import LatencyArb.Backtest.Download
import LatencyArb.Backtest.GenData
import LatencyArb.Library.Json
import LatencyArb.Oanda.OrderBody
import LatencyArb.Backtest.Causality
import LatencyArb.Telemetry.Shutdown
import LatencyArb.Fix.PeerView
import LatencyArb.Fix.ClientStream
