import MuStrategy.Backtest.EntryBarStop
import MuStrategy.Backtest.NetEquity
import MuStrategy.Canonical
import MuStrategy.DemoTrading.OrderUniqueness
import MuStrategy.Entry.FillAgreement
import MuStrategy.Execution.CancelSlot
import MuStrategy.Execution.IntentFactory
import MuStrategy.Execution.IntentCodec
import MuStrategy.Execution.Transaction
import MuStrategy.Lib.Files
import MuStrategy.Lib.IntText
import MuStrategy.Lib.System
import MuStrategy.Lib.Table
import MuStrategy.ManualPositions.LostUpdate
import MuStrategy.Notifications.MailSafety
import MuStrategy.Notifications.ObservationFile
import MuStrategy.Notifications.NoStaleMail
import MuStrategy.Publication.Agreement
import MuStrategy.Publication.Interruption
import MuStrategy.TrustedData.Candles
import MuStrategy.Notifications.ExactlyOnce
import MuStrategy.Strategy.CausalContext
import MuStrategy.Backtest.StopLife
import MuStrategy.LiveExit
import MuStrategy.ManualPositions.CrashSafety
import MuStrategy.MarketData.OkxHistory
import MuStrategy.ManualPositions.StageProjection
import MuStrategy.TrustedData.Aggregation
import MuStrategy.TrustedData.WindowedHealth
import MuStrategy.ManualPositions.ReviewStability
import MuStrategy.Experiments.CandidateRuns
import MuStrategy.Experiments.StressGrid
import MuStrategy.Backtest.Solvency
import MuStrategy.Backtest.FeeOrder
import MuStrategy.Notifications.LogAppends
import MuStrategy.Notifications.CursorReading
import MuStrategy.Notifications.CycleCodec
import MuStrategy.Strategy.IndicatorLoops
import MuStrategy.Lib.DotStuffing
import MuStrategy.Notifications.SmtpTransport
import MuStrategy.Experiments.SlippageOverlay
import MuStrategy.Strategy.WindowAgreement
import MuStrategy.Experiments.ReleaseExperiment
import MuStrategy.Lib.JsonIndent
import MuStrategy.Lib.DoubleRounding
import MuStrategy.Lib.FixedPointText
import MuStrategy.Lib.TopSums
import MuStrategy.Research.WinCounts
import MuStrategy.Research.Robustness
import MuStrategy.Research.CandidateConclusions
import MuStrategy.Research.ConclusionText
import MuStrategy.Experiments.WindowSummaries
import MuStrategy.Experiments.PublishedMetrics
import MuStrategy.Experiments.LadderConclusions
import MuStrategy.Lib.Retention
import MuStrategy.Lib.JsonDict
import MuStrategy.Service.HealthRecords
import MuStrategy.Service.HealthFile
import MuStrategy.Service.Workers
import MuStrategy.Service.Transitions
import MuStrategy.Service.Supervision
import MuStrategy.Service.SingleWorker
import MuStrategy.Service.EventHistory
import MuStrategy.Lib.DoubleRead
import MuStrategy.Service.Snapshots
