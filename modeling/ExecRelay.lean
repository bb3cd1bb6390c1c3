import ExecRelay.Ingress.Networks
import ExecRelay.Ingress.Quota
import ExecRelay.Ingress.RateLimit
import ExecRelay.Ingress.Timestamp
import ExecRelay.Ingress.TwoRuns
import ExecRelay.Persist.RequestLog
import ExecRelay.Bridge.Acknowledge
import ExecRelay.Bridge.Registry
import ExecRelay.EA.Levels
import ExecRelay.EA.Pending
import ExecRelay.DXTrade.Deletions
import ExecRelay.Execution.Amendments
import ExecRelay.Portal.FillList
import ExecRelay.Portal.Journal
import ExecRelay.Portal.Rotation
import ExecRelay.Portal.TestSignal
import ExecRelay.Portal.Trace
import ExecRelay.Fills.Redelivered
import ExecRelay.Fills.Subject
import ExecRelay.Relay.Halted
import ExecRelay.Relay.Once
import ExecRelay.Relay.ReplayedRow
import ExecRelay.Relay.Settled
import ExecRelay.Backtest.Ledger
import ExecRelay.Backtest.Series
import ExecRelay.Dashboard.TestSignal
import ExecRelay.MT4.Deliver
import ExecRelay.MT4.Sha1
import ExecRelay.Risk.Notional
import ExecRelay.Shim.Backfill
import ExecRelay.Shim.Monitor
import ExecRelay.Shim.Siblings
