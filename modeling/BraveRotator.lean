import BraveRotator.Model.RateLimit
import BraveRotator.Model.KeyState
import BraveRotator.Model.Pool
import BraveRotator.Model.Record
import BraveRotator.Model.Snapshot
import BraveRotator.Lib.Backoff
import BraveRotator.Lib.Rotation
import BraveRotator.Lib.Runs
import BraveRotator.Lib.SlidingWindow
import BraveRotator.Lib.WaitLoop
import BraveRotator.Model.Acquire
import BraveRotator.Model.Calls
import BraveRotator.Model.Traffic
import BraveRotator.Key.Availability
import BraveRotator.Pool.Pick
import BraveRotator.Pool.TryAcquire
import BraveRotator.Pool.Step
import BraveRotator.Key.Digest
import BraveRotator.Key.Effects
import BraveRotator.Pool.Window
import BraveRotator.Pool.Rotation
import BraveRotator.Pool.Choice
import BraveRotator.Pool.NextSlot
import BraveRotator.Lib.Streak
import BraveRotator.Key.Streaks
import BraveRotator.Pool.History
import BraveRotator.Pool.Streaks
import BraveRotator.Pool.Coherence
import BraveRotator.Key.Waiting
import BraveRotator.Pool.Waiting
import BraveRotator.Traffic.Step
import BraveRotator.Traffic.Blocks
import BraveRotator.Traffic.Park
import BraveRotator.Traffic.Hold
import BraveRotator.Traffic.Cap
import BraveRotator.Traffic.Probe
import BraveRotator.Traffic.Strikes
import BraveRotator.Traffic.Ceiling
import BraveRotator.Key.Ranges
import BraveRotator.Key.Answers
import BraveRotator.Pool.Totals
import BraveRotator.Pool.Ranges
import BraveRotator.Key.Quota
import BraveRotator.Pool.Quota
import BraveRotator.Lib.Slots
import BraveRotator.Pool.Slots
import BraveRotator.Key.Likeness
import BraveRotator.Lib.Selection
import BraveRotator.Pool.Likeness
import BraveRotator.Pool.Observation
import BraveRotator.Lib.Turnstile
import BraveRotator.Model.Turnstile
import BraveRotator.Pool.Deadline
import BraveRotator.Lib.MultiMap
import BraveRotator.Lib.Text
import BraveRotator.Model.Headers
import BraveRotator.Model.RateLimitHeaders
import BraveRotator.Model.Config
import BraveRotator.Config.Caps
import BraveRotator.Lib.Distinct
import BraveRotator.Lib.Utf8
import BraveRotator.Model.Upstream
import BraveRotator.Model.Proxy
import BraveRotator.Proxy.Session
import BraveRotator.Proxy.Attempts
import BraveRotator.Proxy.Success
import BraveRotator.Proxy.PoolHeaders
import BraveRotator.Proxy.Credentials
import BraveRotator.Proxy.HopByHop
import BraveRotator.Pool.Reset
import BraveRotator.Proxy.Windows
import BraveRotator.Proxy.ReadBack
import BraveRotator.Lib.Percent
import BraveRotator.Lib.While
import BraveRotator.Model.Query
import BraveRotator.Proxy.Query
import BraveRotator.Lib.Reader
import BraveRotator.Lib.Net
import BraveRotator.Lib.Display
import BraveRotator.Model.Healthcheck
import BraveRotator.Config.FromEnv
import BraveRotator.Config.Listen
import BraveRotator.Model.Handlers
import BraveRotator.Model.Server
import BraveRotator.Key.Stats
import BraveRotator.Pool.Stats
import BraveRotator.Lib.Descent
import BraveRotator.Lib.Simulation
import BraveRotator.Server.Step
import BraveRotator.Server.Sessions
import BraveRotator.Server.Flights
import BraveRotator.Server.Refinement
import BraveRotator.Server.Accounts
import BraveRotator.Server.Line
import BraveRotator.Server.Order
import BraveRotator.Server.Progress
import BraveRotator.Pool.Secrets
import BraveRotator.Server.Secrets
import BraveRotator.Proxy.History
import BraveRotator.Proxy.Labels
import BraveRotator.Server.Monitoring
import BraveRotator.Pool.Recovery
import BraveRotator.Lib.Checks
import BraveRotator.Config.Reading
import BraveRotator.Lib.Parallel
import BraveRotator.Pool.Parallel
import BraveRotator.Server.Relay
import BraveRotator.Server.Gate
import BraveRotator.Lib.Delivery
import BraveRotator.Model.Mock
import BraveRotator.Pool.Rate
import BraveRotator.Mock.Limits
import BraveRotator.Server.Pacing
import BraveRotator.Proxy.Failover
import BraveRotator.Server.Failover
