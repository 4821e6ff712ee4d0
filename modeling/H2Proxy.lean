import H2Proxy.FrameCodec
import H2Proxy.Conn.Discipline
import H2Proxy.Conn.Drain
import H2Proxy.Conn.Known
import H2Proxy.Conn.Padding
import H2Proxy.Conn.Charge
import H2Proxy.Conn.Backlog
import H2Proxy.Up.Moves
import H2Proxy.Proxy.Balance
import H2Proxy.Proxy.Pool
import H2Proxy.Proxy.Holders
import H2Proxy.Proxy.Forward
import H2Proxy.Proxy.State
import H2Proxy.Proxy.Engine
import H2Proxy.Proxy.Run
import H2Proxy.Proxy.Moves
import H2Proxy.Proxy.Steps
import H2Proxy.Proxy.Accounts
import H2Proxy.Proxy.Retry
import H2Proxy.Proxy.Sending
import H2Proxy.Proxy.Trial
import H2Proxy.Hpack.Session
import H2Proxy.Hpack.HuffmanExact
import H2Proxy.Proxy.Secrets
import H2Proxy.Lib.RoundRobin
import H2Proxy.Ring
import H2Proxy.Up.Steps
import H2Proxy.Up.Trail
import H2Proxy.Scheduler
import H2Proxy.Up.Ring
import H2Proxy.Conn.Calm
import H2Proxy.Conn.Ceiling
import H2Proxy.Up.Calm
import H2Proxy.Tap
import H2Proxy.Answers
import H2Proxy.FrameSize
import H2Proxy.Outlet
import H2Proxy.Dealings
import H2Proxy.Conn.Dealings
import H2Proxy.Up.Dealings
import H2Proxy.Up.Opening
import H2Proxy.Up.Queue
import H2Proxy.Up.Farewell
import H2Proxy.Conn.Block
import H2Proxy.Conn.Reassembly
import H2Proxy.Hpack.Robust
import H2Proxy.SendWindows
import H2Proxy.Proxy.Admission
import H2Proxy.TokenBucket
import H2Proxy.Proxy.Ejection
import H2Proxy.Validation
import H2Proxy.Proxy.Origin
import H2Proxy.Conn.Rejection
import H2Proxy.Hpack.Growth
import H2Proxy.Lib.Triple
import H2Proxy.Encoder
import H2Proxy.Conn.Body
import H2Proxy.StreamHistory
import H2Proxy.Up.Probe
import H2Proxy.Credit
import H2Proxy.Conn.Lends
import H2Proxy.Up.Lends
import H2Proxy.Conn.Strict
import H2Proxy.Up.Idle
import H2Proxy.Up.Links
import H2Proxy.Up.Forget
import H2Proxy.Up.Ledger
import H2Proxy.Up.Block
import H2Proxy.Up.Reassembly
import H2Proxy.Conn.Relay
