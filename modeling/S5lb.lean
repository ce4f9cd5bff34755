import S5lb.Lib.Argmax
import S5lb.Lib.Balance
import S5lb.Lib.Carousel
import S5lb.Lib.Drawing
import S5lb.Lib.Draws
import S5lb.Lib.Fifo
import S5lb.Lib.Float64
import S5lb.Lib.Fold
import S5lb.Lib.Gauge
import S5lb.Lib.Heap
import S5lb.Lib.Ledger
import S5lb.Lib.Links
import S5lb.Lib.Shares
import S5lb.Lib.StableSort
import S5lb.Lib.Threads
import S5lb.Lib.Transition
import S5lb.Lib.Commuting
import S5lb.Lib.Swaps
import S5lb.Lib.WorkQueue
import S5lb.Lib.Writers
import S5lb.Go.Atomic
import S5lb.Go.Bufio
import S5lb.Go.Chan
import S5lb.Go.Dialog
import S5lb.Go.Talk
import S5lb.Go.Mishap
import S5lb.Go.Net
import S5lb.Go.Replace
import S5lb.Go.Sha1
import S5lb.Go.Strconv
import S5lb.Go.Stream
import S5lb.Go.Strings
import S5lb.Go.Transcript
import S5lb.Go.Url
import S5lb.Upstream
import S5lb.Upstream.Breaker
import S5lb.Upstream.Latency
import S5lb.Config.Checked
import S5lb.Config.Config
import S5lb.Config.Load
import S5lb.Config.PlainForm
import S5lb.Config.Multi
import S5lb.Strategy.Affinity
import S5lb.Strategy.Candidates
import S5lb.Strategy.Choice
import S5lb.Strategy.Fairness
import S5lb.Strategy.Overflow
import S5lb.Strategy.Proportion
import S5lb.Strategy.Rotation
import S5lb.Strategy.Selectors
import S5lb.Strategy.Starvation
import S5lb.Strategy.Uniformity
import S5lb.Strategy.Wrapping
import S5lb.Admission.Acquire
import S5lb.Admission.Eviction
import S5lb.Admission.Gate
import S5lb.Admission.Sessions
import S5lb.Admission.Tokens
import S5lb.Admission.Tracker
import S5lb.Socks5.Codec
import S5lb.Socks5.Pipe
import S5lb.Socks5.IdleCopy
import S5lb.Socks5.PipeSystem
import S5lb.Socks5.Protocol
import S5lb.Socks5.Reply
import S5lb.Socks5.Udp
import S5lb.Transport.BytePipe
import S5lb.Transport.Deadlines
import S5lb.Transport.RawWss
import S5lb.Transport.ChannelSafety
import S5lb.Transport.CloseDrain
import S5lb.Transport.Dialer
import S5lb.Transport.EndOfStream
import S5lb.Transport.ExecCommand
import S5lb.Transport.ReadSide
import S5lb.Transport.StreamConn
import S5lb.Transport.WriteSide
import S5lb.Balancer.Capacity
import S5lb.Balancer.Chain
import S5lb.Balancer.ChainSafety
import S5lb.Balancer.Conns
import S5lb.Balancer.Contract
import S5lb.Balancer.Fifo
import S5lb.Balancer.Frontend
import S5lb.Balancer.GateCell
import S5lb.Balancer.Generations
import S5lb.Balancer.Groups
import S5lb.Balancer.HealthLoop
import S5lb.Balancer.Launch
import S5lb.Balancer.Supervisor
import S5lb.Balancer.ListenAddrs
import S5lb.Balancer.Drain
import S5lb.Balancer.LoadBalancer
import S5lb.Balancer.Manager
import S5lb.Balancer.MaxClients
import S5lb.Balancer.Operations
import S5lb.Balancer.Outcome
import S5lb.Balancer.Pick
import S5lb.Balancer.Queue
import S5lb.Balancer.Reapply
import S5lb.Balancer.Reload
import S5lb.Balancer.ReloadPair
import S5lb.Balancer.ReloadSteps
import S5lb.Balancer.ReloadView
import S5lb.Balancer.Sections
import S5lb.Balancer.Serve
import S5lb.Balancer.Session
import S5lb.Balancer.Shutdown
import S5lb.Balancer.Slots
import S5lb.Balancer.Startup
import S5lb.Balancer.UdpRelay
import S5lb.Balancer.Association
import S5lb.Balancer.Pinning
import S5lb.Balancer.UpActive
import S5lb.Balancer.Wakeup
import S5lb.Cmd.KubeSocksRelay
import S5lb.Cmd.Main
import S5lb.Cmd.Handover
import S5lb.Cmd.SameFile
