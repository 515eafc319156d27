import YuriRtc.AnswerTransport
import YuriRtc.BodyDrained
import YuriRtc.BridgeHeads
import YuriRtc.BufferWait
import YuriRtc.CacheBarrier
import YuriRtc.CarrierElection
import YuriRtc.CleanupTimers
import YuriRtc.CodecAgree
import YuriRtc.CookieCalls
import YuriRtc.CreditWaiters
import YuriRtc.DirectCredit
import YuriRtc.FrameTokens
import YuriRtc.HandlerSends
import YuriRtc.InjectedStream
import YuriRtc.LaneLoss
import YuriRtc.LoaderResolve
import YuriRtc.LruBudget
import YuriRtc.LruEvict
import YuriRtc.LruTotal
import YuriRtc.PageFinality
import YuriRtc.PageLoads
import YuriRtc.PageValidators
import YuriRtc.PathReach
import YuriRtc.PeerRegistry
import YuriRtc.PortReplacement
import YuriRtc.Promotion
import YuriRtc.ProxyHeaders
import YuriRtc.RejectedBodies
import YuriRtc.ResponseCredit
import YuriRtc.Signaler
import YuriRtc.SocketRelease
import YuriRtc.SocketSends
import YuriRtc.StaticPreconditions
import YuriRtc.SwBridgeWindow
import YuriRtc.TerminalFrames
import YuriRtc.UploadTail
import YuriRtc.WireFrames
import YuriRtc.WireGzipLoad
