import Xrtc.Action.Marshal
import Xrtc.Action.Push
import Xrtc.Base.Crc32
import Xrtc.Base.JsonCpp
import Xrtc.Base.LockFreeQueue
import Xrtc.Base.Log
import Xrtc.Base.RtcMsg
import Xrtc.Base.XHead
import Xrtc.Base.Zmalloc
import Xrtc.Framework.ComLog
import Xrtc.Framework.Timers
import Xrtc.Glog.Exclusive
import Xrtc.Glog.Rotation
import Xrtc.Machine.Buffered
import Xrtc.Machine.Calendar
import Xrtc.Machine.Chain
import Xrtc.Machine.Decimal
import Xrtc.Machine.Holding
import Xrtc.Machine.Json
import Xrtc.Machine.Mailbox
import Xrtc.Machine.Pool
import Xrtc.Machine.Printf
import Xrtc.Machine.Reader
import Xrtc.Machine.Run
import Xrtc.Machine.Text
import Xrtc.Machine.Utf8
import Xrtc.Machine.Word
import Xrtc.Pc.Credentials
import Xrtc.Pc.Fingerprint
import Xrtc.Pc.Grammar
import Xrtc.Pc.OfferSize
import Xrtc.Pc.PeerConnection
import Xrtc.Pc.ReadBack
import Xrtc.Pc.SessionDescription
import Xrtc.Server.Answering
import Xrtc.Server.Arming
import Xrtc.Server.Blocking
import Xrtc.Server.Certificates
import Xrtc.Server.ConnTable
import Xrtc.Server.Conservation
import Xrtc.Server.Delivery
import Xrtc.Server.Descriptors
import Xrtc.Server.Draining
import Xrtc.Server.Exchange
import Xrtc.Server.Failures
import Xrtc.Server.Flow
import Xrtc.Server.Guards
import Xrtc.Server.Memory
import Xrtc.Server.Ownership
import Xrtc.Server.Pipeline
import Xrtc.Server.Placement
import Xrtc.Server.Progress
import Xrtc.Server.Reading
import Xrtc.Server.Replies
import Xrtc.Server.ReplySize
import Xrtc.Server.Requests
import Xrtc.Server.Senders
import Xrtc.Server.Session
import Xrtc.Server.Shutdown
import Xrtc.Server.SignalingServer
import Xrtc.Server.SignalingWorker
import Xrtc.Server.Timeouts
import Xrtc.Server.Watched
import Xrtc.Server.Writing
import Xrtc.Stream.RtcStreamManager
import Xrtc.Xrpc.Codec
import Xrtc.Xrpc.Response
import Xrtc.Xrpc.Selector
import Xrtc.Xrpc.Wire
