import Zmq4.CurveKeys
import Zmq4.MessageQueue
import Zmq4.MetadataParsing
import Zmq4.FrameHeaders
import Zmq4.CurveTransport
import Zmq4.CurveReplay
import Zmq4.CurveAuthentication
import Zmq4.CurveNonces
import Zmq4.CurveCookies
import Zmq4.CurveSharing
import Zmq4.GreetingExchange
import Zmq4.RequestRoundRobin
import Zmq4.XPubForwarding
import Zmq4.ProxyForwarding
import Zmq4.Heartbeats
import Zmq4.MajordomoChannels
import Zmq4.MajordomoClient
import Zmq4.MajordomoDispatch
import Zmq4.MajordomoRetries
import Zmq4.MajordomoReplies
import Zmq4.PubFanOut
import Zmq4.InprocClose
import Zmq4.WriterInterleaving
import Zmq4.ReadAllocation
import Zmq4.WriterPool
import Zmq4.DafkaFailedWrites
import Zmq4.DafkaBatches
import Zmq4.DafkaCommits
import Zmq4.DafkaTower
import Zmq4.CutMessages
import Zmq4.MalamuteLifecycle
import Zmq4.CommandCallers
import Zmq4.ConfiguredSecurity
import Zmq4.ZyreLifecycle
import Zmq4.ZyreShutdown
import Zmq4.ZyrePeerStop
import Zmq4.ZyreExpiration
import Zmq4.ZyreDeparture
import Zmq4.ZyreSending
import Zmq4.SocketClosing
import Zmq4.ReaderEndings
