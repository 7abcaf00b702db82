import GraduationServer.Library.LittleEndian
import GraduationServer.Library.Runs
import GraduationServer.Stream
import GraduationServer.Packet
import GraduationServer.PacketCodec
import GraduationServer.IOCPSession
import GraduationServer.ReceivePath
import GraduationServer.SendPath
import GraduationServer.TerminalSession
import GraduationServer.SessionManager
import GraduationServer.ContentsProcess
import GraduationServer.PackageLifetime
import GraduationServer.ChattingProcess
import GraduationServer.Library.StdMap
import GraduationServer.LobbyOccupancy
import GraduationServer.InGameProcess
import GraduationServer.Library.InFlight
import GraduationServer.RoomLifecycle
import GraduationServer.PlayerIdentity
import GraduationServer.LoginProcess
import GraduationServer.LoginSystem
import GraduationServer.Authentication
import GraduationServer.LoginReplies
import GraduationServer.Library.Fifo
import GraduationServer.JobQueue
import GraduationServer.SessionRegistry
import GraduationServer.WireFormat
import GraduationServer.RoomIsolation
import GraduationServer.Seats
import GraduationServer.WorkerOrder
import GraduationServer.HandOff
import GraduationServer.ConnectProcess
import GraduationServer.ChattingUsers
import GraduationServer.LobbyLiveness
import GraduationServer.FieldReads
import GraduationServer.TerminalReceive
import GraduationServer.Misaligned
import GraduationServer.Segmentation
import GraduationServer.StreamReads
import GraduationServer.CompletePayload
import GraduationServer.EncodeLimit
import GraduationServer.PostedReceive
import GraduationServer.ExtractionLoop
import GraduationServer.InvalidPacket
import GraduationServer.Library.QuotedLiteral
import GraduationServer.QueryStatement
import GraduationServer.UserInfoRetry
import GraduationServer.RequestFaults
import GraduationServer.GameLiveness
import GraduationServer.ConnectionLimit
import GraduationServer.KillCounter
import GraduationServer.RoomHandOver
import GraduationServer.AcceptPath
import GraduationServer.LoadDataQuery
import GraduationServer.LobbySafety
import GraduationServer.TerminalFill
import GraduationServer.ReceiverAgreement
import GraduationServer.Library.RecursiveMutex
import GraduationServer.LockScope
import GraduationServer.Library.FunctionalSearch
import GraduationServer.DeadlockSearch
import GraduationServer.Library.Alarm
import GraduationServer.TaskProcess
import GraduationServer.TaskPeriod
import GraduationServer.TaskDuration
import GraduationServer.ChatExit
import GraduationServer.ChatNames
import GraduationServer.CoalescedFrames
import GraduationServer.StreamValues
import GraduationServer.Library.LastUser
import GraduationServer.ThreadLifetime
import GraduationServer.ThreadRelease
import GraduationServer.QueryPool
import GraduationServer.TerminalManager
import GraduationServer.Channel
import GraduationServer.ChatRoom
import GraduationServer.LoginCompletion
import GraduationServer.LoginNetwork
import GraduationServer.RoomHeap
import GraduationServer.UserInfoSteps
import GraduationServer.Library.Contracts
import GraduationServer.TinyXml
import GraduationServer.TinyXmlSafety
import GraduationServer.TinyXmlAccepted
import GraduationServer.TinyXmlPrint
import GraduationServer.TinyXmlReadBack
import GraduationServer.TinyXmlRoundTrip
import GraduationServer.Startup
import GraduationServer.StartupSettings
import GraduationServer.GameRelay
import GraduationServer.Library.LinkedRing
import GraduationServer.TinyXmlNodes
import GraduationServer.TinyXmlForest
import GraduationServer.TinyXmlChildren
import GraduationServer.TinyXmlDocuments
import GraduationServer.TinyXmlAttributes
