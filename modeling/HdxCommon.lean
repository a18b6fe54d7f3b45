import HdxCommon.Bytes
import HdxCommon.Cuber
import HdxCommon.Cuboot
import HdxCommon.Runs
import HdxCommon.Superbuf
import HdxCommon.SuperbufMoves
import HdxCommon.SuperbufShape
import HdxCommon.SuperbufConservation
import HdxCommon.SuperbufOrder
import HdxCommon.Stream
import HdxCommon.Streaming
import HdxCommon.ChannelStart
import HdxCommon.BufRefcount
import HdxCommon.ChannelRestart
import HdxCommon.Hwi
import HdxCommon.StateMachine
import HdxCommon.StateMirror
import HdxCommon.StateAnswers
import HdxCommon.Monitor
import HdxCommon.ApiResult
import HdxCommon.CmdThread
import HdxCommon.CbNotifier
import HdxCommon.PostProc
import HdxCommon.PostProcOwnership
import HdxCommon.PostProcCommands
import HdxCommon.CaptureSessions
import HdxCommon.PostProcProgress
import HdxCommon.SuperbufBurst
import HdxCommon.Parameters
import HdxCommon.CaptureTeardown
import HdxCommon.Buffers
import HdxCommon.Rome
import HdxCommon.ParamStrings
import HdxCommon.SuperbufUnmatched
import HdxCommon.SuperbufSnapshot
import HdxCommon.Handlers
import HdxCommon.ChannelFsm
import HdxCommon.Handles
import HdxCommon.Preview
import HdxCommon.VideoFrames
import HdxCommon.AreaStrings
import HdxCommon.FrameLayout
import HdxCommon.GrallocAlloc
import HdxCommon.JpegClients
import HdxCommon.JpegIds
import HdxCommon.JpegQueue
import HdxCommon.Liveness
import HdxCommon.OmxCore
import HdxCommon.PlaneDescriptors
import HdxCommon.RawLayout
import HdxCommon.Ar3k
import HdxCommon.Ar3kPs
import HdxCommon.CameraQueue
import HdxCommon.Decimal
import HdxCommon.InterfaceThread
import HdxCommon.NvmFile
import HdxCommon.ParmBatch
import HdxCommon.RampatchDownload
import HdxCommon.Reads
import HdxCommon.RomeEvents
import HdxCommon.RomeLink
import HdxCommon.SizeLists
import HdxCommon.SnapshotCount
import HdxCommon.ThermalFps
import HdxCommon.Transport
import HdxCommon.PollProgress
import HdxCommon.StateRequests
