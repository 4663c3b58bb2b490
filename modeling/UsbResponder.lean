import UsbResponder.Base.BulkTransfer
import UsbResponder.Base.CString
import UsbResponder.Base.Components
import UsbResponder.Base.Correlation
import UsbResponder.Base.CrcBursts
import UsbResponder.Base.CrcPolynomials
import UsbResponder.Base.DirectoryWalk
import UsbResponder.Base.Fields
import UsbResponder.Base.Framing
import UsbResponder.Base.GrowBuffer
import UsbResponder.Base.GuardedLoop
import UsbResponder.Base.HandleUses
import UsbResponder.Base.Handles
import UsbResponder.Base.Interleaving
import UsbResponder.Base.LittleEndian
import UsbResponder.Base.NodeTree
import UsbResponder.Base.Numerals
import UsbResponder.Base.OwnedResources
import UsbResponder.Base.Pacing
import UsbResponder.Base.PartialTransfers
import UsbResponder.Base.ReflectedCrc
import UsbResponder.Base.SequentialStore
import UsbResponder.Base.SlotTable
import UsbResponder.Base.StagedStore
import UsbResponder.Base.TextLines
import UsbResponder.Base.Utf8
import UsbResponder.FileOps.DirectoryTree
import UsbResponder.FileOps.ErrorTexts
import UsbResponder.FileOps.FailingCalls
import UsbResponder.FileOps.FileRequests
import UsbResponder.FileOps.FileStore
import UsbResponder.FileOps.InterleavedUploads
import UsbResponder.FileOps.ListBuffers
import UsbResponder.FileOps.Listing
import UsbResponder.FileOps.MakeDirectories
import UsbResponder.FileOps.MountTable
import UsbResponder.FileOps.Normalise
import UsbResponder.FileOps.OpenUpload
import UsbResponder.FileOps.Path
import UsbResponder.FileOps.RecursiveDelete
import UsbResponder.FileOps.Reporting
import UsbResponder.FileOps.RequestedPaths
import UsbResponder.FileOps.SdCard
import UsbResponder.FileOps.SdUploads
import UsbResponder.FileOps.SequentialUploads
import UsbResponder.FileOps.SessionStreams
import UsbResponder.FileOps.SessionTable
import UsbResponder.FileOps.TempFiles
import UsbResponder.FileOps.Tree
import UsbResponder.FileOps.Upload
import UsbResponder.FileOps.UploadFaults
import UsbResponder.FileOps.WritebackPacing
import UsbResponder.Host.Client
import UsbResponder.Host.Codec
import UsbResponder.Host.CommandCodec
import UsbResponder.Host.CommandMemory
import UsbResponder.Host.CommandService
import UsbResponder.Host.CopyMirror
import UsbResponder.Host.CopyTree
import UsbResponder.Host.Dialog
import UsbResponder.Host.Exchange
import UsbResponder.Host.FileClient
import UsbResponder.Host.FileCommands
import UsbResponder.Host.FileList
import UsbResponder.Host.FilePut
import UsbResponder.Host.KeyValues
import UsbResponder.Host.Operations
import UsbResponder.Host.RemoteDirectories
import UsbResponder.Host.Requests
import UsbResponder.Host.ResponseSizes
import UsbResponder.Host.ResponseStream
import UsbResponder.Program.Descriptors
import UsbResponder.Program.Options
import UsbResponder.Program.Run
import UsbResponder.Protocol.BurstErrors
import UsbResponder.Protocol.Command
import UsbResponder.Protocol.Crc32
import UsbResponder.Protocol.Frame
import UsbResponder.Protocol.IsoHdlc
import UsbResponder.Protocol.KeyValue
import UsbResponder.Protocol.KeyValueMemory
import UsbResponder.Responder.Device
import UsbResponder.Responder.DirectCalls
import UsbResponder.Responder.Endpoints
import UsbResponder.Responder.ErrorResponses
import UsbResponder.Responder.FileService
import UsbResponder.Responder.FrameWrites
import UsbResponder.Responder.Handlers
import UsbResponder.Responder.History
import UsbResponder.Responder.HostTransfers
import UsbResponder.Responder.InterleavedPuts
import UsbResponder.Responder.Loop
import UsbResponder.Responder.PlainReceive
import UsbResponder.Responder.RawChunks
import UsbResponder.Responder.Reassembly
import UsbResponder.Responder.Receive
import UsbResponder.Responder.ReceiveBounds
import UsbResponder.Responder.ReceiveBuffer
import UsbResponder.Responder.Rendezvous
import UsbResponder.Responder.RequestedCalls
import UsbResponder.Responder.ResponseBuffers
import UsbResponder.Responder.Responses
import UsbResponder.Responder.Rounds
import UsbResponder.Responder.SdWrites
import UsbResponder.Responder.SessionStream
import UsbResponder.Responder.SharedFiles
import UsbResponder.Responder.ShellCapture
import UsbResponder.Responder.ShellExec
import UsbResponder.Responder.ShellResources
import UsbResponder.Responder.ShellResults
import UsbResponder.Responder.ShellTimeouts
import UsbResponder.Responder.StoreRequests
import UsbResponder.Responder.StreamLifetimes
import UsbResponder.Responder.TextFiles
import UsbResponder.Responder.UploadFrames
import UsbResponder.Responder.UploadTargets
import UsbResponder.System.CallTrace
import UsbResponder.System.FileSystem
import UsbResponder.System.Process
import UsbResponder.System.StoredFiles
import UsbResponder.System.StreamTrace
