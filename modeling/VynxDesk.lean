import VynxDesk.Clipboard.Reads
import VynxDesk.Clipboard.Sync
import VynxDesk.Clipboard.Tree
import VynxDesk.Clipboard.Untrusted
import VynxDesk.Codec.Services
import VynxDesk.Connection.Failures
import VynxDesk.Connection.Following
import VynxDesk.Connection.HandoverRun
import VynxDesk.Drm.Availability
import VynxDesk.Drm.Layout
import VynxDesk.Drm.Stream
import VynxDesk.InputBridge.Decode
import VynxDesk.InputBridge.Release
import VynxDesk.InputBridge.Stuck
import VynxDesk.Licensing.Token
import VynxDesk.PortForward.Cap
import VynxDesk.PortForward.Listener
import VynxDesk.PortForward.Integrity
import VynxDesk.Portable.Blob
import VynxDesk.Portable.Exclusive
import VynxDesk.Privacy.Orphan
import VynxDesk.Privacy.Ownership
import VynxDesk.Server.Snapshot
import VynxDesk.Server.VideoFrame
import VynxDesk.Terminal.Chunks
import VynxDesk.Terminal.Limits
import VynxDesk.Terminal.Replay
import VynxDesk.Terminal.Session
import VynxDesk.UdpPunch.Confirmed
import VynxDesk.Lib.Pipe
import VynxDesk.Connection.Backoff
import VynxDesk.Connection.PerMinute
import VynxDesk.Connection.Rotation
import VynxDesk.Connection.Wildcard
import VynxDesk.Drm.Refresh
import VynxDesk.InputBridge.Queue
import VynxDesk.Licensing.Rate
import VynxDesk.PortForward.Open
import VynxDesk.PortForward.Report
import VynxDesk.Server.Capture
import VynxDesk.Terminal.Helper
import VynxDesk.Connection.SwitchSides
import VynxDesk.Connection.RemoveLog
import VynxDesk.Portable.Merge
import VynxDesk.Portable.Sweep
import VynxDesk.Server.CustomServer
import VynxDesk.HbbsHttp.RecordUpload
import VynxDesk.Portable.Frames
import VynxDesk.HbbsHttp.Downloader
import VynxDesk.Connection.ReadConfirm
import VynxDesk.Clipboard.CmRead
import VynxDesk.Drm.Drift
import VynxDesk.Drm.Hotplug
import VynxDesk.Drm.Remap
import VynxDesk.Drm.Transport
import VynxDesk.Privacy.Hooks
import VynxDesk.Server.LegacyKeys
import VynxDesk.Server.PasteFilter
import VynxDesk.Server.VirtualDisplay
import VynxDesk.Codec.Update
import VynxDesk.Connection.PeerPath
import VynxDesk.Clipboard.FilePaths
import VynxDesk.Portable.Counter
import VynxDesk.Server.VideoQosFps
import VynxDesk.Server.VideoQosRtt
import VynxDesk.HbbsHttp.Account
import VynxDesk.Rendezvous.IceRoute
import VynxDesk.Rendezvous.Register
import VynxDesk.Codec.Recorder
import VynxDesk.Client.FpsControl
