import TinyPilotKvm.Libs.Ring
import TinyPilotKvm.Libs.Capture.Discipline
import TinyPilotKvm.Sink.Presence
import TinyPilotKvm.Sink.Delivery
import TinyPilotKvm.Ustreamer.StreamConservation
import TinyPilotKvm.Ustreamer.EncoderSlots
import TinyPilotKvm.Ustreamer.GrabRace
import TinyPilotKvm.Ustreamer.Http.Static
import TinyPilotKvm.Janus.RtpvRoundTrip
import TinyPilotKvm.Janus.RtpvFraming
import TinyPilotKvm.Janus.RtpvSafety
import TinyPilotKvm.Janus.VideoPath
import TinyPilotKvm.App.Db.StoreOpening
import TinyPilotKvm.App.Paste
import TinyPilotKvm.Scripts.StripMarkerSections
import TinyPilotKvm.Records
import TinyPilotKvm.Ustreamer.JpegExposure
import TinyPilotKvm.Ustreamer.M2m
import TinyPilotKvm.Sink.KeyRequest
import TinyPilotKvm.Janus.KeyRequests
import TinyPilotKvm.Ustreamer.Http.Snapshot
import TinyPilotKvm.Ustreamer.Http.SnapshotFreshness
import TinyPilotKvm.App.SocketApi
import TinyPilotKvm.App.Page.Keyboard
import TinyPilotKvm.App.Page.HeldModifiers
import TinyPilotKvm.App.Logs
import TinyPilotKvm.App.VideoSettings
import TinyPilotKvm.App.Page.Mouse
import TinyPilotKvm.Scripts.Echo
import TinyPilotKvm.Python.Text
import TinyPilotKvm.Scripts.EnableWifi
import TinyPilotKvm.App.WifiSettings
import TinyPilotKvm.Scripts.MarkerSections
import TinyPilotKvm.Janus.Watchers
import TinyPilotKvm.Libs.Drm
import TinyPilotKvm.Ustreamer.DrmThread
import TinyPilotKvm.Ustreamer.DrmBuffers
import TinyPilotKvm.Ustreamer.Encoders.Cpu
import TinyPilotKvm.Formats.Jpeg
import TinyPilotKvm.Ustreamer.Encoders.Hw
import TinyPilotKvm.App.UpdateLogs
import TinyPilotKvm.Formats.Base64
import TinyPilotKvm.Libs.Base64
import TinyPilotKvm.Formats.Ascii
import TinyPilotKvm.Formats.Json
import TinyPilotKvm.Ustreamer.Http.Server
import TinyPilotKvm.Ustreamer.Http.State
import TinyPilotKvm.Ustreamer.Http.Handlers
import TinyPilotKvm.Formats.Multipart
import TinyPilotKvm.Ustreamer.Http.Gate
import TinyPilotKvm.Ustreamer.Http.StreamWrite
import TinyPilotKvm.Ustreamer.Http.PathReference
import TinyPilotKvm.Ustreamer.Encoders.HwUsed
import TinyPilotKvm.Ustreamer.Http.ExposedFrame
import TinyPilotKvm.Ustreamer.HwPublishing
import TinyPilotKvm.Raster
import TinyPilotKvm.Ustreamer.Encoders.CpuScanlines
import TinyPilotKvm.Ustreamer.Encoders.CpuPacked
import TinyPilotKvm.Ustreamer.Encoders.CpuBounds
import TinyPilotKvm.Programs
import TinyPilotKvm.Ustreamer.M2mDevice
import TinyPilotKvm.Ustreamer.M2mSession
import TinyPilotKvm.Ustreamer.M2mRecovery
import TinyPilotKvm.Ustreamer.M2mSafety
import TinyPilotKvm.Ustreamer.M2mExchange
import TinyPilotKvm.Mixers
import TinyPilotKvm.Libs.Ids
import TinyPilotKvm.Sink.FrameIds
import TinyPilotKvm.Libs.Base64Calls
import TinyPilotKvm.Janus.Au
import TinyPilotKvm.Janus.AplayRecv
import TinyPilotKvm.Libs.Fpsi
import TinyPilotKvm.Ustreamer.ExitOnNoClients
import TinyPilotKvm.Ustreamer.Http.StreamSchedule
import TinyPilotKvm.Ustreamer.Http.Cors
import TinyPilotKvm.Libs.DrmModes
import TinyPilotKvm.Libs.FrametextFont
import TinyPilotKvm.Libs.Frametext
import TinyPilotKvm.Python.Patterns
import TinyPilotKvm.App.Hostname
import TinyPilotKvm.Libs.QueueCalls
import TinyPilotKvm.App.Page.KeyboardSync
import TinyPilotKvm.Scripts.ChangeHostname
import TinyPilotKvm.Scripts.SetStaticIp
import TinyPilotKvm.App.WifiArguments
import TinyPilotKvm.Python.IpAddress
import TinyPilotKvm.App.StunAddress
import TinyPilotKvm.Fallible
import TinyPilotKvm.App.Hid.Mouse
import TinyPilotKvm.App.MouseEvents
import TinyPilotKvm.Python.Operations
import TinyPilotKvm.App.Network
import TinyPilotKvm.App.PasteRequest
import TinyPilotKvm.App.RequestBodies
import TinyPilotKvm.Libs.List
import TinyPilotKvm.Libs.ListRuns
import TinyPilotKvm.Libs.ListUsers
import TinyPilotKvm.Janus.Client
import TinyPilotKvm.Janus.Viewer
import TinyPilotKvm.Janus.Acap
import TinyPilotKvm.Janus.AcapPackets
import TinyPilotKvm.Janus.AcapClosing
import TinyPilotKvm.Ustreamer.StreamClosing
import TinyPilotKvm.Ustreamer.WorkersThreads
import TinyPilotKvm.Ustreamer.WorkersRefinement
import TinyPilotKvm.Ustreamer.WorkersLiveness
import TinyPilotKvm.Ustreamer.WorkersCalls
import TinyPilotKvm.Scripts.Etc
import TinyPilotKvm.Scripts.ManagedFile
import TinyPilotKvm.Scripts.EtcRuns
import TinyPilotKvm.App.SecretKey
import TinyPilotKvm.App.Update
