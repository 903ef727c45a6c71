import Ros1Tools.Lib.Run
import Ros1Tools.Lib.Bytes
import Ros1Tools.Lib.BinaryFloat
import Ros1Tools.Lib.Decimal
import Ros1Tools.Lib.Except
import Ros1Tools.Json
import Ros1Tools.Error
import Ros1Tools.Service.Frame
import Ros1Tools.Service.Invoker
import Ros1Tools.Service.Advance
import Ros1Tools.Service.Helper
import Ros1Tools.Service.System
import Ros1Tools.Service.Invariant
import Ros1Tools.Service.Fence
import Ros1Tools.Service.Integrity
import Ros1Tools.Publish.Registry
import Ros1Tools.Publish.Call
import Ros1Tools.Publish.SideEffect
import Ros1Tools.Publish.Move
import Ros1Tools.Publish.System
import Ros1Tools.Publish.Consistent
import Ros1Tools.Publish.Lease
import Ros1Tools.Publish.Lifecycle
import Ros1Tools.Publish.Generation
import Ros1Tools.Codec.Message
import Ros1Tools.Codec.Scalar
import Ros1Tools.Codec.Denote
import Ros1Tools.Codec.JsonCodec
import Ros1Tools.Codec.Reads
import Ros1Tools.Codec.RoundTrip
import Ros1Tools.Codec.Conformance
import Ros1Tools.Lib.Faulty
import Ros1Tools.Lib.Python
import Ros1Tools.Lib.Map
import Ros1Tools.Archive.Name
import Ros1Tools.Archive.Disk
import Ros1Tools.Archive.Finalize
import Ros1Tools.Archive.Volume
import Ros1Tools.Archive.Keep
import Ros1Tools.Archive.Spec
import Ros1Tools.Archive.Settle
import Ros1Tools.Archive.Sound
import Ros1Tools.Archive.Resume
import Ros1Tools.Facts.Event
import Ros1Tools.Facts.Store
import Ros1Tools.Facts.Recorder
import Ros1Tools.Facts.Blob
import Ros1Tools.Facts.Work
import Ros1Tools.Facts.Operation
import Ros1Tools.Facts.Evidence
import Ros1Tools.Facts.Interval
import Ros1Tools.Facts.Snapshot
import Ros1Tools.Facts.Threads
import Ros1Tools.Facts.Delivery
import Ros1Tools.Adapter.Context
import Ros1Tools.Adapter.Subject
import Ros1Tools.Adapter.Request
import Ros1Tools.Service.Agreement
import Ros1Tools.Service.InFlight
import Ros1Tools.Codec.Reject
import Ros1Tools.Lib.Regex
import Ros1Tools.Recording.Exclusion
import Ros1Tools.Recording.Runtime
import Ros1Tools.Recording.Parameters
import Ros1Tools.Recording.PatternSize
import Ros1Tools.Recording.Topics
import Ros1Tools.Recording.Prepare
import Ros1Tools.Recording.Agreement
import Ros1Tools.Lib.Collapse
import Ros1Tools.Lib.Pattern
import Ros1Tools.Lib.Rounding
import Ros1Tools.Lib.Objects
import Ros1Tools.Archive.Inventory
import Ros1Tools.Facts.History
import Ros1Tools.Facts.Polls
import Ros1Tools.Facts.Camera
import Ros1Tools.Facts.Reject
import Ros1Tools.Adapter.Hostname
import Ros1Tools.Adapter.MasterUri
import Ros1Tools.Adapter.Input
import Ros1Tools.Adapter.InputSchema
import Ros1Tools.Recording.Failure
import Ros1Tools.Recording.Canonical
import Ros1Tools.Recording.Wrapper
import Ros1Tools.Json.Number
import Ros1Tools.Codec.Integer
import Ros1Tools.Adapter.MainLoop
import Ros1Tools.Lib.Machine
import Ros1Tools.Service.Deadline
import Ros1Tools.Clock.Target
import Ros1Tools.Clock.Wait
import Ros1Tools.Recording.Namespace
import Ros1Tools.Lib.PosixPath
import Ros1Tools.Lib.FileTree
import Ros1Tools.Archive.Confine
import Ros1Tools.Probe.Request
import Ros1Tools.Probe.Snapshot
import Ros1Tools.Json.Reader
import Ros1Tools.Json.Tokens
import Ros1Tools.Adapter.StrictJson
import Ros1Tools.Lib.Storage
import Ros1Tools.Lib.Simulation
import Ros1Tools.Archive.Durable
import Ros1Tools.Archive.Stable
import Ros1Tools.Archive.Refine
import Ros1Tools.Archive.PowerCut
import Ros1Tools.Lib.Calls
import Ros1Tools.Service.Spawn
import Ros1Tools.Service.HelperMain
import Ros1Tools.Lib.RoundingError
import Ros1Tools.Publish.Pacing
