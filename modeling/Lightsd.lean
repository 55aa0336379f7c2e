import Lightsd.Core.AddressTargets
import Lightsd.Core.BatchElements
import Lightsd.Core.BatchFrames
import Lightsd.Core.BatchParts
import Lightsd.Core.BulbLabels
import Lightsd.Core.CensusRuns
import Lightsd.Core.Client
import Lightsd.Core.ClientArrivals
import Lightsd.Core.ClientReads
import Lightsd.Core.ClientRuns
import Lightsd.Core.ClientStreams
import Lightsd.Core.DeviceRuns
import Lightsd.Core.DictExtraction
import Lightsd.Core.DiscoveryRuns
import Lightsd.Core.Events
import Lightsd.Core.ExtractedFields
import Lightsd.Core.FailedTag
import Lightsd.Core.FloatParams
import Lightsd.Core.FloatPrinter
import Lightsd.Core.FloatTexts
import Lightsd.Core.HandlerFailures
import Lightsd.Core.IntegerParams
import Lightsd.Core.Jsmn
import Lightsd.Core.JsmnArrivals
import Lightsd.Core.JsmnPrefix
import Lightsd.Core.JsmnScan
import Lightsd.Core.JsmnStreams
import Lightsd.Core.JsmnText
import Lightsd.Core.JsmnValues
import Lightsd.Core.JsonDispatch
import Lightsd.Core.JsonHandlers
import Lightsd.Core.JsonMembers
import Lightsd.Core.JsonParams
import Lightsd.Core.JsonRequests
import Lightsd.Core.JsonSchema
import Lightsd.Core.JsonText
import Lightsd.Core.JsonTypes
import Lightsd.Core.LightStateJson
import Lightsd.Core.LightStateParts
import Lightsd.Core.LightStateText
import Lightsd.Core.LongLabels
import Lightsd.Core.Notifications
import Lightsd.Core.NumberTexts
import Lightsd.Core.OrphanTags
import Lightsd.Core.OwnParts
import Lightsd.Core.ParamTypes
import Lightsd.Core.Pipe
import Lightsd.Core.PipeReads
import Lightsd.Core.PipeRuns
import Lightsd.Core.PositionalParams
import Lightsd.Core.PowerEvents
import Lightsd.Core.PowerRuns
import Lightsd.Core.Primitives
import Lightsd.Core.PrintedTexts
import Lightsd.Core.Proto
import Lightsd.Core.Reachable
import Lightsd.Core.ReadOn
import Lightsd.Core.ReaderProgress
import Lightsd.Core.RequestGrammar
import Lightsd.Core.RequestInBatch
import Lightsd.Core.RequestStride
import Lightsd.Core.Router
import Lightsd.Core.RouterAgreement
import Lightsd.Core.RouterRules
import Lightsd.Core.SchemaEntries
import Lightsd.Core.SchemaSpec
import Lightsd.Core.SchemaWalk
import Lightsd.Core.SetterCalls
import Lightsd.Core.TagBits
import Lightsd.Core.TagCapture
import Lightsd.Core.TagCleanup
import Lightsd.Core.TagCommands
import Lightsd.Core.TagPackets
import Lightsd.Core.TagPlacement
import Lightsd.Core.TagRenames
import Lightsd.Core.TagRuns
import Lightsd.Core.TagSaturation
import Lightsd.Core.TakenKeys
import Lightsd.Core.TargetLists
import Lightsd.Core.TargetSets
import Lightsd.Core.Timestamps
import Lightsd.Core.TokenBounds
import Lightsd.Core.TokenLimits
import Lightsd.Core.TokenReads
import Lightsd.Core.TokenTrees
import Lightsd.Core.TokenWindows
import Lightsd.Core.Transports
import Lightsd.Core.WatchdogRuns
import Lightsd.Core.WaveformFields
import Lightsd.Library.BitScan
import Lightsd.Library.BoundedBuffer
import Lightsd.Library.ByteOrder
import Lightsd.Library.Calendar
import Lightsd.Library.Census
import Lightsd.Library.ChunkQueue
import Lightsd.Library.Decimals
import Lightsd.Library.IndexLoop
import Lightsd.Library.JsonGrammar
import Lightsd.Library.JsonPieces
import Lightsd.Library.JsonReader
import Lightsd.Library.JsonStrings
import Lightsd.Library.JsonTexts
import Lightsd.Library.KeyedList
import Lightsd.Library.MeasuredLoop
import Lightsd.Library.OrderedTree
import Lightsd.Library.RingQueue
import Lightsd.Library.RingWindow
import Lightsd.Library.Runs
import Lightsd.Library.Utf8Texts
import Lightsd.Lifx.BroadcastEndpoint
import Lightsd.Lifx.BulbRecords
import Lightsd.Lifx.BulbState
import Lightsd.Lifx.BulbTable
import Lightsd.Lifx.Datagrams
import Lightsd.Lifx.DeviceAges
import Lightsd.Lifx.DeviceOperations
import Lightsd.Lifx.DevicePartition
import Lightsd.Lifx.DeviceStats
import Lightsd.Lifx.DeviceTransitions
import Lightsd.Lifx.Discovery
import Lightsd.Lifx.Gateway
import Lightsd.Lifx.HostOrder
import Lightsd.Lifx.LabelReads
import Lightsd.Lifx.LightStatus
import Lightsd.Lifx.Outbox
import Lightsd.Lifx.PacketRing
import Lightsd.Lifx.PacketRingAccounting
import Lightsd.Lifx.PacketRingQueue
import Lightsd.Lifx.PacketTypes
import Lightsd.Lifx.PayloadReads
import Lightsd.Lifx.PowerConfirmation
import Lightsd.Lifx.Receive
import Lightsd.Lifx.ReceiveBuffer
import Lightsd.Lifx.ReceivedBytes
import Lightsd.Lifx.RefreshFlag
import Lightsd.Lifx.RefreshRequests
import Lightsd.Lifx.Registry
import Lightsd.Lifx.Requests
import Lightsd.Lifx.SaturatedCounts
import Lightsd.Lifx.StaleBytes
import Lightsd.Lifx.State
import Lightsd.Lifx.TagAllocations
import Lightsd.Lifx.TagCensus
import Lightsd.Lifx.TagChanges
import Lightsd.Lifx.TagHandlers
import Lightsd.Lifx.TagIds
import Lightsd.Lifx.TagLabels
import Lightsd.Lifx.TagOperations
import Lightsd.Lifx.TagRegistry
import Lightsd.Lifx.TagRules
import Lightsd.Lifx.TagTransitions
import Lightsd.Lifx.Tagging
import Lightsd.Lifx.WireProto
import Lightsd.Lifx.WireRoundTrip
import Lightsd.Lightsc.Framing
import Lightsd.Lightsc.PendingCalls
import Lightsd.Monolight.ActionQueue
import Lightsd.Monolight.Components
import Lightsd.Monolight.Drawing
