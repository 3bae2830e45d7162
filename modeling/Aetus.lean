import Aetus.Base.Runs
import Aetus.Base.Numbering
import Aetus.Base.Pipeline
import Aetus.Base.Protobuf
import Aetus.Base.BlockHeap
import Aetus.Base.CString
import Aetus.Firmware.Types
import Aetus.Firmware.Telemetry
import Aetus.Firmware.Ownership
import Aetus.Firmware.BuilderCalls
import Aetus.Firmware.QueueItem
import Aetus.Firmware.CopyOwnership
import Aetus.Firmware.IsrEnqueue
import Aetus.Firmware.SamplePool
import Aetus.Firmware.SignalFrame
import Aetus.Firmware.Uploader
import Aetus.Firmware.UploadOrder
import Aetus.Firmware.SequenceNumbers
import Aetus.Firmware.PoolAccounting
import Aetus.Firmware.Flush
import Aetus.Base.Ascii
import Aetus.Base.Hmac
import Aetus.Clients.Signature
import Aetus.Firmware.Signature
import Aetus.Ingest.Auth
import Aetus.EndToEnd.SignatureAgreement
import Aetus.Firmware.Config
import Aetus.Firmware.Requests
import Aetus.Firmware.Runtime
import Aetus.Firmware.Event
import Aetus.Firmware.Nanopb
import Aetus.Firmware.Wire
import Aetus.Firmware.FrameSize
import Aetus.Firmware.MetricReports
import Aetus.Firmware.TelemetryPayload
import Aetus.Ingest.App
import Aetus.EndToEnd.DeviceIdentity
import Aetus.Firmware.Credentials
import Aetus.Firmware.Provisioning
import Aetus.Firmware.RunningConfig
import Aetus.Firmware.FailedCalls
import Aetus.Firmware.ProvisioningFrame
import Aetus.Firmware.ProvisioningNumbers
import Aetus.Base.TokenBucket
import Aetus.Base.Dict
import Aetus.Base.Table
import Aetus.Base.Base64
import Aetus.Base.Json
import Aetus.Base.Lists
import Aetus.Base.Search
import Aetus.Base.StarSchema
import Aetus.Ingest.RateLimit
import Aetus.Ingest.BucketCount
import Aetus.Ingest.ControlDb
import Aetus.Ingest.DeviceRegistry
import Aetus.Ingest.DeviceIds
import Aetus.Ingest.AdminSessions
import Aetus.Ingest.AdminAccess
import Aetus.Base.Pages
import Aetus.Ingest.DevicePages
import Aetus.Ingest.AdminClients
import Aetus.Base.Glob
import Aetus.Base.Padded
import Aetus.Ingest.ControlBackup
import Aetus.Base.Exposition
import Aetus.Ingest.Metrics
import Aetus.Ingest.Normalize
import Aetus.Ingest.Publisher
import Aetus.Ingest.Handler
import Aetus.Ingest.Admission
import Aetus.Ingest.Delivery
import Aetus.Ingest.Conformance
import Aetus.Ingest.TimeSync
import Aetus.Firmware.TimeSync
import Aetus.Base.Buffer
import Aetus.Firmware.HttpBody
import Aetus.EndToEnd.TimeSync
import Aetus.Postgres.Staging
import Aetus.Postgres.FinalTables
import Aetus.EndToEnd.Resend
import Aetus.Base.Cuts
import Aetus.Base.Grid
import Aetus.Base.LittleEndian
import Aetus.Query.SignalDecode
import Aetus.Anomaly.Repository
import Aetus.EndToEnd.SignalDecoding
import Aetus.Clients.SignalSamples
import Aetus.Clients.Events
import Aetus.Clients.SendSequence
import Aetus.EndToEnd.SignalPacking
import Aetus.EndToEnd.FrameAcceptance
import Aetus.EndToEnd.ArrayPacking
import Aetus.Base.Rounding
import Aetus.Base.Binary64
import Aetus.Base.OrderedDict
import Aetus.Base.Sorting
import Aetus.Base.Tracks
import Aetus.Postgres.Telemetry
import Aetus.Query.Series
import Aetus.Query.FrameSamples
import Aetus.Query.SeriesFaithful
import Aetus.Query.Repository
import Aetus.Query.Features
import Aetus.Query.SummaryFaithful
import Aetus.Anomaly.Windows
import Aetus.Anomaly.FrameWindows
import Aetus.EndToEnd.SampleTimes
import Aetus.EndToEnd.RangeSelection
import Aetus.Base.Quote
import Aetus.Base.Effects
import Aetus.Base.Upserts
import Aetus.Base.Register
import Aetus.Base.Custody
import Aetus.Base.Attempts
import Aetus.Query.Auth
import Aetus.Query.App
import Aetus.Query.View
import Aetus.Query.Noninterference
import Aetus.Query.TimeUtils
import Aetus.Query.CacheRequests
import Aetus.Query.DeviceSearch
import Aetus.Query.StreamEntries
import Aetus.EndToEnd.ReadBack
import Aetus.Query.Limits
import Aetus.Query.Coverage
import Aetus.Query.Envelope
import Aetus.Base.Moments
import Aetus.Query.ChannelStats
import Aetus.Query.RollupSeries
import Aetus.Query.SampleVisibility
import Aetus.Anomaly.Models
import Aetus.Anomaly.Detectors
import Aetus.Anomaly.EmptyWindows
import Aetus.Anomaly.Downsample
import Aetus.Anomaly.FoldedDetectors
import Aetus.Anomaly.Jobs
import Aetus.Anomaly.Worker
import Aetus.Anomaly.Counts
import Aetus.Anomaly.MissingData
import Aetus.Anomaly.Anchors
import Aetus.Anomaly.Isolation
import Aetus.Anomaly.Events
import Aetus.Anomaly.Rerun
import Aetus.Anomaly.CutOff
import Aetus.Anomaly.Webhooks
import Aetus.Anomaly.Dispatcher
import Aetus.Anomaly.DeliveryCounts
import Aetus.Anomaly.WorstDetection
import Aetus.Anomaly.JobState
import Aetus.Base.Latest
import Aetus.Frontend.StreamViewer
import Aetus.Base.Progress
import Aetus.Firmware.UploadProgress
import Aetus.Base.Merging
import Aetus.EndToEnd.EventMessages
import Aetus.EndToEnd.DeviceEvents
import Aetus.EndToEnd.DeviceFrames
import Aetus.EndToEnd.DeviceMetrics
import Aetus.EndToEnd.DeviceUploads
import Aetus.EndToEnd.ExactlyOnce
import Aetus.Anomaly.DispatchOrder
import Aetus.Base.Ledger
import Aetus.Ingest.Service
import Aetus.Ingest.TokenCustody
import Aetus.Ingest.BootstrapRate
import Aetus.Base.Sticky
import Aetus.Firmware.FrameCalls
import Aetus.EndToEnd.ClassFrames
import Aetus.Firmware.TelemetryCalls
import Aetus.Anomaly.ValueAlarms
import Aetus.EndToEnd.DeviceAlarms
import Aetus.Query.Staleness
import Aetus.Query.Grants
