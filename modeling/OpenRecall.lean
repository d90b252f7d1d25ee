import OpenRecall.Analysis.Deliverability
import OpenRecall.Model.CommandIssue
import OpenRecall.Model.Settings
import OpenRecall.Model.SettingsLoop
import OpenRecall.Analysis.Reconciliation
import OpenRecall.Foundation.Ring
import OpenRecall.Model.DeviceCommands
import OpenRecall.Analysis.DeviceAcks
import OpenRecall.Analysis.GattQueue
import OpenRecall.Foundation.Windows
import OpenRecall.Model.EventStore
import OpenRecall.Model.Extraction
import OpenRecall.Model.ExtractionWorker
import OpenRecall.Analysis.Windowing
import OpenRecall.Analysis.IndexConsistency
import OpenRecall.Analysis.DeadLetter
import OpenRecall.Model.AudioPacket
import OpenRecall.Model.Gateway
import OpenRecall.Analysis.EventSequence
import OpenRecall.Analysis.CursorSafety
import OpenRecall.Foundation.Slots
import OpenRecall.Model.AudioStore
import OpenRecall.Model.Ingest
import OpenRecall.Analysis.Timeline
import OpenRecall.Analysis.SlotSemantics
import OpenRecall.Analysis.TornLog
import OpenRecall.Analysis.Reassembly
import OpenRecall.Analysis.SessionEnd
import OpenRecall.Foundation.Packing
import OpenRecall.Model.C6Packet
import OpenRecall.Model.RingBuffer
import OpenRecall.Model.BleDrain
import OpenRecall.Analysis.ReplayBounds
import OpenRecall.Analysis.PacketTime
import OpenRecall.Analysis.DrainReads
import OpenRecall.Analysis.DecodedOnce
import OpenRecall.Analysis.ExecutableCommands
import OpenRecall.Analysis.ActiveSessions
import OpenRecall.Model.RelayService
import OpenRecall.Analysis.RelayDrops
import OpenRecall.Foundation.Labels
import OpenRecall.Analysis.ReExtraction
import OpenRecall.Model.AgentAction
import OpenRecall.Model.Planner
import OpenRecall.Model.DirectWriters
import OpenRecall.Analysis.Searchability
import OpenRecall.Model.CommandAck
import OpenRecall.Analysis.RecordMirror
import OpenRecall.Foundation.BoundedQueue
import OpenRecall.Model.InferenceWorker
import OpenRecall.Analysis.FrameQueue
import OpenRecall.Model.ExtractionEnqueuer
import OpenRecall.Analysis.ExtractionQueue
import OpenRecall.Analysis.PlannerSafety
import OpenRecall.Model.RequestLedger
import OpenRecall.Model.McpTools
import OpenRecall.Analysis.Provenance
import OpenRecall.Model.Segments
import OpenRecall.Analysis.SegmentRuns
import OpenRecall.Analysis.SegmentRebuild
import OpenRecall.Analysis.SegmentPartition
import OpenRecall.Analysis.ArrivalOrder
import OpenRecall.Analysis.PacketCodec
import OpenRecall.Foundation.Crc
import OpenRecall.Foundation.OggStream
import OpenRecall.Model.OggMux
import OpenRecall.Analysis.OggMuxing
import OpenRecall.Foundation.Base64
import OpenRecall.Foundation.Calendar
import OpenRecall.Foundation.Keyset
import OpenRecall.Foundation.IsoTime
import OpenRecall.Foundation.JsonText
import OpenRecall.Model.Paging
import OpenRecall.Model.SessionIndex
import OpenRecall.Model.Listings
import OpenRecall.Analysis.CursorPaging
import OpenRecall.Model.SqliteAtoms
import OpenRecall.Analysis.AtomBackends
import OpenRecall.Foundation.KeyedUpdate
import OpenRecall.Model.SpeakerRegistry
import OpenRecall.Model.SpeakerIdentifier
import OpenRecall.Model.SpeakerReassign
import OpenRecall.Analysis.SpeakerCorrection
import OpenRecall.Model.Snapshots
import OpenRecall.Analysis.SnapshotTime
import OpenRecall.Model.RelaySession
import OpenRecall.Analysis.RelayOrder
import OpenRecall.Foundation.SpacedWords
import OpenRecall.Foundation.SlidingWindow
import OpenRecall.Model.StreamingTranscriber
import OpenRecall.Analysis.HeardWords
import OpenRecall.Analysis.EachWordOnce
import OpenRecall.Analysis.RepeatedSpeech
import OpenRecall.Model.SentenceCoalescer
import OpenRecall.Analysis.SentenceBounds
import OpenRecall.Foundation.TrailingRun
import OpenRecall.Model.UtteranceTranscriber
import OpenRecall.Analysis.UtteranceSlices
import OpenRecall.Foundation.CursorBudget
import OpenRecall.Analysis.GapSilence
import OpenRecall.Model.SegmentDeletion
import OpenRecall.Analysis.SegmentErasure
import OpenRecall.Analysis.LiveDrain
import OpenRecall.Analysis.ReplayContent
import OpenRecall.Analysis.RingWindow
import OpenRecall.Model.SpeakerClustering
import OpenRecall.Analysis.SpeakerPromotion
import OpenRecall.Analysis.RegistryOps
import OpenRecall.Analysis.SpeakerMinting
import OpenRecall.Analysis.WearerEnrollment
import OpenRecall.Model.CommandDetector
import OpenRecall.Foundation.StableSort
import OpenRecall.Analysis.CommandTriggers
import OpenRecall.Analysis.CommandShadowing
import OpenRecall.Model.ProactiveOutbox
import OpenRecall.Analysis.ProactiveDelivery
import OpenRecall.Foundation.TopItems
import OpenRecall.Model.Retrieval
import OpenRecall.Analysis.RetrievalTop
import OpenRecall.Model.MemoryIndexes
import OpenRecall.Analysis.IndexBackends
import OpenRecall.Foundation.RateWindow
import OpenRecall.Analysis.ActionRate
import OpenRecall.Analysis.ReplyParsing
import OpenRecall.Analysis.RelaySurvival
import OpenRecall.Analysis.RecordingList
import OpenRecall.Model.SegmentRepository
import OpenRecall.Model.Manifest
import OpenRecall.Analysis.ManifestTrim
import OpenRecall.Model.AudioRetention
import OpenRecall.Analysis.SlotCounts
import OpenRecall.Model.VisionRetention
import OpenRecall.Analysis.ImageRetention
import OpenRecall.Foundation.IntText
import OpenRecall.Model.RangeServing
import OpenRecall.Analysis.RangeExactness
import OpenRecall.Foundation.JsonScan
import OpenRecall.Model.StampedListings
import OpenRecall.Analysis.CursorErrors
import OpenRecall.Foundation.SecondOrder
import OpenRecall.Model.AudioFilters
import OpenRecall.Analysis.WindCut
import OpenRecall.Analysis.DcRemoval
import OpenRecall.Model.Button
import OpenRecall.Analysis.ButtonGestures
import OpenRecall.Model.Vad
import OpenRecall.Analysis.VadLaw
import OpenRecall.Analysis.CommandLifecycle
import OpenRecall.Analysis.RegistryAgreement
import OpenRecall.Model.VideoCapture
import OpenRecall.Foundation.TaskTable
import OpenRecall.Analysis.ClipOwnership
import OpenRecall.Model.Provisioning
import OpenRecall.Analysis.ProvisionedBoot
import OpenRecall.Foundation.DecimalBytes
import OpenRecall.Model.MediaIndex
import OpenRecall.Analysis.MediaIndexFormats
import OpenRecall.Foundation.IsoOrder
import OpenRecall.Model.Datetimes
import OpenRecall.Model.Reminders
import OpenRecall.Analysis.ReminderSchedule
import OpenRecall.Analysis.RemindersDue
import OpenRecall.Foundation.Wildcards
import OpenRecall.Model.EventSearch
import OpenRecall.Analysis.LikeSearch
import OpenRecall.Analysis.SearchBackends
import OpenRecall.Model.SpeakerNudges
import OpenRecall.Analysis.NudgePace
import OpenRecall.Foundation.KeyedTable
import OpenRecall.Model.SegmentTitles
import OpenRecall.Analysis.TitleProtection
import OpenRecall.Model.EventEdits
import OpenRecall.Analysis.EventBackends
import OpenRecall.Model.SessionActivity
import OpenRecall.Analysis.SessionSummaries
import OpenRecall.Model.FallbackPlanner
import OpenRecall.Analysis.OutageCalls
import OpenRecall.Model.MediaCard
import OpenRecall.Analysis.PictureFiles
import OpenRecall.Model.TransferWindow
import OpenRecall.Analysis.RadioSharing
import OpenRecall.Foundation.SortedGroups
import OpenRecall.Model.AsrBackends
import OpenRecall.Analysis.BackendTokens
import OpenRecall.Analysis.AudioBackfill
import OpenRecall.Analysis.SpokenCommands
