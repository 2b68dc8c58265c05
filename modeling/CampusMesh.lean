import CampusMesh.Library.Action
import CampusMesh.Library.ByteBuffer
import CampusMesh.Library.Duplex
import CampusMesh.Library.FloatingPoint
import CampusMesh.Library.History
import CampusMesh.Library.LeastFirst
import CampusMesh.Library.Network
import CampusMesh.Library.OrderedMap
import CampusMesh.Library.PieceCoverage
import CampusMesh.Library.Potential
import CampusMesh.Library.Reassembly
import CampusMesh.Library.Runs
import CampusMesh.Library.Shelf
import CampusMesh.Library.Slicing
import CampusMesh.Library.SlidingWindow
import CampusMesh.Library.Stripping
import CampusMesh.Server.Authorization
import CampusMesh.Server.CampusServer
import CampusMesh.Server.ChunkStream
import CampusMesh.Server.ControlAuthenticity
import CampusMesh.Server.Database
import CampusMesh.Server.Gateway
import CampusMesh.Server.HeldBytes
import CampusMesh.Server.HubEffects
import CampusMesh.Server.InactiveSessions
import CampusMesh.Server.Json
import CampusMesh.Server.LateGrants
import CampusMesh.Server.LimitedRequests
import CampusMesh.Server.LocalDiskStorage
import CampusMesh.Server.ManifestGenerator
import CampusMesh.Server.MeaningfulMetrics
import CampusMesh.Server.Passcodes
import CampusMesh.Server.PublishedFiles
import CampusMesh.Server.RateLimiter
import CampusMesh.Server.Registration
import CampusMesh.Server.RequestEffects
import CampusMesh.Server.ResourceCatalog
import CampusMesh.Server.ResourceService
import CampusMesh.Server.ResourceUpload
import CampusMesh.Server.RoomManager
import CampusMesh.Server.RoomMembership
import CampusMesh.Server.SafeFileName
import CampusMesh.Server.ServableResources
import CampusMesh.Server.SessionCodes
import CampusMesh.Server.SessionIsolation
import CampusMesh.Server.SessionService
import CampusMesh.Server.SignalingServer
import CampusMesh.Server.StreamedManifest
import CampusMesh.Server.TelemetryBaseline
import CampusMesh.Server.TelemetryManager
import CampusMesh.Server.TelemetryMembership
import CampusMesh.Server.UploadAtomicity
import CampusMesh.Server.UploadLimit
import CampusMesh.Shared.Bitfield
import CampusMesh.Shared.BitfieldSet
import CampusMesh.Shared.Constants
import CampusMesh.Shared.EncoderFields
import CampusMesh.Shared.ProtocolTypes
import CampusMesh.Shared.ProtocolWire
import CampusMesh.Shared.Runtime
import CampusMesh.Shared.TextCodec
import CampusMesh.Shared.WireGrammar
import CampusMesh.Web.Advertisement
import CampusMesh.Web.AlternatePeer
import CampusMesh.Web.Backpressure
import CampusMesh.Web.ChunkMap
import CampusMesh.Web.ChunkScheduler
import CampusMesh.Web.ChunkStore
import CampusMesh.Web.Classroom
import CampusMesh.Web.ConnectionTable
import CampusMesh.Web.CoordinatorInvariants
import CampusMesh.Web.CoordinatorMoves
import CampusMesh.Web.DataChannel
import CampusMesh.Web.DepartedPeers
import CampusMesh.Web.DownloadProgress
import CampusMesh.Web.DownloadState
import CampusMesh.Web.FileAssembly
import CampusMesh.Web.GenuineChunks
import CampusMesh.Web.GlareFreedom
import CampusMesh.Web.GreedyScheduling
import CampusMesh.Web.HonestTransfer
import CampusMesh.Web.IceCandidates
import CampusMesh.Web.IndexedDbStore
import CampusMesh.Web.IntegrityVerifier
import CampusMesh.Web.LiveDownload
import CampusMesh.Web.MemoryChunkMap
import CampusMesh.Web.P2PTelemetry
import CampusMesh.Web.PeerBooks
import CampusMesh.Web.PeerKnowledge
import CampusMesh.Web.PeerLoads
import CampusMesh.Web.PeerMeshCoordinator
import CampusMesh.Web.PeerSignaling
import CampusMesh.Web.PieceReassembly
import CampusMesh.Web.RemainingWork
import CampusMesh.Web.RequestBooks
import CampusMesh.Web.RetryBudget
import CampusMesh.Web.RetryRecursion
import CampusMesh.Web.SchedulerAcquisition
import CampusMesh.Web.SchedulerBitfields
import CampusMesh.Web.SchedulerCapacity
import CampusMesh.Web.SchedulerIntegrity
import CampusMesh.Web.SchedulerMoves
import CampusMesh.Web.SchedulerPeers
import CampusMesh.Web.SchedulerProgress
import CampusMesh.Web.SchedulerReports
import CampusMesh.Web.SchedulerRuns
import CampusMesh.Web.SchedulerSteps
import CampusMesh.Web.ServedChunks
import CampusMesh.Web.SignalingConnection
import CampusMesh.Web.SignalingPairing
import CampusMesh.Web.SignalingViews
import CampusMesh.Web.SingleAcquisition
import CampusMesh.Web.StoppedScheduler
import CampusMesh.Web.StorageFallback
import CampusMesh.Web.Swarm
import CampusMesh.Web.TimersAndBlocks
import CampusMesh.Web.TruthfulSends
import CampusMesh.Web.UnsolicitedPieces
import CampusMesh.Web.UseSignaling
