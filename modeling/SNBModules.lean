import SNBModules.Readout.RunBoundary
import SNBModules.Readout.Completeness
import SNBModules.Readout.WaitingRequests
import SNBModules.Readout.CleanupLock
import SNBModules.Readout.FileReplay
import SNBModules.Readout.PostProcessing
import SNBModules.Readout.SharedTimestamps
import SNBModules.Transfer.BookkeeperUpdates
import SNBModules.Transfer.BookkeeperStore
import SNBModules.Transfer.FileStates
import SNBModules.Transfer.ReplicaConvergence
import SNBModules.Transfer.Addressing
import SNBModules.Transfer.SessionIds
import SNBModules.Transfer.CreateTransfer
import SNBModules.Transfer.Handshake
import SNBModules.Transfer.HandlerTotality
import SNBModules.Readout.WindowCollection
import SNBModules.Readout.FileDelivery
import SNBModules.Readout.TransformTriggers
import SNBModules.Transfer.Duration
import SNBModules.Transfer.SaveLoad
import SNBModules.Transfer.RCloneRequests
import SNBModules.Transfer.BitTorrentExit
import SNBModules.Transfer.BitTorrentLookups
import SNBModules.Transfer.AtomicAlerts
import SNBModules.Readout.RetryOnArrival
import SNBModules.Transfer.SendRetries
import SNBModules.Transfer.UpdateRequests
import SNBModules.Transfer.AtomicUpdate
import SNBModules.Transfer.GroupFiles
import SNBModules.Transfer.RecordRouting
import SNBModules.Transfer.UnknownFile
import SNBModules.Transfer.TransferCommands
import SNBModules.Transfer.RecordedPath
import SNBModules.Transfer.WaitingFiles
import SNBModules.Readout.ConfFailure
import SNBModules.Readout.RingCopy
import SNBModules.Transfer.AddressFormat
import SNBModules.Transfer.PathStripping
import SNBModules.Transfer.Progress
import SNBModules.Transfer.RemoveSession
import SNBModules.Transfer.PausedTorrents
import SNBModules.Transfer.ResumeData
import SNBModules.Transfer.MessageStorms
import SNBModules.Readout.Statistics
import SNBModules.Readout.TimeSync
import SNBModules.Readout.Transform
import SNBModules.Transfer.Discovery
import SNBModules.Transfer.FollowedSession
import SNBModules.Transfer.Scp
import SNBModules.Transfer.RCloneJobs
