import VoipMonitor.Proofs.AddressListRuns
import VoipMonitor.Proofs.BlocksInfoRuns
import VoipMonitor.Proofs.CleanupCallsPush
import VoipMonitor.Proofs.CompressedRuns
import VoipMonitor.Proofs.CountryLookup
import VoipMonitor.Proofs.CountryNoninterference
import VoipMonitor.Proofs.CsvRoundTrip
import VoipMonitor.Proofs.DequeueRuns
import VoipMonitor.Proofs.DiameterAvps
import VoipMonitor.Proofs.DiameterReads
import VoipMonitor.Proofs.DiameterStackRuns
import VoipMonitor.Proofs.ExtHeaderChain
import VoipMonitor.Proofs.FailedPop
import VoipMonitor.Proofs.FifoPositionReads
import VoipMonitor.Proofs.FormulaFolding
import VoipMonitor.Proofs.FormulaLists
import VoipMonitor.Proofs.FraudAlertKinds
import VoipMonitor.Proofs.FraudRccRuns
import VoipMonitor.Proofs.GeoIpLookup
import VoipMonitor.Proofs.HashQueueRuns
import VoipMonitor.Proofs.HeapAccounting
import VoipMonitor.Proofs.HepEnds
import VoipMonitor.Proofs.HepReads
import VoipMonitor.Proofs.IpFixFraming
import VoipMonitor.Proofs.IpFixSipReads
import VoipMonitor.Proofs.IpReassemblyRuns
import VoipMonitor.Proofs.JitterBufferRuns
import VoipMonitor.Proofs.JsonExportText
import VoipMonitor.Proofs.LinkCleanup
import VoipMonitor.Proofs.LinkLayerReads
import VoipMonitor.Proofs.MirrorDelivery
import VoipMonitor.Proofs.MirrorSyncRuns
import VoipMonitor.Proofs.NatAliasRules
import VoipMonitor.Proofs.PacketDuplRuns
import VoipMonitor.Proofs.ParseDataMessages
import VoipMonitor.Proofs.PeakBoundary
import VoipMonitor.Proofs.PrepareLiterals
import VoipMonitor.Proofs.QueryFileRuns
import VoipMonitor.Proofs.RQueueFifo
import VoipMonitor.Proofs.ReassemblyBufferRuns
import VoipMonitor.Proofs.RtcpBounds
import VoipMonitor.Proofs.RtcpDelay
import VoipMonitor.Proofs.RtpLoss
import VoipMonitor.Proofs.RtpPayloadBounds
import VoipMonitor.Proofs.RtpShift
import VoipMonitor.Proofs.SafeAsyncQueueFifo
import VoipMonitor.Proofs.SdpRouting
import VoipMonitor.Proofs.ServerBlocksAdd
import VoipMonitor.Proofs.SipOffsets
import VoipMonitor.Proofs.SipTcpCache
import VoipMonitor.Proofs.SkippedPrefixes
import VoipMonitor.Proofs.SocketBlockReads
import VoipMonitor.Proofs.SocketLines
import VoipMonitor.Proofs.SocketWriteWhole
import VoipMonitor.Proofs.SpoolReconfigure
import VoipMonitor.Proofs.StoreQueueFifo
import VoipMonitor.Proofs.TarReadBack
import VoipMonitor.Proofs.TariffPrefixes
import VoipMonitor.Proofs.TcpBounds
import VoipMonitor.Proofs.TcpCheckEnds
import VoipMonitor.Proofs.TcpCheckRows
import VoipMonitor.Proofs.TcpOnce
import VoipMonitor.Proofs.TcpOverlap
import VoipMonitor.Proofs.TelnumLongest
import VoipMonitor.Proofs.TimeCacheRuns
import VoipMonitor.Proofs.WebsocketFrames
