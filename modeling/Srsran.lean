import Srsran.Rlc.StatusTrim
import Srsran.Rlc.StatusReport
import Srsran.Rlc.StatusHandover
import Srsran.Rlc.SduQueueSafety
import Srsran.Rlc.RxUmTimer
import Srsran.Rlc.RxUmDelivery
import Srsran.Rlc.RxUmRotation
import Srsran.Rlc.UmTransfer
import Srsran.Rlc.SegmentPeers
import Srsran.Pdcp.CountReconstruction
import Srsran.Pdcp.RxCountUse
import Srsran.EdgeRic.Removal
import Srsran.EdgeRic.Attribution
import Srsran.EdgeRic.RlcMerge
import Srsran.EdgeRic.McsControl
import Srsran.Gtpu.PduRoundTrip
import Srsran.Gtpu.TunnelNguRxState
import Srsran.Ran.SlotArithmetic
import Srsran.Adt.SoaTableRuns
import Srsran.Scheduler.PendingData
import Srsran.Scheduler.DlTransportBlock
import Srsran.Scheduler.InterSliceLimits
import Srsran.Scheduler.HarqTimeouts
import Srsran.Scheduler.HarqAckCombination
import Srsran.Scheduler.PdcchAllocation
import Srsran.Mac.DlHarqBufferOwnership
import Srsran.Mac.UlSchParsing
import Srsran.Mac.DlSchNewTx
import Srsran.Phy.UplinkRuns
import Srsran.Phy.DownlinkHandOver
import Srsran.CuCp.UpRuns
import Srsran.Ofh.PacketReception
import Srsran.Phy.RxBufferReuse
import Srsran.Scheduler.ResourceRing
import Srsran.Ofh.FrameConservation
import Srsran.Adt.ByteBufferPrepend
import Srsran.Pdcp.TxDiscardTiming
import Srsran.Pdcp.TxFailures
import Srsran.Rlc.RetxQueueCounters
import Srsran.Rlc.TxAmPolling
import Srsran.Scheduler.BitRateRuns
import Srsran.Scheduler.GrantSplit
import Srsran.Mac.RntiManager
import Srsran.Scheduler.CarrierGridQueries
import Srsran.Ran.VrbToPrbRanges
import Srsran.Scheduler.PdcchCandidateCrbs
import Srsran.Scheduler.PucchReservation
import Srsran.Scheduler.PrbsCalculator
import Srsran.Nru.NruRoundTrip
import Srsran.Phy.CrcRemainder
import Srsran.Ofh.BfpCompression
import Srsran.Ofh.DownlinkBurst
