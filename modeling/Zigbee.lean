import Zigbee.Runtime.SecurityJournal.Retention
import Zigbee.Runtime.RecordVersions
import Zigbee.Nwk.ReplayAgreement
import Zigbee.Nwk.RouteUniqueness
import Zigbee.Nwk.CounterOrder
import Zigbee.Nwk.RouteRecords
import Zigbee.Nwk.LinkStatus
import Zigbee.Nwk.Association
import Zigbee.Aps.FragmentProgress
import Zigbee.Aps.ReassemblyOrder
import Zigbee.Runtime.CounterRanges
import Zigbee.Runtime.ApplicationKeyCounters
import Zigbee.Runtime.SnapshotCodecs
import Zigbee.Runtime.TrustCenterJournal
import Zigbee.Runtime.LogNvTorn
import Zigbee.Nwk.IndirectFifo
import Zigbee.Nwk.BroadcastSchedule
import Zigbee.Mcuboot.Validation
import Zigbee.Mcuboot.Signature
import Zigbee.Aps.DuplicateRejection
import Zigbee.Runtime.PanIdTransition
import Zigbee.Aps.HeaderCodec
import Zigbee.Runtime.TrustCenterAdmission
import Zigbee.Runtime.OtaDownload
import Zigbee.Nwk.PanIdFailure
import Zigbee.Nwk.RouteReclaim
import Zigbee.Zcl.TransitionManager
import Zigbee.Zcl.WriteAttributes
import Zigbee.Runtime.TrustCenterTimers
import Zigbee.Crypto.InstallCode
import Zigbee.Zcl.Discover
import Zigbee.Zcl.Scenes
import Zigbee.Mac.AckPending
import Zigbee.Nwk.TreeRouting
import Zigbee.Runtime.SecurityJournal.Duplicates
import Zigbee.Aps.KeyTable
import Zigbee.Mac.ParentRole
import Zigbee.Zdo.ParentSequence
import Zigbee.Zdo.AddressAnswers
import Zigbee.Zcl.ReportingMessages
import Zigbee.Runtime.ReportingRestore
import Zigbee.Mcuboot.P256
