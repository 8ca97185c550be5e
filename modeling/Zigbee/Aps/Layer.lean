import Zigbee.Aps.FragmentTx
import Zigbee.Aps.Frames
import Zigbee.Aps.Security

/-!
# State of the APS layer

Model of `ApsLayer` (`zigbee-aps/src/lib.rs`): the queued acknowledgement, the duplicate table, the
acknowledgements that are waited for, and the replay floors that wait for an upper layer.

Of the NWK layer, the NIB and the AIB it holds what the APS frames read.  The clock and the answers of
the address and group tables are arguments.  The binding table, the tunnelled frame, the join method
and the handshake statistics are left out: no function of the model reads them.
-/

namespace Zigbee.Aps

open Bytes (Buf)
open Zigbee.Runtime (ApsReplayCounter)
open Table (modifyFirst)

/-- Pending APS ACK to be sent, queued during receive processing. -/
structure PendingApsAck where
  dstAddr : ShortAddress
  dstEndpoint : UInt8
  srcEndpoint : UInt8
  clusterId : UInt16
  profileId : UInt16
  apsCounter : UInt8
  command : Bool
  fragment : Option FragmentAck
  /-- The key that verified the acknowledged data frame. -/
  apsSecurity : Option ApsKeyOrigin

structure ApsAckHandle where
  dstAddr : ShortAddress
  generation : UInt16
  apsCounter : UInt8
  deriving DecidableEq

def APS_DUP_TABLE_SIZE (router : Bool) : Nat := if router then 16 else 4

structure ApsDuplicateEntry where
  srcAddr : ShortAddress
  apsCounter : UInt8
  /-- The first block of the final window of a completed fragmented transaction. -/
  fragmentWindow : Option Nat
  acceptedAtUs : UInt32
  active : Bool

def ApsDuplicateEntry.empty : ApsDuplicateEntry := ⟨0, 0, none, 0, false⟩

/-- What reception recorded for the frame that awaits a durable commit. -/
inductive ApsRxRollback where
  | duplicate (srcAddr : ShortAddress) (apsCounter : UInt8)
  | fragmentBlock (srcAddr : ShortAddress) (apsCounter : UInt8) (block : Nat)

/-- Everything needed to secure a retransmission again. -/
structure PendingApsSecurity where
  origin : ApsKeyOrigin
  srcIeee : IeeeAddress
  headerLen : Nat

structure PendingApsAckEntry where
  active : Bool
  generation : UInt16
  apsCounter : UInt8
  dstAddr : ShortAddress
  confirmed : Bool
  retries : Nat
  waitingSinceUs : UInt32
  /-- The bytes that went out, or the plaintext of a secured frame. -/
  originalFrame : Buf
  security : Option PendingApsSecurity

/-- The secured addressing of the fragmented transaction in flight. -/
structure FragmentTxSecurity where
  origin : ApsKeyOrigin
  srcIeee : IeeeAddress

/-- The fields of the transaction in flight that its blocks repeat. -/
structure FragmentTxRequest where
  dstEndpoint : UInt8
  srcEndpoint : UInt8
  clusterId : UInt16
  profileId : UInt16
  security : Option FragmentTxSecurity

structure ApsLayer where
  /-- The build feature. -/
  router : Bool
  ieeeAddress : IeeeAddress
  outgoingFrameCounter : UInt32
  outgoingFrameCounterLimit : UInt32
  /-- There is an active network key. -/
  networkKeyActive : Bool
  /-- `parent_link_provisional` of the NIB. -/
  parentLinkProvisional : Bool
  apsTrustCenterAddress : IeeeAddress
  apsDuplicateRejectionTimeout : UInt16
  apsMaxWindowSize : Nat
  apsMaxFrameRetries : Nat
  security : ApsSecurity
  apsCounter : UInt8
  pendingApsAck : Option PendingApsAck
  pendingSecurityIndicationPersistence : Bool
  pendingSecurityIndicationReplay : Option ApsReplayCounter
  applicationLinkKeyInstallationEnabled : Bool
  networkKeyPersistenceEnabled : Bool
  pendingNetworkKeyPersistence : Bool
  pendingNetworkKeyReplay : Option ApsReplayCounter
  pendingApplicationKeyPersistence : Bool
  pendingApplicationKeyReplay : Option ApsReplayCounter
  pendingDataReplay : Option ApsReplayCounter
  dupTable : List ApsDuplicateEntry
  pendingRxRollback : Option ApsRxRollback
  fragmentTx : FragmentTx
  fragmentTxRequest : FragmentTxRequest
  ackTable : List PendingApsAckEntry
  ackCompletions : List ApsAckHandle
  nextAckGeneration : UInt16
  consecutiveAckFailures : Nat
  fragmentRx : FragmentReassembly

namespace ApsLayer

/-- A layer that has not received or sent anything, over a NIB, an AIB and a key table. -/
def boot (router : Bool) (ieeeAddress trustCenter : IeeeAddress) (outgoingFrameCounter limit : UInt32)
    (networkKeyActive : Bool) (security : ApsSecurity) : ApsLayer where
  router
  ieeeAddress
  outgoingFrameCounter
  outgoingFrameCounterLimit := limit
  networkKeyActive
  parentLinkProvisional := false
  apsTrustCenterAddress := trustCenter
  apsDuplicateRejectionTimeout := 3000
  apsMaxWindowSize := 8
  apsMaxFrameRetries := 3
  security
  apsCounter := 0
  pendingApsAck := none
  pendingSecurityIndicationPersistence := false
  pendingSecurityIndicationReplay := none
  applicationLinkKeyInstallationEnabled := false
  networkKeyPersistenceEnabled := false
  pendingNetworkKeyPersistence := false
  pendingNetworkKeyReplay := none
  pendingApplicationKeyPersistence := false
  pendingApplicationKeyReplay := none
  pendingDataReplay := none
  dupTable := List.replicate (APS_DUP_TABLE_SIZE router) .empty
  pendingRxRollback := none
  fragmentTx := ⟨none, none⟩
  fragmentTxRequest := ⟨0, 0, 0, 0, none⟩
  ackTable := []
  ackCompletions := []
  nextAckGeneration := 1
  consecutiveAckFailures := 0
  fragmentRx := .new

/-! ## Durable commits of an upper layer -/

/-- `FragmentReassembly::rollback_block`. -/
def rollbackBlock (t : FragmentReassembly) (srcAddr : ShortAddress) (apsCounter : UInt8) (block : Nat) :
    FragmentReassembly :=
  if APS_MAX_FRAGMENT_BLOCKS ≤ block then t
  else
    modifyFirst (fun e => e.active && e.srcAddr == srcAddr && e.apsCounter == apsCounter) (fun e =>
      let e : ReassemblyEntry := { e with delivered := false }
      let e : ReassemblyEntry :=
        if e.has block then
          { e with
            received := BitSet.erase e.received block
            -- the block that was stored last gives its storage back
            data :=
              if e.blockOffset block + e.blockLen block = e.data.length then e.data.take (e.blockOffset block)
              else e.data }
        else e
      if e.received = 0 then e.reset else e) t

/-! ## The duplicate table -/

/-- A timeout of 16 bits never saturates the product. -/
def duplicateRejectionTimeoutUs (l : ApsLayer) : UInt32 := l.apsDuplicateRejectionTimeout.toUInt32 * 1000

def dupEntryLive (e : ApsDuplicateEntry) (now timeoutUs : UInt32) : Bool :=
  e.active && decide (now - e.acceptedAtUs < timeoutUs)

/-- The first live entry of the transaction. -/
def findDuplicate (l : ApsLayer) (now : UInt32) (srcAddr : ShortAddress) (apsCounter : UInt8) (fragmented : Bool) :
    Option ApsDuplicateEntry :=
  l.dupTable.find? fun e =>
    dupEntryLive e now l.duplicateRejectionTimeoutUs && e.srcAddr == srcAddr && e.apsCounter == apsCounter &&
      e.fragmentWindow.isSome == fragmented

/-- The first slot that is not live, else the oldest. -/
def duplicateSlot (l : ApsLayer) (now : UInt32) : Option Nat :=
  (l.dupTable.findIdx? fun e => !dupEntryLive e now l.duplicateRejectionTimeoutUs).or
    ((maxByKey (fun p : ApsDuplicateEntry × Nat => (now - p.1.acceptedAtUs).toNat) l.dupTable.zipIdx).map (·.2))

def recordDuplicate (l : ApsLayer) (now : UInt32) (srcAddr : ShortAddress) (apsCounter : UInt8)
    (fragmentWindow : Option Nat) : ApsLayer :=
  match l.duplicateSlot now with
  | none => l
  | some idx => { l with dupTable := l.dupTable.set idx ⟨srcAddr, apsCounter, fragmentWindow, now, true⟩ }

def isApsDuplicate (l : ApsLayer) (now : UInt32) (srcAddr : ShortAddress) (apsCounter : UInt8) : ApsLayer × Bool :=
  if (l.findDuplicate now srcAddr apsCounter false).isSome then (l, true)
  else (l.recordDuplicate now srcAddr apsCounter none, false)

/-- `age_dup_table`, whose part on reassembly sessions is left out. -/
def ageDupTable (l : ApsLayer) (now : UInt32) : ApsLayer :=
  { l with dupTable := l.dupTable.map fun e =>
      if e.active && !dupEntryLive e now l.duplicateRejectionTimeoutUs then { e with active := false } else e }

end ApsLayer

end Zigbee.Aps
