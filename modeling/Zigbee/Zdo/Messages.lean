import Zigbee.Lib.Indexed
import Zigbee.Zdo.ParentAnnce

/-!
# ZDP messages

Model of the parsers of `zigbee-zdo/src/descriptors.rs`, `discovery.rs`, `binding_mgmt.rs` and
`network_mgmt.rs`.  An index past the end of the payload traps; a bounded `Vec` is a list with a capacity
at every push.

* The descriptors, the discovery messages, the bind messages, the management messages, each with its parser
  under the source's name.
* `X.parse_safe` — the parser of `X` never traps.
* `NwkAddrRsp.parse_safe_iff` — the one that does.
-/

namespace Zigbee.Zdo

open Bytes Checked Indexed

/-! ## Status codes -/

inductive ZdpStatus where
  | success
  | invRequestType
  | deviceNotFound
  | invalidEp
  | notActive
  | notSupported
  | timeout
  | noMatch
  | tableFull
  | noEntry
  | noDescriptor
  | illegalRequest
  | trustCenterPolicyNotSupported
  deriving DecidableEq, Repr

namespace ZdpStatus

def toU8 : ZdpStatus → UInt8
  | success => 0x00
  | invRequestType => 0x80
  | deviceNotFound => 0x81
  | invalidEp => 0x82
  | notActive => 0x83
  | notSupported => 0x84
  | timeout => 0x85
  | noMatch => 0x86
  | tableFull => 0x8C
  | noEntry => 0x88
  | noDescriptor => 0x89
  | illegalRequest => 0xA3
  | trustCenterPolicyNotSupported => 0xAA

def fromU8 (val : UInt8) : Option ZdpStatus :=
  if val = 0x00 then some success
  else if val = 0x80 then some invRequestType
  else if val = 0x81 then some deviceNotFound
  else if val = 0x82 then some invalidEp
  else if val = 0x83 then some notActive
  else if val = 0x84 then some notSupported
  else if val = 0x85 then some timeout
  else if val = 0x86 then some noMatch
  else if val = 0x88 then some noEntry
  else if val = 0x89 then some noDescriptor
  else if val = 0x8C then some tableFull
  else if val = 0xA3 then some illegalRequest
  else if val = 0xAA then some trustCenterPolicyNotSupported
  else none

@[simp] theorem fromU8_toU8 (s : ZdpStatus) : fromU8 s.toU8 = some s := by
  cases s <;> rfl

end ZdpStatus

/-- `ZdpStatus::from_u8(data[0]).ok_or(ZdoError::InvalidData)?` -/
def statusAt (data : Buf) : Outcome ZdoError ZdpStatus := do
  let val ← byteAt data 0
  okOr .invalidData (ZdpStatus.fromU8 val)

theorem statusAt_eq {data : Buf} (h : 0 < data.length) : statusAt data = okOr .invalidData (ZdpStatus.fromU8 (u8At data 0)) := by
  rw [statusAt, byteAt_eq h, Outcome.ok_bind]

theorem statusAt_safe {data : Buf} (h : 0 < data.length) : (statusAt data).Safe := by
  rw [statusAt_eq h]
  exact okOr_safe _ _

/-! ## Descriptors -/

/-- Maximum input/output clusters in a `SimpleDescriptor`. -/
def MAX_CLUSTERS : Nat := 16

inductive LogicalType where
  | coordinator
  | router
  | endDevice
  deriving DecidableEq, Repr

namespace LogicalType

def fromU8 (val : UInt8) : Option LogicalType :=
  if val &&& 0x07 = 0x00 then some coordinator
  else if val &&& 0x07 = 0x01 then some router
  else if val &&& 0x07 = 0x02 then some endDevice
  else none

end LogicalType

structure NodeDescriptor where
  logicalType : LogicalType
  complexDescAvailable : Bool
  userDescAvailable : Bool
  apsFlags : UInt8
  frequencyBand : UInt8
  macCapabilities : UInt8
  manufacturerCode : UInt16
  maxBufferSize : UInt8
  maxIncomingTransfer : UInt16
  serverMask : UInt16
  maxOutgoingTransfer : UInt16
  descriptorCapabilities : UInt8
  deriving DecidableEq

namespace NodeDescriptor

def WIRE_SIZE : Nat := 13

def parse (data : Buf) : Outcome ZdoError NodeDescriptor :=
  if data.length < WIRE_SIZE then .error .invalidLength
  else do
    let flags ← byteAt data 0
    let logicalType ← okOr .invalidData (LogicalType.fromU8 (flags &&& 0x07))
    let bands ← byteAt data 1
    let macCapabilities ← byteAt data 2
    let manufacturerCode ← wordAt data 3
    let maxBufferSize ← byteAt data 5
    let maxIncomingTransfer ← wordAt data 6
    let serverMask ← wordAt data 8
    let maxOutgoingTransfer ← wordAt data 10
    let descriptorCapabilities ← byteAt data 12
    pure { logicalType
           complexDescAvailable := flags &&& 0x08 != 0
           userDescAvailable := flags &&& 0x10 != 0
           apsFlags := bands &&& 0x07
           frequencyBand := (bands >>> 3) &&& 0x1F
           macCapabilities, manufacturerCode, maxBufferSize, maxIncomingTransfer, serverMask, maxOutgoingTransfer,
           descriptorCapabilities }

end NodeDescriptor

structure PowerDescriptor where
  currentPowerMode : UInt8
  availablePowerSources : UInt8
  currentPowerSource : UInt8
  currentPowerLevel : UInt8
  deriving DecidableEq

namespace PowerDescriptor

def WIRE_SIZE : Nat := 2

def parse (data : Buf) : Outcome ZdoError PowerDescriptor :=
  if data.length < WIRE_SIZE then .error .invalidLength
  else do
    let modes ← byteAt data 0
    let levels ← byteAt data 1
    pure ⟨modes &&& 0x0F, (modes >>> 4) &&& 0x0F, levels &&& 0x0F, (levels >>> 4) &&& 0x0F⟩

end PowerDescriptor

structure SimpleDescriptor where
  endpoint : UInt8
  profileId : UInt16
  deviceId : UInt16
  deviceVersion : UInt8
  inputClusters : List UInt16
  outputClusters : List UInt16
  deriving DecidableEq

/-- A `u16` and the offset behind it. -/
def wordItem (data : Buf) (offset : Nat) : Outcome ZdoError (UInt16 × Nat) := do
  let word ← wordAt data offset
  pure (word, offset + 2)

/-- `count` clusters, whose bytes the caller has checked to be there. -/
def clusters (data : Buf) (keep : List UInt16 → UInt16 → Outcome ZdoError (List UInt16)) (count : UInt8) (offset : Nat) :
    Outcome ZdoError (List UInt16 × Nat) :=
  collect (fun _ => false) (wordItem data) keep count.toNat offset []

namespace SimpleDescriptor

def MIN_WIRE_SIZE : Nat := 8

def parse (data : Buf) : Outcome ZdoError SimpleDescriptor :=
  if data.length < MIN_WIRE_SIZE then .error .invalidLength
  else do
    let endpoint ← byteAt data 0
    let profileId ← wordAt data 1
    let deviceId ← wordAt data 3
    let version ← byteAt data 5
    let inCount ← byteAt data 6
    if data.length < 7 + inCount.toNat * 2 + 1 then .error .invalidLength
    else do
      let (inputClusters, offset) ← clusters data (pushOr .invalidData MAX_CLUSTERS) inCount 7
      let outCount ← byteAt data offset
      if data.length < offset + 1 + outCount.toNat * 2 then .error .invalidLength
      else do
        let (outputClusters, _) ← clusters data (pushOr .invalidData MAX_CLUSTERS) outCount (offset + 1)
        pure ⟨endpoint, profileId, deviceId, version &&& 0x0F, inputClusters, outputClusters⟩

end SimpleDescriptor

/-! ## Discovery -/

inductive RequestType where
  | single
  | extended
  deriving DecidableEq, Repr

namespace RequestType

def toU8 : RequestType → UInt8
  | single => 0x00
  | extended => 0x01

/-- The `match` of both address requests. -/
def parse (val : UInt8) : Outcome ZdoError RequestType :=
  if val = 0 then .ok single else if val = 1 then .ok extended else .error .invalidData

theorem parse_safe (val : UInt8) : (parse val).Safe :=
  Outcome.safe_ite (fun _ => Outcome.safe_ok _) fun _ =>
    Outcome.safe_ite (fun _ => Outcome.safe_ok _) fun _ => Outcome.safe_error _

end RequestType

structure NwkAddrReq where
  ieeeAddr : IeeeAddress
  requestType : RequestType
  startIndex : UInt8

namespace NwkAddrReq

def MIN_SIZE : Nat := 10

def parse (data : Buf) : Outcome ZdoError NwkAddrReq :=
  if data.length < MIN_SIZE then .error .invalidLength
  else do
    let ieeeAddr ← arrayOf 8 data 0
    let requestType ← byteAt data 8 >>= RequestType.parse
    let startIndex ← byteAt data 9
    pure ⟨ieeeAddr, requestType, startIndex⟩

end NwkAddrReq

structure NwkAddrRsp where
  status : ZdpStatus
  ieeeAddr : IeeeAddress
  nwkAddr : ShortAddress
  numAssocDev : UInt8
  startIndex : UInt8
  assocDevList : List ShortAddress
  deriving DecidableEq

/-- The capacity of the address and endpoint lists. -/
def MAX_LIST : Nat := 32

namespace NwkAddrRsp

def MIN_SIZE : Nat := 11

def parse (data : Buf) : Outcome ZdoError NwkAddrRsp :=
  if data.length < MIN_SIZE then .error .invalidLength
  else do
    let status ← statusAt data
    let ieeeAddr ← arrayOf 8 data 1
    let nwkAddr ← wordAt data 9
    if MIN_SIZE < data.length then do
      let numAssocDev ← byteAt data 11
      -- read although only one byte may follow the addresses
      let startIndex ← byteAt data 12
      let (assocDevList, _) ← collect (fun offset => data.length < offset + 2) (wordItem data) (pushUpTo MAX_LIST)
        numAssocDev.toNat 13 []
      pure ⟨status, ieeeAddr, nwkAddr, numAssocDev, startIndex, assocDevList⟩
    else pure ⟨status, ieeeAddr, nwkAddr, 0, 0, []⟩

end NwkAddrRsp

structure IeeeAddrReq where
  nwkAddrOfInterest : ShortAddress
  requestType : RequestType
  startIndex : UInt8

namespace IeeeAddrReq

def MIN_SIZE : Nat := 4

def parse (data : Buf) : Outcome ZdoError IeeeAddrReq :=
  if data.length < MIN_SIZE then .error .invalidLength
  else do
    let nwkAddrOfInterest ← wordAt data 0
    let requestType ← byteAt data 2 >>= RequestType.parse
    let startIndex ← byteAt data 3
    pure ⟨nwkAddrOfInterest, requestType, startIndex⟩

end IeeeAddrReq

/-- `PowerDescReq` and `ActiveEpReq` are the same type. -/
structure NodeDescReq where
  nwkAddrOfInterest : ShortAddress

namespace NodeDescReq

def SIZE : Nat := 2

def parse (data : Buf) : Outcome ZdoError NodeDescReq :=
  if data.length < SIZE then .error .invalidLength
  else do
    let nwkAddrOfInterest ← wordAt data 0
    pure ⟨nwkAddrOfInterest⟩

end NodeDescReq

structure NodeDescRsp where
  status : ZdpStatus
  nwkAddrOfInterest : ShortAddress
  nodeDescriptor : Option NodeDescriptor

namespace NodeDescRsp

def parse (data : Buf) : Outcome ZdoError NodeDescRsp :=
  if data.length < 3 then .error .invalidLength
  else do
    let status ← statusAt data
    let nwkAddrOfInterest ← wordAt data 1
    if status = .success ∧ 3 + NodeDescriptor.WIRE_SIZE ≤ data.length then do
      let nodeDescriptor ← tailFrom data 3 >>= NodeDescriptor.parse
      pure ⟨status, nwkAddrOfInterest, some nodeDescriptor⟩
    else pure ⟨status, nwkAddrOfInterest, none⟩

end NodeDescRsp

structure PowerDescRsp where
  status : ZdpStatus
  nwkAddrOfInterest : ShortAddress
  powerDescriptor : Option PowerDescriptor

namespace PowerDescRsp

def parse (data : Buf) : Outcome ZdoError PowerDescRsp :=
  if data.length < 3 then .error .invalidLength
  else do
    let status ← statusAt data
    let nwkAddrOfInterest ← wordAt data 1
    if status = .success ∧ 3 + PowerDescriptor.WIRE_SIZE ≤ data.length then do
      let powerDescriptor ← tailFrom data 3 >>= PowerDescriptor.parse
      pure ⟨status, nwkAddrOfInterest, some powerDescriptor⟩
    else pure ⟨status, nwkAddrOfInterest, none⟩

end PowerDescRsp

structure SimpleDescReq where
  nwkAddrOfInterest : ShortAddress
  endpoint : UInt8

namespace SimpleDescReq

def SIZE : Nat := 3

def parse (data : Buf) : Outcome ZdoError SimpleDescReq :=
  if data.length < SIZE then .error .invalidLength
  else do
    let nwkAddrOfInterest ← wordAt data 0
    let endpoint ← byteAt data 2
    pure ⟨nwkAddrOfInterest, endpoint⟩

end SimpleDescReq

structure SimpleDescRsp where
  status : ZdpStatus
  nwkAddrOfInterest : ShortAddress
  simpleDescriptor : Option SimpleDescriptor

namespace SimpleDescRsp

def parse (data : Buf) : Outcome ZdoError SimpleDescRsp :=
  if data.length < 4 then .error .invalidLength
  else do
    let status ← statusAt data
    let nwkAddrOfInterest ← wordAt data 1
    let descLen ← byteAt data 3
    if 0 < descLen ∧ 4 + descLen.toNat ≤ data.length then do
      let simpleDescriptor ← rangeOf data 4 (4 + descLen.toNat) >>= SimpleDescriptor.parse
      pure ⟨status, nwkAddrOfInterest, some simpleDescriptor⟩
    else pure ⟨status, nwkAddrOfInterest, none⟩

end SimpleDescRsp

/-- The endpoint list of `ActiveEpRsp` and `MatchDescRsp`: `for &ep in &data[4..4 + count]`. -/
def endpointList (data : Buf) : Outcome ZdoError (ZdpStatus × ShortAddress × List UInt8) :=
  if data.length < 4 then .error .invalidLength
  else do
    let status ← statusAt data
    let nwkAddrOfInterest ← wordAt data 1
    let count ← byteAt data 3
    if data.length < 4 + count.toNat then .error .invalidLength
    else do
      let endpoints ← rangeOf data 4 (4 + count.toNat)
      pure (status, nwkAddrOfInterest, endpoints.take MAX_LIST)

structure ActiveEpRsp where
  status : ZdpStatus
  nwkAddrOfInterest : ShortAddress
  activeEpList : List UInt8

def ActiveEpRsp.parse (data : Buf) : Outcome ZdoError ActiveEpRsp := do
  let (status, nwkAddrOfInterest, activeEpList) ← endpointList data
  pure ⟨status, nwkAddrOfInterest, activeEpList⟩

structure MatchDescReq where
  nwkAddrOfInterest : ShortAddress
  profileId : UInt16
  inputClusters : List UInt16
  outputClusters : List UInt16

namespace MatchDescReq

def parse (data : Buf) : Outcome ZdoError MatchDescReq :=
  if data.length < 5 then .error .invalidLength
  else do
    let nwkAddrOfInterest ← wordAt data 0
    let profileId ← wordAt data 2
    let inCount ← byteAt data 4
    if data.length < 5 + inCount.toNat * 2 + 1 then .error .invalidLength
    else do
      let (inputClusters, offset) ← clusters data (pushUpTo MAX_CLUSTERS) inCount 5
      let outCount ← byteAt data offset
      if data.length < offset + 1 + outCount.toNat * 2 then .error .invalidLength
      else do
        let (outputClusters, _) ← clusters data (pushUpTo MAX_CLUSTERS) outCount (offset + 1)
        pure ⟨nwkAddrOfInterest, profileId, inputClusters, outputClusters⟩

end MatchDescReq

structure MatchDescRsp where
  status : ZdpStatus
  nwkAddrOfInterest : ShortAddress
  matchList : List UInt8

def MatchDescRsp.parse (data : Buf) : Outcome ZdoError MatchDescRsp := do
  let (status, nwkAddrOfInterest, matchList) ← endpointList data
  pure ⟨status, nwkAddrOfInterest, matchList⟩

/-! ## Bind and Unbind -/

inductive BindTarget where
  | group (group : UInt16)
  | unicast (dstAddr : IeeeAddress) (dstEndpoint : UInt8)
  deriving DecidableEq

structure BindReq where
  srcAddr : IeeeAddress
  srcEndpoint : UInt8
  clusterId : UInt16
  dst : BindTarget

/-- The destination behind its mode, and the size of the record that ends with it. -/
def bindTargetAt (data : Buf) (dstMode : UInt8) : Outcome ZdoError (BindTarget × Nat) :=
  if dstMode = 0x01 then
    if data.length < 14 then .error .invalidLength
    else do
      let group ← wordAt data 12
      pure (.group group, 14)
  else if dstMode = 0x03 then
    if data.length < 21 then .error .invalidLength
    else do
      let dstAddr ← arrayOf 8 data 12
      let dstEndpoint ← byteAt data 20
      pure (.unicast dstAddr dstEndpoint, 21)
  else .error .invalidData

namespace BindReq

def MIN_SIZE : Nat := 14

def parse (data : Buf) : Outcome ZdoError BindReq :=
  if data.length < MIN_SIZE then .error .invalidLength
  else do
    let srcAddr ← arrayOf 8 data 0
    let srcEndpoint ← byteAt data 8
    let clusterId ← wordAt data 9
    let dstMode ← byteAt data 11
    let (dst, _) ← bindTargetAt data dstMode
    pure ⟨srcAddr, srcEndpoint, clusterId, dst⟩

end BindReq

/-- `BindRsp`, `UnbindRsp`, `MgmtLeaveRsp` and `MgmtPermitJoiningRsp`: a status alone. -/
structure StatusRsp where
  status : ZdpStatus

def StatusRsp.parse (data : Buf) : Outcome ZdoError StatusRsp :=
  if data.isEmpty then .error .invalidLength
  else do
    let status ← statusAt data
    pure ⟨status⟩

/-! ## Network management -/

/-- `MgmtRtgReq` and `MgmtBindReq` are the same type. -/
structure MgmtLqiReq where
  startIndex : UInt8

def MgmtLqiReq.parse (data : Buf) : Outcome ZdoError MgmtLqiReq :=
  if data.isEmpty then .error .invalidLength
  else do
    let startIndex ← byteAt data 0
    pure ⟨startIndex⟩

structure NeighborTableRecord where
  extendedPanId : Vector UInt8 8
  extendedAddr : IeeeAddress
  networkAddr : ShortAddress
  deviceType : UInt8
  rxOnWhenIdle : UInt8
  relationship : UInt8
  permitJoining : UInt8
  depth : UInt8
  lqi : UInt8
  deriving DecidableEq

namespace NeighborTableRecord

def WIRE_SIZE : Nat := 22

def parse (data : Buf) : Outcome ZdoError NeighborTableRecord :=
  if data.length < WIRE_SIZE then .error .invalidLength
  else do
    let extendedPanId ← arrayOf 8 data 0
    let extendedAddr ← arrayOf 8 data 8
    let networkAddr ← wordAt data 16
    let kind ← byteAt data 18
    let permit ← byteAt data 19
    let depth ← byteAt data 20
    let lqi ← byteAt data 21
    pure { extendedPanId, extendedAddr, networkAddr
           deviceType := kind &&& 0x03
           rxOnWhenIdle := (kind >>> 2) &&& 0x03
           relationship := (kind >>> 4) &&& 0x07
           permitJoining := permit &&& 0x03
           depth, lqi }

end NeighborTableRecord

structure RoutingTableRecord where
  dstAddr : ShortAddress
  status : UInt8
  memoryConstrained : Bool
  manyToOne : Bool
  routeRecordRequired : Bool
  nextHop : ShortAddress
  deriving DecidableEq

namespace RoutingTableRecord

def WIRE_SIZE : Nat := 5

def parse (data : Buf) : Outcome ZdoError RoutingTableRecord :=
  if data.length < WIRE_SIZE then .error .invalidLength
  else do
    let dstAddr ← wordAt data 0
    let flags ← byteAt data 2
    let nextHop ← wordAt data 3
    pure ⟨dstAddr, flags &&& 0x07, flags &&& 0x08 != 0, flags &&& 0x10 != 0, flags &&& 0x20 != 0, nextHop⟩

end RoutingTableRecord

structure BindingTableRecord where
  srcAddr : IeeeAddress
  srcEndpoint : UInt8
  clusterId : UInt16
  dstAddrMode : UInt8
  dst : BindTarget
  deriving DecidableEq

/-- The record and the number of bytes that it takes. -/
def BindingTableRecord.parse (data : Buf) : Outcome ZdoError (BindingTableRecord × Nat) :=
  if data.length < 12 then .error .invalidLength
  else do
    let srcAddr ← arrayOf 8 data 0
    let srcEndpoint ← byteAt data 8
    let clusterId ← wordAt data 9
    let dstAddrMode ← byteAt data 11
    let (dst, consumed) ← bindTargetAt data dstAddrMode
    pure (⟨srcAddr, srcEndpoint, clusterId, dstAddrMode, dst⟩, consumed)

/-- The capacity of the record lists. -/
def MAX_RECORDS : Nat := 16

/-- `Mgmt_Lqi_rsp`, `Mgmt_Rtg_rsp` and `Mgmt_Bind_rsp`: a window of a table. -/
structure TableRsp (α : Type) where
  status : ZdpStatus
  tableEntries : UInt8
  startIndex : UInt8
  tableList : List α

/-- `read` takes a record from an offset that leaves at least `room` bytes. -/
def TableRsp.parse {α : Type} (room : Nat) (read : Buf → Nat → Outcome ZdoError (α × Nat)) (data : Buf) :
    Outcome ZdoError (TableRsp α) :=
  if data.length < 4 then .error .invalidLength
  else do
    let status ← statusAt data
    let tableEntries ← byteAt data 1
    let startIndex ← byteAt data 2
    let listCount ← byteAt data 3
    let (tableList, _) ← collect (fun offset => data.length < offset + room) (read data) (pushUpTo MAX_RECORDS)
      listCount.toNat 4 []
    pure ⟨status, tableEntries, startIndex, tableList⟩

/-- Records of one size. -/
def sizedItem {α : Type} (size : Nat) (parse : Buf → Outcome ZdoError α) (data : Buf) (offset : Nat) :
    Outcome ZdoError (α × Nat) := do
  let a ← tailFrom data offset >>= parse
  pure (a, offset + size)

/-- Binding records, which say how long they are. -/
def bindingItem (data : Buf) (offset : Nat) : Outcome ZdoError (BindingTableRecord × Nat) := do
  let (record, consumed) ← tailFrom data offset >>= BindingTableRecord.parse
  pure (record, offset + consumed)

abbrev MgmtLqiRsp := TableRsp NeighborTableRecord

def MgmtLqiRsp.parse (data : Buf) : Outcome ZdoError MgmtLqiRsp :=
  TableRsp.parse NeighborTableRecord.WIRE_SIZE (sizedItem NeighborTableRecord.WIRE_SIZE NeighborTableRecord.parse) data

abbrev MgmtRtgRsp := TableRsp RoutingTableRecord

def MgmtRtgRsp.parse (data : Buf) : Outcome ZdoError MgmtRtgRsp :=
  TableRsp.parse RoutingTableRecord.WIRE_SIZE (sizedItem RoutingTableRecord.WIRE_SIZE RoutingTableRecord.parse) data

abbrev MgmtBindRsp := TableRsp BindingTableRecord

/-- `off >= data.len()` ends the loop. -/
def MgmtBindRsp.parse (data : Buf) : Outcome ZdoError MgmtBindRsp := TableRsp.parse 1 bindingItem data

/-! ## No index is out of range -/

variable {offset : Nat} {α : Type}

variable {keep : List UInt16 → UInt16 → Outcome ZdoError (List UInt16)}

section
open Outcome
variable {data : Buf}

theorem wordItem_safe (h : offset + 2 ≤ data.length) : (wordItem data offset).Safe := by
  rw [wordItem, wordAt_eq (by omega), ok_bind]
  exact safe_ok _

theorem wordItem_next {next : Nat} {a : UInt16} (h : wordItem data offset = .ok (a, next)) : next = offset + 2 := by
  obtain ⟨word, -, hword⟩ := bind_eq_ok h
  cases hword
  rfl

/-- Clusters move the offset by two bytes each. -/
theorem clusters_next {count : UInt8} {next : Nat} {kept : List UInt16} (h : clusters data keep count offset = .ok (kept, next)) :
    next = offset + count.toNat * 2 := by
  unfold clusters at h
  generalize count.toNat = n at h ⊢
  generalize ([] : List UInt16) = start at h
  induction n generalizing offset start with
  | zero =>
    cases h
    rfl
  | succ n ih =>
    rw [collect, if_neg Bool.false_ne_true] at h
    obtain ⟨⟨a, offset'⟩, hread, h⟩ := bind_eq_ok h
    obtain ⟨start', -, h⟩ := bind_eq_ok h
    rw [ih start' h, wordItem_next hread]
    omega

theorem clusters_safe (hkeep : ∀ kept a, (keep kept a).Safe) {count : UInt8} (h : offset + count.toNat * 2 ≤ data.length) :
    (clusters data keep count offset).Safe := by
  refine collect_safe (fun n offset => offset + n * 2 ≤ data.length) (fun n offset hroom _ => ⟨wordItem_safe (by omega), ?_⟩)
    hkeep h []
  intro a next hread
  rw [wordItem_next hread]
  omega

theorem NodeDescriptor.parse_safe (data : Buf) : (NodeDescriptor.parse data).Safe := by
  refine safe_guard fun hlen => ?_
  simp only [WIRE_SIZE] at hlen
  simp (disch := omega) only [byteAt_eq, wordAt_eq, ok_bind]
  exact (okOr_safe _ _).bind fun _ _ => safe_ok _

theorem PowerDescriptor.parse_safe (data : Buf) : (PowerDescriptor.parse data).Safe := by
  refine safe_guard fun hlen => ?_
  simp only [WIRE_SIZE] at hlen
  simp (disch := omega) only [byteAt_eq, ok_bind]
  exact safe_ok _

theorem SimpleDescriptor.parse_safe (data : Buf) : (SimpleDescriptor.parse data).Safe := by
  refine safe_guard fun hlen => ?_
  simp only [MIN_WIRE_SIZE] at hlen
  simp (disch := omega) only [byteAt_eq, wordAt_eq, ok_bind]
  refine safe_guard fun hin => ?_
  refine (clusters_safe (pushOr_safe _ _) (by omega)).bind fun r hr => ?_
  have hnext := clusters_next hr
  rw [byteAt_eq (by omega), ok_bind]
  refine safe_guard fun hout => ?_
  exact (clusters_safe (pushOr_safe _ _) (by omega)).bind fun _ _ => safe_ok _

theorem NwkAddrReq.parse_safe (data : Buf) : (NwkAddrReq.parse data).Safe := by
  refine safe_guard fun hlen => ?_
  simp only [MIN_SIZE] at hlen
  simp (disch := omega) only [byteAt_eq, arrayOf_eq, ok_bind]
  exact (RequestType.parse_safe _).bind fun _ _ => safe_ok _

theorem IeeeAddrReq.parse_safe (data : Buf) : (IeeeAddrReq.parse data).Safe := by
  refine safe_guard fun hlen => ?_
  simp only [MIN_SIZE] at hlen
  simp (disch := omega) only [byteAt_eq, wordAt_eq, ok_bind]
  exact (RequestType.parse_safe _).bind fun _ _ => safe_ok _

theorem NodeDescReq.parse_safe (data : Buf) : (NodeDescReq.parse data).Safe := by
  refine safe_guard fun hlen => ?_
  simp only [SIZE] at hlen
  rw [wordAt_eq (by omega), ok_bind]
  exact safe_ok _

theorem SimpleDescReq.parse_safe (data : Buf) : (SimpleDescReq.parse data).Safe := by
  refine safe_guard fun hlen => ?_
  simp only [SIZE] at hlen
  simp (disch := omega) only [byteAt_eq, wordAt_eq, ok_bind]
  exact safe_ok _

theorem tailFrom_bind_safe {parse : Buf → Outcome ZdoError α} (h : ∀ data, (parse data).Safe) (hoffset : offset ≤ data.length) :
    (tailFrom data offset >>= parse).Safe := by
  rw [tailFrom_eq hoffset, ok_bind]
  exact h _

theorem NodeDescRsp.parse_safe (data : Buf) : (NodeDescRsp.parse data).Safe := by
  refine safe_guard fun hlen => ?_
  refine (statusAt_safe (by omega)).bind fun status _ => ?_
  rw [wordAt_eq (by omega), ok_bind]
  refine safe_ite (fun _ => ?_) fun _ => safe_ok _
  exact (tailFrom_bind_safe NodeDescriptor.parse_safe (by omega)).bind fun _ _ => safe_ok _

theorem PowerDescRsp.parse_safe (data : Buf) : (PowerDescRsp.parse data).Safe := by
  refine safe_guard fun hlen => ?_
  refine (statusAt_safe (by omega)).bind fun status _ => ?_
  rw [wordAt_eq (by omega), ok_bind]
  refine safe_ite (fun _ => ?_) fun _ => safe_ok _
  exact (tailFrom_bind_safe PowerDescriptor.parse_safe (by omega)).bind fun _ _ => safe_ok _

theorem SimpleDescRsp.parse_safe (data : Buf) : (SimpleDescRsp.parse data).Safe := by
  refine safe_guard fun hlen => ?_
  refine (statusAt_safe (by omega)).bind fun status _ => ?_
  rw [wordAt_eq (by omega), ok_bind, byteAt_eq (by omega), ok_bind]
  refine safe_ite (fun h => ?_) fun _ => safe_ok _
  rw [rangeOf_eq (by omega) h.2, ok_bind]
  exact (SimpleDescriptor.parse_safe _).bind fun _ _ => safe_ok _

theorem endpointList_safe (data : Buf) : (endpointList data).Safe := by
  refine safe_guard fun hlen => ?_
  refine (statusAt_safe (by omega)).bind fun status _ => ?_
  rw [wordAt_eq (by omega), ok_bind, byteAt_eq (by omega), ok_bind]
  refine safe_guard fun hcount => ?_
  rw [rangeOf_eq (by omega) (by omega), ok_bind]
  exact safe_ok _

theorem ActiveEpRsp.parse_safe (data : Buf) : (ActiveEpRsp.parse data).Safe :=
  (endpointList_safe data).bind fun _ _ => safe_ok _

theorem MatchDescRsp.parse_safe (data : Buf) : (MatchDescRsp.parse data).Safe :=
  (endpointList_safe data).bind fun _ _ => safe_ok _

theorem MatchDescReq.parse_safe (data : Buf) : (MatchDescReq.parse data).Safe := by
  refine safe_guard fun hlen => ?_
  simp (disch := omega) only [byteAt_eq, wordAt_eq, ok_bind]
  refine safe_guard fun hin => ?_
  refine (clusters_safe (pushUpTo_safe _) (by omega)).bind fun r hr => ?_
  have hnext := clusters_next hr
  rw [byteAt_eq (by omega), ok_bind]
  refine safe_guard fun hout => ?_
  exact (clusters_safe (pushUpTo_safe _) (by omega)).bind fun _ _ => safe_ok _

theorem bindTargetAt_safe (data : Buf) (dstMode : UInt8) : (bindTargetAt data dstMode).Safe := by
  refine safe_ite (fun _ => ?_) fun _ => safe_ite (fun _ => ?_) fun _ => safe_error _
  · refine safe_guard fun hlen => ?_
    rw [wordAt_eq (by omega), ok_bind]
    exact safe_ok _
  · refine safe_guard fun hlen => ?_
    rw [arrayOf_eq (by omega), ok_bind, byteAt_eq (by omega), ok_bind]
    exact safe_ok _

theorem BindReq.parse_safe (data : Buf) : (BindReq.parse data).Safe := by
  refine safe_guard fun hlen => ?_
  simp only [MIN_SIZE] at hlen
  simp (disch := omega) only [byteAt_eq, wordAt_eq, arrayOf_eq, ok_bind]
  exact (bindTargetAt_safe data _).bind fun _ _ => safe_ok _

theorem BindingTableRecord.parse_safe (data : Buf) : (BindingTableRecord.parse data).Safe := by
  refine safe_guard fun hlen => ?_
  simp (disch := omega) only [byteAt_eq, wordAt_eq, arrayOf_eq, ok_bind]
  exact (bindTargetAt_safe data _).bind fun _ _ => safe_ok _

theorem length_pos_of_not_isEmpty (h : ¬ data.isEmpty = true) : 0 < data.length :=
  List.length_pos_iff.mpr fun hnil => h (by rw [hnil]; rfl)

theorem StatusRsp.parse_safe (data : Buf) : (StatusRsp.parse data).Safe :=
  safe_guard fun h => (statusAt_safe (length_pos_of_not_isEmpty h)).bind fun _ _ => safe_ok _

theorem MgmtLqiReq.parse_safe (data : Buf) : (MgmtLqiReq.parse data).Safe := by
  refine safe_guard fun h => ?_
  rw [byteAt_eq (length_pos_of_not_isEmpty h), ok_bind]
  exact safe_ok _

theorem NeighborTableRecord.parse_safe (data : Buf) : (NeighborTableRecord.parse data).Safe := by
  refine safe_guard fun hlen => ?_
  simp only [WIRE_SIZE] at hlen
  simp (disch := omega) only [byteAt_eq, wordAt_eq, arrayOf_eq, ok_bind]
  exact safe_ok _

theorem RoutingTableRecord.parse_safe (data : Buf) : (RoutingTableRecord.parse data).Safe := by
  refine safe_guard fun hlen => ?_
  simp only [WIRE_SIZE] at hlen
  simp (disch := omega) only [byteAt_eq, wordAt_eq, ok_bind]
  exact safe_ok _

/-- A table response is safe if its records are, where the loop leaves them room. -/
theorem TableRsp.parse_safe {room : Nat} {read : Buf → Nat → Outcome ZdoError (α × Nat)}
    (hread : ∀ offset, offset + room ≤ data.length → (read data offset).Safe) : (TableRsp.parse room read data).Safe := by
  refine safe_guard fun hlen => ?_
  refine (statusAt_safe (by omega)).bind fun status _ => ?_
  simp (disch := omega) only [byteAt_eq, ok_bind]
  refine (collect_safe_of_stop (fun offset hstop => hread offset ?_) (pushUpTo_safe _) _ _ _).bind fun _ _ => safe_ok _
  simpa using hstop

theorem sizedItem_safe {size : Nat} {parse : Buf → Outcome ZdoError α} (h : ∀ data, (parse data).Safe)
    (hoffset : offset + size ≤ data.length) : (sizedItem size parse data offset).Safe :=
  (tailFrom_bind_safe h (by omega)).bind fun _ _ => safe_ok _

theorem MgmtLqiRsp.parse_safe (data : Buf) : (MgmtLqiRsp.parse data).Safe :=
  TableRsp.parse_safe fun _ => sizedItem_safe NeighborTableRecord.parse_safe

theorem MgmtRtgRsp.parse_safe (data : Buf) : (MgmtRtgRsp.parse data).Safe :=
  TableRsp.parse_safe fun _ => sizedItem_safe RoutingTableRecord.parse_safe

theorem MgmtBindRsp.parse_safe (data : Buf) : (MgmtBindRsp.parse data).Safe :=
  TableRsp.parse_safe fun _ hroom =>
    (tailFrom_bind_safe BindingTableRecord.parse_safe (by omega)).bind fun _ _ => safe_ok _

/-! ## The address response -/

namespace NwkAddrRsp

/-- The parser behind its checks. -/
theorem parse_eq (hlen : MIN_SIZE ≤ data.length) : parse data = okOr .invalidData (ZdpStatus.fromU8 (u8At data 0)) >>= fun status =>
    if data.length = 12 then .trap
    else if MIN_SIZE < data.length then
      collect (fun offset => data.length < offset + 2) (wordItem data) (pushUpTo MAX_LIST) (u8At data 11).toNat 13 [] >>= fun r =>
        .ok ⟨status, arrayAt 8 data 1, u16At data 9, u8At data 11, u8At data 12, r.1⟩
    else .ok ⟨status, arrayAt 8 data 1, u16At data 9, 0, 0, []⟩ := by
  have hle : 11 ≤ data.length := hlen
  rw [parse, if_neg (by omega), statusAt_eq (by omega), arrayOf_eq (by omega), wordAt_eq (by omega)]
  congr 1
  funext status
  rw [ok_bind, ok_bind]
  by_cases htwelve : data.length = 12
  · rw [if_pos htwelve, if_pos (by simp only [MIN_SIZE]; omega), byteAt_eq (by omega), byteAt_trap (by omega)]
    rfl
  · rw [if_neg htwelve]
    by_cases hmore : MIN_SIZE < data.length
    · have hthirteen : 13 ≤ data.length := by
        simp only [MIN_SIZE] at hmore
        omega
      rw [if_pos hmore, if_pos hmore, byteAt_eq (by omega), byteAt_eq (by omega)]
      rfl
    · rw [if_neg hmore, if_neg hmore]
      rfl

/-- A response that ends behind `NumAssocDev`. -/
def Bare (data : Buf) : Prop := data.length = 12 ∧ (ZdpStatus.fromU8 (u8At data 0)).isSome = true

instance (data : Buf) : Decidable (Bare data) := inferInstanceAs (Decidable (_ ∧ _))

/-- **The parser traps on exactly the bare responses.** -/
theorem parse_safe_iff (data : Buf) : (parse data).Safe ↔ ¬ Bare data := by
  by_cases hlen : MIN_SIZE ≤ data.length
  · rw [parse_eq hlen]
    cases hstatus : ZdpStatus.fromU8 (u8At data 0) with
    | none => exact iff_of_true (safe_error _) fun h => by simp [Bare, hstatus] at h
    | some status =>
      rw [okOr_some, ok_bind]
      by_cases htwelve : data.length = 12
      · rw [if_pos htwelve]
        exact iff_of_false (fun h => h rfl) fun h => h ⟨htwelve, by rw [hstatus]; rfl⟩
      · rw [if_neg htwelve]
        refine iff_of_true (safe_ite (fun _ => ?_) fun _ => safe_ok _) fun h => htwelve h.1
        refine (collect_safe_of_stop (fun offset hstop => wordItem_safe ?_) (pushUpTo_safe _) _ _ _).bind fun _ _ => safe_ok _
        simpa using hstop
  · rw [parse, if_pos (by omega)]
    refine iff_of_true (safe_error _) fun h => hlen ?_
    rw [h.1]
    decide

end NwkAddrRsp

end

end Zigbee.Zdo
