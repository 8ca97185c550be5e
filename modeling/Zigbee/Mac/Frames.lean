import Zigbee.Lib.ByteParser
import Zigbee.Types

/-!
# MAC frames

Model of `zigbee-mac/src/frames.rs`: the builders, which push into vectors of a fixed capacity, and the
parsers, which index into the received bytes.  The FCS is the radio's.

* `put`, `putAll` — a push whose failure is ignored; `write`, `writeAll` — one whose failure is reported.
* `buildAssociationRequest`, …, `buildDataFrame` — the builders.
* `parseMacAddresses`, `parseParentCommand`, `parseBeacon`, … — the parsers.
-/

namespace Zigbee.Mac

open Bytes Checked ByteParser

abbrev PanId := UInt16

def PanId.BROADCAST : PanId := 0xFFFF

def SHORT_BROADCAST : ShortAddress := 0xFFFF

inductive MacAddress where
  | short (pan : PanId) (address : ShortAddress)
  | extended (pan : PanId) (address : IeeeAddress)
  deriving DecidableEq

namespace MacAddress

def panId : MacAddress → PanId
  | short pan _ => pan
  | extended pan _ => pan

/-- The address as it stands in a frame, without the PAN. -/
def bytes : MacAddress → Buf
  | short _ address => le16 address
  | extended _ address => address.toList

end MacAddress

inductive AddressMode where
  | none
  | short
  | extended
  deriving DecidableEq

def AddressMode.raw : AddressMode → UInt16
  | none => 0
  | short => 2
  | extended => 3

/-- Eight bytes of `b`. -/
def ieeeFill (b : UInt8) : IeeeAddress := .replicate 8 b

inductive FrameBuildError where
  | frameTooLong
  | invalidParameter
  deriving DecidableEq

/-- `1 << i` -/
def bit8 (i : UInt8) : UInt8 := 1 <<< i

/-- `1 << i` -/
def bit16 (i : UInt16) : UInt16 := 1 <<< i

structure CapabilityInfo where
  deviceTypeFfd : Bool
  mainsPowered : Bool
  rxOnWhenIdle : Bool
  securityCapable : Bool
  allocateAddress : Bool
  deriving DecidableEq

namespace CapabilityInfo

def toByte (c : CapabilityInfo) : UInt8 :=
  let bit (b : Bool) (mask : UInt8) : UInt8 := if b then mask else 0
  bit c.deviceTypeFfd (bit8 1) ||| bit c.mainsPowered (bit8 2) ||| bit c.rxOnWhenIdle (bit8 3) |||
    bit c.securityCapable (bit8 6) ||| bit c.allocateAddress (bit8 7)

def fromByte (b : UInt8) : CapabilityInfo where
  deviceTypeFfd := b &&& bit8 1 != 0
  mainsPowered := b &&& bit8 2 != 0
  rxOnWhenIdle := b &&& bit8 3 != 0
  securityCapable := b &&& bit8 6 != 0
  allocateAddress := b &&& bit8 7 != 0

theorem fromByte_toByte (c : CapabilityInfo) : fromByte c.toByte = c := by
  rcases c with ⟨_ | _, _ | _, _ | _, _ | _, _ | _⟩ <;> rfl

end CapabilityInfo

inductive AssociationStatus where
  | success
  | panAtCapacity
  | panAccessDenied
  deriving DecidableEq

def AssociationStatus.raw : AssociationStatus → UInt8
  | success => 0x00
  | panAtCapacity => 0x01
  | panAccessDenied => 0x02

structure MlmeAssociateResponse where
  deviceAddress : IeeeAddress
  shortAddress : ShortAddress
  status : AssociationStatus
  deriving DecidableEq

/-! ## Builders -/

/-- `let _ = frame.extend_from_slice(piece)`, or `push`: what does not fit is dropped. -/
def put (capacity : Nat) (frame piece : Buf) : Buf :=
  if capacity < frame.length + piece.length then frame else frame ++ piece

def putAll (capacity : Nat) (pieces : List Buf) : Buf := pieces.foldl (put capacity) []

/-- `frame.extend_from_slice(piece).map_err(|_| FrameTooLong)?` -/
def write (capacity : Nat) (frame piece : Buf) : Except FrameBuildError Buf :=
  if capacity < frame.length + piece.length then .error .frameTooLong else .ok (frame ++ piece)

def writeAll (capacity : Nat) (pieces : List Buf) : Except FrameBuildError Buf := pieces.foldlM (write capacity) []

/-- The frame control of a command, by the kind of the destination address. -/
def byDestination (destination : MacAddress) (short extended : UInt16) : UInt16 :=
  match destination with
  | .short _ _ => short
  | .extended _ _ => extended

/-- The pushes of `build_association_request`, in order. -/
def associationRequestPieces (seq : UInt8) (coord : MacAddress) (ownExtended : IeeeAddress) (cap : CapabilityInfo) : List Buf :=
  [le16 (byDestination coord 0xC823 0xCC23), [seq], le16 coord.panId, coord.bytes, le16 PanId.BROADCAST, ownExtended.toList,
    [0x01], [cap.toByte]]

def buildAssociationRequest (seq : UInt8) (coord : MacAddress) (ownExtended : IeeeAddress) (cap : CapabilityInfo) : Buf :=
  putAll 32 (associationRequestPieces seq coord ownExtended cap)

def dataRequestPieces (seq : UInt8) (coord : MacAddress) (ownExtended : IeeeAddress) : List Buf :=
  [le16 (byDestination coord 0xC863 0xCC63), [seq], le16 coord.panId, coord.bytes, ownExtended.toList, [0x04]]

def buildDataRequest (seq : UInt8) (coord : MacAddress) (ownExtended : IeeeAddress) : Buf :=
  putAll 24 (dataRequestPieces seq coord ownExtended)

def dataRequestShortPieces (seq : UInt8) (coord : MacAddress) (ownShort : ShortAddress) : List Buf :=
  [le16 (byDestination coord 0x8863 0x8C63), [seq], le16 coord.panId, coord.bytes, le16 ownShort, [0x04]]

def buildDataRequestShort (seq : UInt8) (coord : MacAddress) (ownShort : ShortAddress) : Buf :=
  putAll 24 (dataRequestShortPieces seq coord ownShort)

def MAX_BEACON_PENDING_ADDRESSES : Nat := 7

/-- The frame control of a beacon: no acknowledgement, security or PAN compression. -/
def beaconFrameControl : MacAddress → Option UInt16
  | .short _ address => if address < 0xFFF8 then some (AddressMode.short.raw <<< 14) else none
  | .extended _ address => if address ≠ ieeeFill 0xFF then some (AddressMode.extended.raw <<< 14) else none

def superframeSpec (panCoordinator associationPermit : Bool) : UInt16 :=
  0x0FFF ||| (if panCoordinator then bit16 14 else 0) ||| (if associationPermit then bit16 15 else 0)

def beaconPieces (frameControl : UInt16) (sequence : UInt8) (source : MacAddress) (panCoordinator associationPermit : Bool)
    (pendingShort pendingExtended : Nat) : List Buf :=
  [le16 frameControl, [sequence], le16 source.panId, source.bytes, le16 (superframeSpec panCoordinator associationPermit), [0],
    [UInt8.ofNat pendingShort ||| (UInt8.ofNat pendingExtended <<< 4)]]

def buildNonbeaconBeacon (sequence : UInt8) (source : MacAddress) (panCoordinator associationPermit : Bool)
    (pendingShort : List ShortAddress) (pendingExtended : List IeeeAddress) (beaconPayload : Buf) : Except FrameBuildError Buf :=
  if MAX_BEACON_PENDING_ADDRESSES < pendingShort.length ∨ MAX_BEACON_PENDING_ADDRESSES < pendingExtended.length ∨
      source.panId = PanId.BROADCAST then .error .invalidParameter
  else
    match beaconFrameControl source with
    | none => .error .invalidParameter
    | some frameControl => do
      let frame ← writeAll 125 (beaconPieces frameControl sequence source panCoordinator associationPermit
        pendingShort.length pendingExtended.length)
      let frame ← pendingShort.foldlM (fun frame (address : ShortAddress) =>
        if 0xFFF8 ≤ address then .error .invalidParameter else write 125 frame (le16 address)) frame
      let frame ← pendingExtended.foldlM (fun frame address =>
        if address = ieeeFill 0xFF then .error .invalidParameter else write 125 frame address.toList) frame
      write 125 frame beaconPayload

def associationResponsePieces (sequence : UInt8) (panId : PanId) (coordinatorExtended : IeeeAddress)
    (response : MlmeAssociateResponse) : List Buf :=
  [le16 0xCC63, [sequence], le16 panId, response.deviceAddress.toList, coordinatorExtended.toList, [0x02],
    le16 response.shortAddress, [response.status.raw]]

def buildAssociationResponse (sequence : UInt8) (panId : PanId) (coordinatorExtended : IeeeAddress)
    (response : MlmeAssociateResponse) : Except FrameBuildError Buf :=
  if panId = PanId.BROADCAST ∨ coordinatorExtended = ieeeFill 0xFF ∨ response.deviceAddress = ieeeFill 0xFF ∨
      (response.status = .success ∧ 0xFFF8 ≤ response.shortAddress) then .error .invalidParameter
  else writeAll 32 (associationResponsePieces sequence panId coordinatorExtended response)

def MAC_CMD_ORPHAN_NOTIFICATION : UInt8 := 0x06
def MAC_CMD_COORDINATOR_REALIGNMENT : UInt8 := 0x08

def orphanNotificationPieces (seq : UInt8) (ownExtended : IeeeAddress) : List Buf :=
  [le16 ((0x0003 : UInt16) ||| bit16 6 ||| ((2 : UInt16) <<< 10) ||| ((3 : UInt16) <<< 14)), [seq], le16 PanId.BROADCAST,
    le16 SHORT_BROADCAST, ownExtended.toList, [MAC_CMD_ORPHAN_NOTIFICATION]]

def buildOrphanNotification (seq : UInt8) (ownExtended : IeeeAddress) : Buf :=
  putAll 24 (orphanNotificationPieces seq ownExtended)

def realignmentPieces (seq : UInt8) (panId : PanId) (coordinatorShort : ShortAddress) (coordinatorExtended : IeeeAddress)
    (channel : UInt8) (orphanExtended : IeeeAddress) (orphanShort : ShortAddress) : List Buf :=
  [le16 ((0x0003 : UInt16) ||| bit16 5 ||| ((3 : UInt16) <<< 10) ||| ((3 : UInt16) <<< 14)), [seq], le16 PanId.BROADCAST,
    orphanExtended.toList, le16 panId, coordinatorExtended.toList, [MAC_CMD_COORDINATOR_REALIGNMENT], le16 panId,
    le16 coordinatorShort, [channel], le16 orphanShort]

def buildCoordinatorRealignmentOrphanResponse (seq : UInt8) (panId : PanId) (coordinatorShort : ShortAddress)
    (coordinatorExtended : IeeeAddress) (channel : UInt8) (orphanExtended : IeeeAddress) (orphanShort : ShortAddress) :
    Except FrameBuildError Buf :=
  if panId = PanId.BROADCAST ∨ coordinatorExtended = ieeeFill 0xFF ∨ orphanExtended = ieeeFill 0xFF ∨
      orphanExtended = ieeeFill 0x00 ∨ ¬(0x0001 ≤ orphanShort ∧ orphanShort ≤ 0xFFF7) ∨ 0xFFF8 ≤ coordinatorShort ∨
      orphanShort = coordinatorShort ∨ ¬(11 ≤ channel ∧ channel ≤ 26) then .error .invalidParameter
  else writeAll 32 (realignmentPieces seq panId coordinatorShort coordinatorExtended channel orphanExtended orphanShort)

/-- The own address that a data frame carries, if any. -/
def ownBytes (mode : AddressMode) (ownShort : ShortAddress) (ownExtended : IeeeAddress) : Buf :=
  match mode with
  | .none => []
  | .short => le16 ownShort
  | .extended => ownExtended.toList

def dataFrameControl (mode : AddressMode) (destination : MacAddress) (ackRequest framePending : Bool) : UInt16 :=
  (0x0001 : UInt16) ||| (if framePending then bit16 4 else 0) ||| (if ackRequest then bit16 5 else 0) |||
    (if mode ≠ .none then bit16 6 else 0) ||| byDestination destination ((2 : UInt16) <<< 10) ((3 : UInt16) <<< 10) |||
    (mode.raw <<< 14)

def dataFramePieces (seq : UInt8) (srcAddrMode : AddressMode) (ownShort : ShortAddress) (ownExtended : IeeeAddress)
    (dstAddress : MacAddress) (payload : Buf) (ackRequest framePending : Bool) : List Buf :=
  [le16 (dataFrameControl srcAddrMode dstAddress ackRequest framePending), [seq], le16 dstAddress.panId, dstAddress.bytes,
    ownBytes srcAddrMode ownShort ownExtended, payload]

def buildDataFrame (seq : UInt8) (srcAddrMode : AddressMode) (ownShort : ShortAddress) (ownExtended : IeeeAddress)
    (dstAddress : MacAddress) (payload : Buf) (ackRequest framePending : Bool) : Except FrameBuildError Buf :=
  if 125 < 3 + 2 + dstAddress.bytes.length + (ownBytes srcAddrMode ownShort ownExtended).length + payload.length then
    .error .frameTooLong
  else
    writeAll 125 (dataFramePieces seq srcAddrMode ownShort ownExtended dstAddress payload ackRequest framePending)

/-! ## Fields of the frame control -/

def dstModeOf (fc : UInt16) : UInt16 := (fc >>> 10) &&& 0x03
def srcModeOf (fc : UInt16) : UInt16 := (fc >>> 14) &&& 0x03
def panCompressOf (fc : UInt16) : Bool := (fc >>> 6) &&& 1 != 0

def addressingSize (fc : UInt16) : Nat :=
  (if dstModeOf fc = 2 then 2 + 2 else if dstModeOf fc = 3 then 2 + 8 else 0) +
    (if srcModeOf fc = 2 then (if panCompressOf fc then 2 else 4)
      else if srcModeOf fc = 3 then (if panCompressOf fc then 8 else 10) else 0)

/-! ## Parsers -/

/-- An address of the given mode, if it fits behind the offset. -/
def addressAt (data : Buf) (mode : UInt16) (pan : PanId) (offset : Nat) : Parse (Option MacAddress) :=
  if mode = 2 ∧ offset + 2 ≤ data.length then do
    let address ← u16Index data offset
    pure (some (.short pan address))
  else if mode = 3 ∧ offset + 8 ≤ data.length then do
    let address ← arrayIndex 8 data offset
    pure (some (.extended pan address))
  else pure none

/-- A PAN identifier, if it is present and fits, and the offset behind it. -/
def panAt (data : Buf) (present : Bool) (default : PanId) (offset : Nat) : Parse (PanId × Nat) :=
  if present = true ∧ offset + 2 ≤ data.length then do
    let pan ← u16Index data offset
    pure (pan, offset + 2)
  else pure (default, offset)

def parseSourceAddress (data : Buf) (fc : UInt16) : Parse MacAddress := do
  let dstPan ← panAt data (decide (2 ≤ dstModeOf fc)) 0xFFFF 3
  let offset := dstPan.2 + (if dstModeOf fc = 2 then 2 else if dstModeOf fc = 3 then 8 else 0)
  let srcPan ← panAt data (!panCompressOf fc && decide (2 ≤ srcModeOf fc)) dstPan.1 offset
  match ← addressAt data (srcModeOf fc) srcPan.1 srcPan.2 with
  | some address => pure address
  | none => reject

def parseDestAddress (data : Buf) (fc : UInt16) : Parse MacAddress :=
  if data.length < 3 + 2 then reject
  else do
    let pan ← u16Index data 3
    match ← addressAt data (dstModeOf fc) pan (3 + 2) with
    | some address => pure address
    | none => reject

structure ZigbeeBeaconPayload where
  protocolId : UInt8
  stackProfile : UInt8
  protocolVersion : UInt8
  routerCapacity : Bool
  deviceDepth : UInt8
  endDeviceCapacity : Bool
  extendedPanId : IeeeAddress
  txOffset : Vector UInt8 3
  updateId : UInt8
  deriving DecidableEq

structure SuperframeSpec where
  beaconOrder : UInt8
  superframeOrder : UInt8
  finalCapSlot : UInt8
  batteryLifeExt : Bool
  panCoordinator : Bool
  associationPermit : Bool
  deriving DecidableEq

def SuperframeSpec.fromRaw (raw : UInt16) : SuperframeSpec where
  beaconOrder := (raw &&& 0x000F).toUInt8
  superframeOrder := ((raw >>> 4) &&& 0x000F).toUInt8
  finalCapSlot := ((raw >>> 8) &&& 0x000F).toUInt8
  batteryLifeExt := (raw >>> 12) &&& 1 != 0
  panCoordinator := (raw >>> 14) &&& 1 != 0
  associationPermit := (raw >>> 15) &&& 1 != 0

structure PanDescriptor where
  channel : UInt8
  coordAddress : MacAddress
  superframeSpec : SuperframeSpec
  lqi : UInt8
  securityUse : Bool
  zigbeeBeacon : ZigbeeBeaconPayload
  deriving DecidableEq

def parseZigbeeBeacon (data : Buf) : Parse ZigbeeBeaconPayload := do
  let protocolId ← index data 0
  let nwkInfo ← u16Index data 1
  let extendedPanId ← arrayIndex 8 data 3
  let txOffset ← arrayIndex 3 data 11
  let updateId ← index data 14
  pure {
    protocolId
    stackProfile := (nwkInfo &&& 0x0F).toUInt8
    protocolVersion := ((nwkInfo >>> 4) &&& 0x0F).toUInt8
    routerCapacity := (nwkInfo >>> 10) &&& 1 != 0
    deviceDepth := ((nwkInfo >>> 11) &&& 0x0F).toUInt8
    endDeviceCapacity := (nwkInfo >>> 15) &&& 1 != 0
    extendedPanId
    txOffset
    updateId }

/-- The offset behind the GTS fields. -/
def gtsEnd (gtsSpec : UInt8) (offset : Nat) : Nat :=
  if (gtsSpec &&& 0x07).toNat ≠ 0 then offset + (1 + (gtsSpec &&& 0x07).toNat * 3) else offset

def parseBeacon (channel : UInt8) (data : Buf) (lqi : UInt8) : Parse PanDescriptor :=
  if data.length < 11 then reject
  else do
    let fc ← u16Index data 0
    if fc &&& 0x07 ≠ 0x00 then reject
    else do
      let coordAddress ← parseSourceAddress data fc
      let superframeOffset := 3 + addressingSize fc
      if data.length < superframeOffset + 4 then reject
      else do
        let superframeRaw ← u16Index data superframeOffset
        let gtsSpec ← getByte data (superframeOffset + 2)
        let pendingOffset := gtsEnd gtsSpec (superframeOffset + 3)
        let pendingSpec ← getByte data pendingOffset
        let payloadOffset := pendingOffset + 1 +
          ((pendingSpec &&& 0x07).toNat * 2 + ((pendingSpec >>> 4) &&& 0x07).toNat * 8)
        -- `data.get(payload_offset..)?`
        if data.length < payloadOffset then reject
        else
          let zigbeeData := data.drop payloadOffset
          if zigbeeData.length < 15 then reject
          else do
            let zigbeeBeacon ← parseZigbeeBeacon zigbeeData
            pure ⟨channel, coordAddress, .fromRaw superframeRaw, lqi, false, zigbeeBeacon⟩

structure MacAddresses where
  source : MacAddress
  destination : MacAddress
  payloadOffset : Nat
  security : Bool
  deriving DecidableEq

def defaultAddr : MacAddress := .short 0xFFFF 0xFFFF

/-- The length of an address that was read. -/
def addressLen : Option MacAddress → Nat
  | some address => address.bytes.length
  | none => 0

/-- The source behind the destination, and the offset behind it. -/
def sourceFieldAt (data : Buf) (fc : UInt16) (dstPan : PanId) (offset : Nat) : Parse (MacAddress × Nat) := do
  let srcPan ← panAt data (decide (0 < srcModeOf fc) && !panCompressOf fc) dstPan offset
  let src ← addressAt data (srcModeOf fc) srcPan.1 srcPan.2
  pure (src.getD (.short srcPan.1 0xFFFF), srcPan.2 + addressLen src)

def parseMacAddresses (data : Buf) : Parse MacAddresses :=
  if data.length < 3 then pure ⟨defaultAddr, defaultAddr, 0, false⟩
  else do
    let fc ← u16Index data 0
    let dstPan ← panAt data (decide (0 < dstModeOf fc)) 0xFFFF 3
    let dst ← addressAt data (dstModeOf fc) dstPan.1 dstPan.2
    let src ← sourceFieldAt data fc dstPan.1 (dstPan.2 + addressLen dst)
    pure ⟨src.1, dst.getD defaultAddr, src.2, (fc >>> 3) &&& 1 != 0⟩

def parseAssociationResponse (data : Buf) : Parse (ShortAddress × UInt8) :=
  if data.length < 5 then reject
  else do
    let fc ← u16Index data 0
    if fc &&& 0x07 ≠ 0x03 then reject
    else
      let offset := 3 + (if 0 < dstModeOf fc then 2 else 0) +
        (if dstModeOf fc = 2 then 2 else if dstModeOf fc = 3 then 8 else 0) +
        (if 0 < srcModeOf fc ∧ panCompressOf fc = false then 2 else 0) +
        (if srcModeOf fc = 2 then 2 else if srcModeOf fc = 3 then 8 else 0)
      if data.length < offset + 4 then reject
      else do
        let command ← index data offset
        if command ≠ 0x02 then reject
        else do
          let short ← u16Index data (offset + 1)
          let status ← index data (offset + 3)
          pure (short, status)

def parseOrphanNotification (data : Buf) : Parse IeeeAddress :=
  if data.length ≠ 16 then reject
  else do
    let frameControl ← getU16 data 0
    if frameControl ≠ 0xC843 then reject
    else do
      let dstPan ← getU16 data 3
      let dstAddr ← getU16 data 5
      if dstPan ≠ PanId.BROADCAST ∨ dstAddr ≠ SHORT_BROADCAST then reject
      else do
        let orphan ← getArray 8 data 7
        let command ← getByte data 15
        if command ≠ MAC_CMD_ORPHAN_NOTIFICATION then reject
        else if orphan = ieeeFill 0x00 ∨ orphan = ieeeFill 0xFF then reject
        else pure orphan

structure CoordinatorRealignment where
  panId : PanId
  coordinatorShort : ShortAddress
  channel : UInt8
  shortAddress : ShortAddress
  deriving DecidableEq

def parseCoordinatorRealignmentOrphanResponse (data : Buf) : Parse (CoordinatorRealignment × IeeeAddress × IeeeAddress) :=
  if data.length ≠ 31 then reject
  else do
    let frameControl ← getU16 data 0
    if frameControl ≠ 0xCC23 then reject
    else do
      let destinationPan ← getU16 data 3
      if destinationPan ≠ PanId.BROADCAST then reject
      else do
        let destination ← getArray 8 data 5
        let sourcePan ← getU16 data 13
        let source ← getArray 8 data 15
        let command ← getByte data 23
        if command ≠ MAC_CMD_COORDINATOR_REALIGNMENT then reject
        else do
          let panId ← getU16 data 24
          let coordinatorShort ← getU16 data 26
          let channel ← getByte data 28
          let shortAddress ← getU16 data 29
          if panId ≠ sourcePan ∨ panId = PanId.BROADCAST ∨ source = ieeeFill 0x00 ∨ source = ieeeFill 0xFF ∨
              destination = ieeeFill 0x00 ∨ destination = ieeeFill 0xFF ∨ 0xFFF8 ≤ coordinatorShort ∨
              ¬(0x0001 ≤ shortAddress ∧ shortAddress ≤ 0xFFF7) ∨ shortAddress = coordinatorShort ∨
              ¬(11 ≤ channel ∧ channel ≤ 26) then reject
          else pure (⟨panId, coordinatorShort, channel, shortAddress⟩, source, destination)

def isUnicastMacAddress : MacAddress → Bool
  | .short _ address => decide (address < 0xFFF8)
  | .extended _ address => decide (address ≠ ieeeFill 0xFF)

/-- The indications that the parser of parent-side commands makes; security is never in use. -/
inductive MacCommandEvent where
  | beaconRequest (destinationAddress : MacAddress) (lqi : UInt8)
  | associationRequest (deviceAddress : IeeeAddress) (coordinatorAddress : MacAddress) (capabilityInfo : CapabilityInfo)
      (lqi : UInt8)
  | dataRequest (sourceAddress destinationAddress : MacAddress) (lqi : UInt8)
  | orphanNotification (orphanAddress : IeeeAddress) (destinationAddress : MacAddress) (lqi : UInt8)
  deriving DecidableEq

/-- The arm of an Association Request, behind its framing. -/
def associationCommand (source destination : MacAddress) (capability lqi : UInt8) : Parse MacCommandEvent :=
  match source with
  | .short _ _ => reject
  | .extended sourcePan deviceAddress =>
    if sourcePan ≠ PanId.BROADCAST ∨ deviceAddress = ieeeFill 0xFF ∨ destination.panId = PanId.BROADCAST ∨
        isUnicastMacAddress destination = false then reject
    else pure (.associationRequest deviceAddress destination (.fromByte capability) lqi)

/-- The arm of a Data Request. -/
def dataCommand (source destination : MacAddress) (lqi : UInt8) : Parse MacCommandEvent :=
  if isUnicastMacAddress source = false ∨ isUnicastMacAddress destination = false ∨ source.panId ≠ destination.panId ∨
      destination.panId = PanId.BROADCAST then reject
  else pure (.dataRequest source destination lqi)

/-- The `match` on the command identifier. -/
def parentCommandAt (data : Buf) (fc : UInt16) (offset : Nat) (source destination : MacAddress) (lqi : UInt8) :
    Parse MacCommandEvent := do
  let panCompress := fc &&& bit16 6 != 0
  let ackRequest := fc &&& bit16 5 != 0
  let command ← index data offset
  if command = 0x07 ∧ data.length = offset + 1 ∧ dstModeOf fc = 2 ∧ srcModeOf fc = 0 ∧ panCompress = false ∧
      ackRequest = false ∧ destination = .short PanId.BROADCAST SHORT_BROADCAST then
    pure (.beaconRequest destination lqi)
  else if command = 0x01 ∧ data.length = offset + 2 ∧ (dstModeOf fc = 2 ∨ dstModeOf fc = 3) ∧ srcModeOf fc = 3 ∧
      panCompress = false ∧ ackRequest = true then do
    let capability ← index data (offset + 1)
    associationCommand source destination capability lqi
  else if command = 0x04 ∧ data.length = offset + 1 ∧ (dstModeOf fc = 2 ∨ dstModeOf fc = 3) ∧
      (srcModeOf fc = 2 ∨ srcModeOf fc = 3) ∧ ackRequest = true then
    dataCommand source destination lqi
  else if command = MAC_CMD_ORPHAN_NOTIFICATION ∧ data.length = offset + 1 ∧ dstModeOf fc = 2 ∧ srcModeOf fc = 3 ∧
      panCompress = true ∧ ackRequest = false then do
    let orphanAddress ← parseOrphanNotification data
    pure (.orphanNotification orphanAddress destination lqi)
  else reject

def parseParentCommand (data : Buf) (lqi : UInt8) : Parse MacCommandEvent :=
  if data.length < 3 then reject
  else do
    let fc ← u16Index data 0
    if fc &&& 0x07 ≠ 0x03 ∨ fc &&& bit16 3 ≠ 0 then reject
    else if (1 : UInt16) < (fc >>> 12) &&& 0x03 ∨ fc &&& (bit16 7 ||| bit16 8 ||| bit16 9) ≠ 0 ∨ dstModeOf fc = 1 ∨
        srcModeOf fc = 1 then reject
    else
      let payloadOffset := 3 + addressingSize fc
      if data.length ≤ payloadOffset then reject
      else do
        let addresses ← parseMacAddresses data
        if addresses.payloadOffset ≠ payloadOffset then reject
        else parentCommandAt data fc payloadOffset addresses.source addresses.destination lqi

end Zigbee.Mac
