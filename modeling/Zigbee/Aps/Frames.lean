import Zigbee.Lib.FieldReader
import Zigbee.Types

/-!
# APS frame headers

Model of `zigbee-aps/src/frames.rs` and of the auxiliary security header of `security.rs`.

A parser returns the header and the bytes behind it; the offset that the source returns is the
difference of the two lengths.
-/

namespace Zigbee.Aps

open Bytes (Buf le16 le32 readU8 readU16 readU32 readArray readIf)

inductive ApsFrameType where
  | data
  | command
  | ack
  | interPan
  deriving DecidableEq, Repr

def ApsFrameType.toU8 : ApsFrameType → UInt8
  | .data => 0x00
  | .command => 0x01
  | .ack => 0x02
  | .interPan => 0x03

def ApsFrameType.fromU8 (v : UInt8) : Option ApsFrameType :=
  if v = 0x00 then some .data
  else if v = 0x01 then some .command
  else if v = 0x02 then some .ack
  else if v = 0x03 then some .interPan
  else none

inductive ApsDeliveryMode where
  | unicast
  | indirect
  | broadcast
  | group
  deriving DecidableEq, Repr

def ApsDeliveryMode.toU8 : ApsDeliveryMode → UInt8
  | .unicast => 0x00
  | .indirect => 0x01
  | .broadcast => 0x02
  | .group => 0x03

def ApsDeliveryMode.fromU8 (v : UInt8) : Option ApsDeliveryMode :=
  if v = 0x00 then some .unicast
  else if v = 0x01 then some .indirect
  else if v = 0x02 then some .broadcast
  else if v = 0x03 then some .group
  else none

structure ApsFrameControl where
  frameType : UInt8
  deliveryMode : UInt8
  ackFormat : Bool
  security : Bool
  ackRequest : Bool
  extendedHeader : Bool
  deriving DecidableEq

def ApsFrameControl.parse (raw : UInt8) : ApsFrameControl where
  frameType := raw &&& 0x03
  deliveryMode := (raw >>> 2) &&& 0x03
  ackFormat := (raw >>> 4) &&& 1 != 0
  security := (raw >>> 5) &&& 1 != 0
  ackRequest := (raw >>> 6) &&& 1 != 0
  extendedHeader := (raw >>> 7) &&& 1 != 0

def ApsFrameControl.serialize (fc : ApsFrameControl) : UInt8 :=
  let bit (b : Bool) (i : UInt8) : UInt8 := if b then 1 <<< i else 0
  (fc.frameType &&& 0x03) ||| ((fc.deliveryMode &&& 0x03) <<< (2 : UInt8)) ||| bit fc.ackFormat 4 |||
    bit fc.security 5 ||| bit fc.ackRequest 6 ||| bit fc.extendedHeader 7

def FRAG_NONE : UInt8 := 0x00

def FRAG_RESERVED : UInt8 := 0x03

structure ApsExtendedHeader where
  fragmentation : UInt8
  blockNumber : UInt8
  ackBitfield : Option UInt8
  deriving DecidableEq

structure ApsHeader where
  frameControl : ApsFrameControl
  dstEndpoint : Option UInt8
  groupAddress : Option UInt16
  clusterId : Option UInt16
  profileId : Option UInt16
  srcEndpoint : Option UInt8
  apsCounter : UInt8
  extendedHeader : Option ApsExtendedHeader
  deriving DecidableEq

namespace ApsExtendedHeader

def parse (frameType : ApsFrameType) (data : Buf) : Option (ApsExtendedHeader × Buf) := do
  let (extFc, data) ← readU8 data
  let fragmentation := extFc &&& 0x03
  if fragmentation = FRAG_RESERVED then none
  else if fragmentation = FRAG_NONE then some (⟨fragmentation, 0, none⟩, data)
  else
    let (blockNumber, data) ← readU8 data
    -- only an acknowledgement carries the bitfield
    let (ackBitfield, data) ← readIf (frameType == .ack) readU8 data
    some (⟨fragmentation, blockNumber, ackBitfield⟩, data)

def serialize (frameType : UInt8) (ext : ApsExtendedHeader) : Buf :=
  (ext.fragmentation &&& 0x03) ::
    if ext.fragmentation = FRAG_NONE then []
    else ext.blockNumber ::
      if frameType = ApsFrameType.ack.toU8 then [ext.ackBitfield.getD 0] else []

end ApsExtendedHeader

namespace ApsHeader

/-- Whether the frame carries endpoints, cluster and profile: the acknowledgement of a command does
    not. -/
def addressed (frameType : ApsFrameType) (fc : ApsFrameControl) : Bool :=
  match frameType with
  | .data => true
  | .ack => !fc.ackFormat
  | .command | .interPan => false

def parse (data : Buf) : Option (ApsHeader × Buf) := do
  let (raw, data) ← readU8 data
  let fc := ApsFrameControl.parse raw
  let frameType ← ApsFrameType.fromU8 fc.frameType
  let deliveryMode ← ApsDeliveryMode.fromU8 fc.deliveryMode
  let isAddressed := addressed frameType fc
  let (dstEndpoint, data) ←
    readIf (isAddressed && (deliveryMode == .unicast || deliveryMode == .broadcast)) readU8 data
  let (groupAddress, data) ← readIf (deliveryMode == .group) readU16 data
  let (clusterId, data) ← readIf isAddressed readU16 data
  let (profileId, data) ← readIf isAddressed readU16 data
  let (srcEndpoint, data) ← readIf isAddressed readU8 data
  let (apsCounter, data) ← readU8 data
  let (extendedHeader, data) ← readIf fc.extendedHeader (ApsExtendedHeader.parse frameType) data
  some (⟨fc, dstEndpoint, groupAddress, clusterId, profileId, srcEndpoint, apsCounter, extendedHeader⟩, data)

def serialize (h : ApsHeader) : Buf :=
  [h.frameControl.serialize] ++ h.dstEndpoint.toList ++ (h.groupAddress.map le16).getD [] ++
    (h.clusterId.map le16).getD [] ++ (h.profileId.map le16).getD [] ++ h.srcEndpoint.toList ++ [h.apsCounter] ++
    (h.extendedHeader.map (ApsExtendedHeader.serialize h.frameControl.frameType)).getD []

end ApsHeader

/-! ## The auxiliary header -/

def KEY_ID_NETWORK_KEY : UInt8 := 0x01

structure ApsSecurityHeader where
  securityControl : UInt8
  frameCounter : UInt32
  sourceAddress : Option IeeeAddress
  keySeqNumber : Option UInt8
  deriving DecidableEq

namespace ApsSecurityHeader

def keyIdentifier (sc : UInt8) : UInt8 := (sc >>> 3) &&& 0x03

def extendedNonce (sc : UInt8) : Bool := (sc >>> 5) &&& 1 != 0

def parse (data : Buf) : Option (ApsSecurityHeader × Buf) := do
  if data.length < 5 then none
  else
    let (securityControl, data) ← readU8 data
    let (frameCounter, data) ← readU32 data
    let (sourceAddress, data) ← readIf (extendedNonce securityControl) (readArray 8) data
    let (keySeqNumber, data) ← readIf (keyIdentifier securityControl == KEY_ID_NETWORK_KEY) readU8 data
    some (⟨securityControl, frameCounter, sourceAddress, keySeqNumber⟩, data)

def serialize (h : ApsSecurityHeader) : Buf :=
  [h.securityControl] ++ le32 h.frameCounter ++ (h.sourceAddress.map (·.toList)).getD [] ++ h.keySeqNumber.toList

end ApsSecurityHeader

end Zigbee.Aps
