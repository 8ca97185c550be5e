import Zigbee.Types

/-!
# NWK frames

Model of what `zigbee-nwk/src/frames.rs` holds of the frames that a router builds, queues and sends:
the header, the Route Request command with its codec, and the frame that goes on air.  The header's
bytes and the encryption are left out: a frame carries its header, its payload in clear, and the frame
counter of its auxiliary header when it is secured.
-/

namespace Zigbee.Nwk

open Bytes

structure NwkFrameControl where
  frameType : UInt8
  protocolVersion : UInt8
  discoverRoute : UInt8
  multicast : Bool
  security : Bool
  sourceRoute : Bool
  dstIeeePresent : Bool
  srcIeeePresent : Bool
  endDeviceInitiator : Bool
  deriving DecidableEq

structure SourceRoute where
  relayCount : UInt8
  relayIndex : UInt8
  relayList : List ShortAddress
  deriving DecidableEq

structure NwkHeader where
  frameControl : NwkFrameControl
  dstAddr : ShortAddress
  srcAddr : ShortAddress
  radius : UInt8
  seqNumber : UInt8
  dstIeee : Option IeeeAddress
  srcIeee : Option IeeeAddress
  multicastControl : Option UInt8
  sourceRoute : Option SourceRoute
  deriving DecidableEq

/-- Bytes that `NwkHeader::serialize` writes. -/
def NwkHeader.length (h : NwkHeader) : Nat :=
  8 + (if h.dstIeee.isSome then 8 else 0) + (if h.srcIeee.isSome then 8 else 0) +
    (if h.multicastControl.isSome then 1 else 0) +
    (match h.sourceRoute with
      | none => 0
      | some sr => 2 + 2 * sr.relayList.length)

def NwkFrameType.data : UInt8 := 0

def NwkFrameType.command : UInt8 := 1

def NwkCommandId.routeRequest : UInt8 := 0x01

def NwkCommandId.routeRecord : UInt8 := 0x05

/-- `0x0000..=0xFFF7` names individual devices. -/
def isUnicastAddress (addr : ShortAddress) : Bool := addr < 0xFFF8

def ShortAddress.BROADCAST : ShortAddress := 0xFFFF

def ALL_ROUTERS_AND_COORDINATOR : ShortAddress := 0xFFFC

/-- A NWK frame as it is handed to the MAC. -/
structure NwkFrame where
  header : NwkHeader
  payload : List UInt8
  frameCounter : Option UInt32
  deriving DecidableEq

/-! ## Route Request -/

structure RouteRequest where
  commandOptions : UInt8
  routeRequestId : UInt8
  dstAddr : ShortAddress
  pathCost : UInt8
  dstIeee : Option IeeeAddress
  deriving DecidableEq

namespace RouteRequest

def parse (data : List UInt8) : Option RouteRequest :=
  if data.length < 5 then none
  else if u8At data 0 &&& 0x20 ≠ 0 then
    if data.length < 13 then none
    else some ⟨u8At data 0, u8At data 1, u16At data 2, u8At data 4, some (arrayAt 8 data 5)⟩
  else some ⟨u8At data 0, u8At data 1, u16At data 2, u8At data 4, none⟩

def serialize (r : RouteRequest) : List UInt8 :=
  [r.commandOptions, r.routeRequestId] ++ (le16 r.dstAddr ++ (r.pathCost ::
    match r.dstIeee with
    | none => []
    | some ieee => ieee.toList))

/-- The option bit tells whether the destination's IEEE address is there, as it does in every request
    that was parsed. -/
def Consistent (r : RouteRequest) : Prop := r.commandOptions &&& 0x20 ≠ 0 ↔ r.dstIeee.isSome = true

theorem parse_consistent {data : List UInt8} {r : RouteRequest} (h : parse data = some r) : r.Consistent := by
  unfold parse at h
  split at h
  · cases h
  · split at h
    · split at h
      · cases h
      · cases h
        exact iff_of_true ‹_› rfl
    · cases h
      exact iff_of_false ‹_› (by simp)

theorem u16At_dstAddr (options id cost : UInt8) (dst : ShortAddress) (tail : List UInt8) :
    u16At ([options, id] ++ (le16 dst ++ cost :: tail)) 2 = dst := by
  rw [u16At_append_right (by simp)]
  exact u16At_le16 dst _

theorem arrayAt_dstIeee (options id cost : UInt8) (dst : ShortAddress) (ieee : IeeeAddress) :
    arrayAt 8 ([options, id] ++ (le16 dst ++ cost :: ieee.toList)) 5 = ieee := by
  have hsplit : [options, id] ++ (le16 dst ++ cost :: ieee.toList) =
      ([options, id] ++ (le16 dst ++ [cost])) ++ ieee.toList := by simp
  rw [hsplit, arrayAt_append_right (by simp)]
  simpa using arrayAt_toList ieee []

/-- **A serialized request parses to itself.** -/
theorem parse_serialize {r : RouteRequest} (h : r.Consistent) : parse r.serialize = some r := by
  obtain ⟨options, id, dst, cost, ieee⟩ := r
  cases ieee with
  | none =>
    have hbit : ¬ (options &&& 0x20 ≠ 0) := fun hbit => by simpa using h.mp hbit
    have h0 : u8At (serialize ⟨options, id, dst, cost, none⟩) 0 = options := rfl
    have hlen : ¬ (serialize ⟨options, id, dst, cost, none⟩).length < 5 := by simp [serialize]
    rw [parse, if_neg hlen, h0, if_neg hbit]
    refine congrArg some ?_
    rw [serialize, u16At_dstAddr]
    rfl
  | some ieee =>
    have hbit : options &&& 0x20 ≠ 0 := h.mpr rfl
    have h0 : u8At (serialize ⟨options, id, dst, cost, some ieee⟩) 0 = options := rfl
    have hlen : ¬ (serialize ⟨options, id, dst, cost, some ieee⟩).length < 5 := by simp [serialize]
    have hlen' : ¬ (serialize ⟨options, id, dst, cost, some ieee⟩).length < 13 := by simp [serialize]
    rw [parse, if_neg hlen, h0, if_pos hbit, if_neg hlen']
    refine congrArg some ?_
    rw [serialize, u16At_dstAddr, arrayAt_dstIeee]
    rfl

end RouteRequest

end Zigbee.Nwk
