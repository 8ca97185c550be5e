import Zigbee.Lib.FieldReader
import Zigbee.Nwk.ChildTable

/-!
# Parent announcements

Model of `zigbee-zdo/src/parent_annce.rs` and of its dispatch in `handler.rs`: a router that has rebooted names
its end-device children to the other routers, and the children that another router has heard since then are
given up.

* `parseChildList`, `serializeChildList` — the child list of both messages.
* `ZdoLayer` — the pending transactions, the announcement timer and the handlers.

A transmission that is reported as failed may have been received all the same, so every frame that is handed
to the APS layer counts as sent.  The pending transactions of other clusters keep the fields that decide
which slot is free.
-/

namespace Zigbee.Zdo

open Bytes (Buf readU8 readArray readTimes)
open Nwk

/-- `apsde::APS_MAX_PAYLOAD` -/
def APS_MAX_PAYLOAD : Nat := 80

def MAX_PARENT_ANNCE_CHILDREN : Nat := (APS_MAX_PAYLOAD - 3) / 8

def PARENT_ANNCE_RESPONSE_WINDOW_SECS : UInt16 := 5

def APS_PARENT_ANNOUNCE_BASE_TIMER_SECS : UInt16 := 10

def APS_PARENT_ANNOUNCE_JITTER_MAX_SECS : UInt16 := 10

def PARENT_ANNCE_RSP : UInt16 := 0x801F

def MAX_PENDING_ZDP : Nat := 4

/-- `ZdpStatus::Success` -/
def ZDP_SUCCESS : UInt8 := 0x00

inductive ZdoError where
  | invalidLength
  | invalidData
  | bufferTooSmall
  | tableFull
  | apsError
  deriving DecidableEq, Repr

/-! ## Child lists -/

/-- Trailing bytes are ignored; the reads fail where the payload is too short for the count. -/
def parseChildList (data : Buf) : Option (List IeeeAddress) :=
  (readU8 data).bind fun r =>
    if MAX_PARENT_ANNCE_CHILDREN < r.1.toNat then none
    else (readTimes (readArray 8) r.1.toNat r.2).map (·.1)

def serializeChildList (children : List IeeeAddress) (bufLen : Nat) : Except ZdoError Buf :=
  if MAX_PARENT_ANNCE_CHILDREN < children.length then .error .invalidLength
  else if bufLen < 1 + children.length * 8 then .error .bufferTooSmall
  else .ok (UInt8.ofNat children.length :: children.flatMap (·.toList))

def serializeParentAnnceRsp (status : UInt8) (children : List IeeeAddress) (bufLen : Nat) : Except ZdoError Buf :=
  if bufLen = 0 then .error .bufferTooSmall
  else (serializeChildList children (bufLen - 1)).map (status :: ·)

def parseParentAnnceRsp (data : Buf) : Option (UInt8 × List IeeeAddress) :=
  (readU8 data).bind fun r => (parseChildList r.2).map (r.1, ·)

/-- `[T]::chunks`, of at most `fuel` chunks. -/
def chunksOf : Nat → List IeeeAddress → List (List IeeeAddress)
  | 0, _ => []
  | fuel + 1, l =>
    if l.isEmpty then [] else l.take MAX_PARENT_ANNCE_CHILDREN :: chunksOf fuel (l.drop MAX_PARENT_ANNCE_CHILDREN)

def chunks (l : List IeeeAddress) : List (List IeeeAddress) := chunksOf l.length l

theorem parseChildList_serialize {children : List IeeeAddress} {bufLen : Nat} {body : Buf}
    (h : serializeChildList children bufLen = .ok body) : parseChildList body = some children := by
  unfold serializeChildList at h
  split at h
  · cases h
  · rename_i hfits
    split at h
    · cases h
    · cases h
      have hcount : (UInt8.ofNat children.length).toNat = children.length := by
        have : MAX_PARENT_ANNCE_CHILDREN = 9 := rfl
        exact Nat.mod_eq_of_lt (by omega)
      have hread := ((Bytes.readArray_inverse 8).readTimes children.length).complete children [] ⟨rfl, fun _ _ => trivial⟩
      rw [List.append_nil] at hread
      unfold parseChildList
      rw [readU8, Option.bind_some]
      dsimp only
      rw [hcount, if_neg hfits, hread]
      rfl

theorem parseParentAnnceRsp_serialize {status : UInt8} {children : List IeeeAddress} {bufLen : Nat} {body : Buf}
    (h : serializeParentAnnceRsp status children bufLen = .ok body) : parseParentAnnceRsp body = some (status, children) := by
  unfold serializeParentAnnceRsp at h
  split at h
  · cases h
  · cases hlist : serializeChildList children (bufLen - 1) with
    | error e =>
      rw [hlist] at h
      cases h
    | ok list =>
      rw [hlist] at h
      cases h
      unfold parseParentAnnceRsp
      rw [readU8, Option.bind_some]
      dsimp only
      rw [parseChildList_serialize hlist]
      rfl

theorem chunks_of_le {l : List IeeeAddress} (hne : l ≠ []) (hlen : l.length ≤ MAX_PARENT_ANNCE_CHILDREN) : chunks l = [l] := by
  obtain ⟨n, hn⟩ := Nat.exists_eq_succ_of_ne_zero (fun h => hne (List.length_eq_zero_iff.mp h))
  have hrest : chunksOf n [] = [] := by cases n <;> rfl
  unfold chunks
  rw [hn, chunksOf, if_neg (by simpa using hne), List.take_of_length_le hlen, List.drop_eq_nil_of_le hlen, hrest]

/-! ## The ZDO layer -/

structure PendingZdpResponse where
  active : Bool
  tsn : UInt8
  rspCluster : UInt16
  completed : Bool
  remainingSecs : UInt16
  deriving DecidableEq

namespace PendingZdpResponse

def empty : PendingZdpResponse := ⟨false, 0, 0, false, 0⟩

def isParentAnnce (slot : PendingZdpResponse) : Bool := slot.active && slot.rspCluster == PARENT_ANNCE_RSP

def cancel (slot : PendingZdpResponse) : PendingZdpResponse :=
  { slot with active := false, completed := false, remainingSecs := 0 }

end PendingZdpResponse

structure ZdoLayer where
  nwk : NwkLayer
  /-- The next transaction number; its seed is the initial state. -/
  seq : UInt8
  pendingResponses : List PendingZdpResponse
  parentAnnceTimerSecs : UInt16
  parentAnnceSequenceActive : Bool

namespace ZdoLayer

def nextSeq (z : ZdoLayer) : ZdoLayer × UInt8 := ({ z with seq := z.seq + 1 }, z.seq)

def modifySlots (z : ZdoLayer) (f : PendingZdpResponse → PendingZdpResponse) : ZdoLayer :=
  { z with pendingResponses := z.pendingResponses.map f }

def registerPending (z : ZdoLayer) (tsn : UInt8) (rspCluster : UInt16) (remainingSecs : UInt16) : Option (ZdoLayer × Nat) :=
  (z.pendingResponses.findIdx? (!·.active)).map fun i =>
    ({ z with pendingResponses := z.pendingResponses.set i ⟨true, tsn, rspCluster, false, remainingSecs⟩ }, i)

def cancelPending (z : ZdoLayer) (slot : Nat) : ZdoLayer :=
  { z with pendingResponses := z.pendingResponses.modify slot PendingZdpResponse.cancel }

def cancelAllPending (z : ZdoLayer) : ZdoLayer := z.modifySlots PendingZdpResponse.cancel

def clearPendingParentAnnce (z : ZdoLayer) : ZdoLayer :=
  z.modifySlots fun slot => if slot.isParentAnnce then slot.cancel else slot

def registerPendingParentAnnce (z : ZdoLayer) (tsn : UInt8) : Option (ZdoLayer × Nat) :=
  z.registerPending tsn PARENT_ANNCE_RSP PARENT_ANNCE_RESPONSE_WINDOW_SECS

def acceptsParentAnnceRsp (z : ZdoLayer) (tsn : UInt8) : Bool :=
  z.pendingResponses.any fun slot => slot.isParentAnnce && slot.tsn == tsn && decide (0 < slot.remainingSecs)

def saturatingSub16 (a b : UInt16) : UInt16 := if b ≤ a then a - b else 0

def tickParentAnnceTransactions (z : ZdoLayer) (elapsedSecs : UInt16) : ZdoLayer :=
  z.modifySlots fun slot =>
    if !slot.isParentAnnce then slot
    else
      let remainingSecs := saturatingSub16 slot.remainingSecs elapsedSecs
      if remainingSecs = 0 then { slot with remainingSecs, active := false, completed := false }
      else { slot with remainingSecs }

/-! ### The announcement timer -/

def nextParentAnnceTimer (micros : UInt32) : UInt16 :=
  APS_PARENT_ANNOUNCE_BASE_TIMER_SECS +
    (routingRandomSample micros % (APS_PARENT_ANNOUNCE_JITTER_MAX_SECS + 1).toUInt32).toUInt16

def scheduleParentAnnce (z : ZdoLayer) (micros : UInt32) : ZdoLayer :=
  if !z.nwk.canRoute then z
  else
    { z with
      nwk := z.nwk.clearParentAnncePending
      parentAnnceSequenceActive := false
      parentAnnceTimerSecs := nextParentAnnceTimer micros }

def cancelParentAnnce (z : ZdoLayer) : ZdoLayer :=
  { z with nwk := z.nwk.clearParentAnncePending, parentAnnceSequenceActive := false, parentAnnceTimerSecs := 0 }

/-- The flag says whether a broadcast is now due. -/
def tickParentAnnceTimer (z : ZdoLayer) (elapsedSecs : UInt16) : ZdoLayer × Bool :=
  if z.parentAnnceTimerSecs = 0 then (z, false)
  else
    let parentAnnceTimerSecs := saturatingSub16 z.parentAnnceTimerSecs elapsedSecs
    ({ z with parentAnnceTimerSecs }, parentAnnceTimerSecs == 0)

/-! ### Sending

The frames of an operation are its transaction numbers and bodies; `sent` says of each transmission whether
it was reported as successful. -/

/-- One `Parent_annce` frame. -/
def sendChunk (z : ZdoLayer) (chunk : List IeeeAddress) (sent : Bool) : ZdoLayer × List Buf × Except ZdoError Unit :=
  let (z, tsn) := z.nextSeq
  match serializeChildList chunk (1 + MAX_PARENT_ANNCE_CHILDREN * 8) with
  | .error e => (z, [], .error e)
  | .ok list =>
    match z.registerPendingParentAnnce tsn with
    | none => (z, [], .error .tableFull)
    | some (z, pending) =>
      if sent then (z, [tsn :: list], .ok ()) else (z.cancelPending pending, [tsn :: list], .error .apsError)

def sendChunks : List (List IeeeAddress) → List Bool → ZdoLayer → ZdoLayer × List Buf × Except ZdoError Unit
  | [], _, z => (z, [], .ok ())
  | chunk :: rest, sent, z =>
    match z.sendChunk chunk (sent.headD true) with
    | (z, frames, .error e) => (z, frames, .error e)
    | (z, frames, .ok ()) =>
      let (z, frames', result) := sendChunks rest sent.tail z
      (z, frames ++ frames', result)

def sendParentAnnceChildren (z : ZdoLayer) (children : List IeeeAddress) (sent : List Bool) :
    ZdoLayer × List Buf × Except ZdoError Unit :=
  sendChunks (chunks children) sent z.clearPendingParentAnnce

def sendParentAnnce (z : ZdoLayer) (sent : List Bool) : ZdoLayer × List Buf × Except ZdoError Unit :=
  if !z.nwk.canRoute then (z, [], .ok ()) else z.sendParentAnnceChildren z.nwk.authenticatedChildIeees sent

/-- The next chunk of a sequence that is under way. -/
def sendNextChunk (z : ZdoLayer) (micros : UInt32) (sent : List Bool) : ZdoLayer × List Buf × Except ZdoError Unit :=
  let (nwk, chunk) := z.nwk.takeParentAnnceChunk MAX_PARENT_ANNCE_CHILDREN
  let z := { z with nwk }
  if chunk.isEmpty then ({ z with parentAnnceSequenceActive := false }, [], .ok ())
  else
    match z.sendParentAnnceChildren chunk sent with
    | (z, frames, .error e) => (z, frames, .error e)
    | (z, frames, .ok ()) =>
      (if z.nwk.hasParentAnncePending then { z with parentAnnceTimerSecs := nextParentAnnceTimer micros }
        else { z with parentAnnceSequenceActive := false }, frames, .ok ())

def sendDueParentAnnce (z : ZdoLayer) (micros : UInt32) (sent : List Bool) : ZdoLayer × List Buf × Except ZdoError Unit :=
  if !z.nwk.canRoute then (z, [], .ok ())
  else if !z.parentAnnceSequenceActive then
    let (nwk, marked) := z.nwk.markParentAnncePending
    if marked = 0 then ({ z with nwk, parentAnnceSequenceActive := false }, [], .ok ())
    else sendNextChunk { z with nwk, parentAnnceSequenceActive := true } micros sent
  else if !z.nwk.hasParentAnncePending then ({ z with parentAnnceSequenceActive := false }, [], .ok ())
  else z.sendNextChunk micros sent

/-! ### Receiving -/

/-- The replies, until one cannot be sent. -/
def sendReplies (requestTsn : UInt8) : List (List IeeeAddress) → List Bool → List Buf × Except ZdoError Unit
  | [], _ => ([], .ok ())
  | chunk :: rest, sent =>
    match serializeParentAnnceRsp ZDP_SUCCESS chunk (2 + MAX_PARENT_ANNCE_CHILDREN * 8) with
    | .error e => ([], .error e)
    | .ok body =>
      if sent.headD true then
        let (frames, result) := sendReplies requestTsn rest sent.tail
        ((requestTsn :: body) :: frames, result)
      else ([requestTsn :: body], .error .apsError)

def processParentAnnce (z : ZdoLayer) (requestTsn : UInt8) (payload : Buf) (micros : UInt32) (sent : List Bool) :
    ZdoLayer × List Buf × Except ZdoError Unit :=
  if !z.nwk.canRoute then (z, [], .ok ())
  else
    let z := if z.parentAnnceTimerSecs = 0 then z else { z with parentAnnceTimerSecs := nextParentAnnceTimer micros }
    match parseChildList payload with
    | none => (z, [], .error .invalidLength)
    | some children =>
      let (nwk, outcome) := z.nwk.applyParentAnnce children
      ({ z with nwk }, sendReplies requestTsn (chunks outcome.kept) sent)

def processParentAnnceRsp (z : ZdoLayer) (responseTsn : UInt8) (payload : Buf) : ZdoLayer :=
  if !z.nwk.canRoute then z
  else
    match parseParentAnnceRsp payload with
    | none => z
    | some (status, children) =>
      if status ≠ ZDP_SUCCESS ∨ z.acceptsParentAnnceRsp responseTsn = false then z
      else { z with nwk := z.nwk.removeChildrenByIeee children }

/-- What the dispatcher asks of the sender of either message. -/
def admitsSender (z : ZdoLayer) (source : ShortAddress) : Bool :=
  source < 0xFFF8 && !(z.nwk.neighbors.findByShort source).any (·.deviceType == .endDevice)

/-- A secured `Parent_annce`, broadcast to all routers. -/
def handleParentAnnce (z : ZdoLayer) (source : ShortAddress) (frame : Buf) (micros : UInt32) (sent : List Bool) :
    ZdoLayer × List Buf × Except ZdoError Unit :=
  match frame with
  | [] => (z, [], .error .invalidLength)
  | tsn :: payload => if z.admitsSender source then z.processParentAnnce tsn payload micros sent else (z, [], .ok ())

/-- A secured `Parent_annce_rsp`, unicast to this device. -/
def handleParentAnnceRsp (z : ZdoLayer) (source : ShortAddress) (frame : Buf) : ZdoLayer :=
  match frame with
  | [] => z
  | tsn :: payload => if z.admitsSender source then z.processParentAnnceRsp tsn payload else z

end ZdoLayer

end Zigbee.Zdo
