import Zigbee.Lib.Run
import Zigbee.Nwk.Frames
import Zigbee.Nwk.Indirect
import Zigbee.Nwk.Neighbor
import Zigbee.Nwk.Routing
import Zigbee.Nwk.Security

/-!
# NWK layer

Model of `NwkLayer` (`zigbee-nwk/src/lib.rs`, `nlde.rs`, `nwk_commands.rs`, `routing.rs`), and here of the
part that builds frames, holds broadcasts for their transmission deadline and puts frames on air.  `air`
and `hops` are the log of what the radio sent, in order, and to which MAC destination.

What a lookup of the next hop among the neighbours, the clock, the AES engine and the MAC answer is an
argument of each operation here, so a result for every argument holds whatever they answer.
-/

namespace Zigbee.Nwk

inductive NwkStatus where
  | invalidRequest
  | notPermitted
  | neighborTableFull
  | noKey
  | maxFrmCounterReached
  | badCcmOutput
  | frameTooLong
  | routeError
  | invalidParameter
  | routeDiscoveryFailed
  | frameNotBuffered
  deriving DecidableEq, Repr

inductive DeviceType where
  | coordinator
  | router
  | endDevice
  deriving DecidableEq

/-- What came of one `mcps_data` call: sent (and acknowledged, if that was asked for), sent without an
    acknowledgement, or not sent at all. -/
inductive MacOutcome where
  | confirmed
  | noAck
  | failed
  deriving DecidableEq, Repr

def MacOutcome.isOk (o : MacOutcome) : Bool := o == .confirmed

def MacOutcome.onAir (o : MacOutcome) : Bool := o != .failed

structure Nib where
  networkAddress : ShortAddress
  depth : UInt8
  maxDepth : UInt8
  maxRouters : UInt8
  maxChildren : UInt8
  ieeeAddress : IeeeAddress
  parentAddress : ShortAddress
  passiveAckTimeout : UInt16
  maxBroadcastRetries : UInt8
  securityEnabled : Bool
  outgoingFrameCounter : UInt32
  outgoingFrameCounterLimit : UInt32
  sequenceNumber : UInt8
  routeRequestId : UInt8
  permitJoining : Bool

def Nib.new : Nib where
  networkAddress := 0xFFFF
  depth := 0
  maxDepth := 15
  maxRouters := 5
  maxChildren := 20
  ieeeAddress := .replicate 8 0
  parentAddress := 0xFFFF
  passiveAckTimeout := 500
  maxBroadcastRetries := 3
  securityEnabled := false
  outgoingFrameCounter := 0
  outgoingFrameCounterLimit := 0
  sequenceNumber := 0
  routeRequestId := 0
  permitJoining := false

def Nib.nextSeq (n : Nib) : Nib × UInt8 :=
  ({ n with sequenceNumber := n.sequenceNumber + 1 }, n.sequenceNumber)

def Nib.nextRouteRequestId (n : Nib) : Nib × UInt8 :=
  ({ n with routeRequestId := n.routeRequestId + 1 }, n.routeRequestId)

/-- The counter before the increment; `none` at the durably reserved limit. -/
def Nib.nextFrameCounter (n : Nib) : Nib × Option UInt32 :=
  if n.outgoingFrameCounterLimit ≤ n.outgoingFrameCounter then (n, none)
  else ({ n with outgoingFrameCounter := n.outgoingFrameCounter + 1 }, some n.outgoingFrameCounter)

/-! ## Records of Route Requests -/

def MAX_RREQ_RECORDS : Nat := 8

def MAX_RREQ_SENDERS : Nat := MAX_NEIGHBORS true

def RREQ_RECORD_LIFETIME_SECS : UInt8 := 12

structure RreqRecord where
  originator : ShortAddress
  routeRequestId : UInt8
  /-- Neighbours whose copies were accepted at the current best cost. -/
  senders : List ShortAddress
  forwardCost : UInt8
  expiry : UInt8
  active : Bool
  deriving DecidableEq

def RreqRecord.empty : RreqRecord := ⟨0xFFFF, 0, [], 0xFF, 0, false⟩

def RreqRecord.isFor (e : RreqRecord) (originator : ShortAddress) (routeRequestId : UInt8) : Bool :=
  e.active && e.originator == originator && e.routeRequestId == routeRequestId

abbrev RreqRecordTable := List RreqRecord

namespace RreqRecordTable

open Table (modifyFirst)

def new : RreqRecordTable := List.replicate MAX_RREQ_RECORDS .empty

/-- What `admit` makes of the record of the request, if it admits the copy. -/
def admitEntry (e : RreqRecord) (sender : ShortAddress) (forwardCost : UInt8) : Option RreqRecord :=
  if e.forwardCost < forwardCost then none
  else if forwardCost < e.forwardCost then
    some { e with senders := [sender], forwardCost := forwardCost, expiry := RREQ_RECORD_LIFETIME_SECS }
  else if e.senders.contains sender then none
  else if e.senders.length = MAX_RREQ_SENDERS then none
  else some { e with senders := e.senders ++ [sender], expiry := RREQ_RECORD_LIFETIME_SECS }

def admitCopy (t : RreqRecordTable) (originator : ShortAddress) (routeRequestId : UInt8) (sender : ShortAddress)
    (forwardCost : UInt8) : RreqRecordTable × Bool :=
  match t.find? (·.isFor originator routeRequestId) with
  | some e =>
    match admitEntry e sender forwardCost with
    | none => (t, false)
    | some e' => (modifyFirst (·.isFor originator routeRequestId) (fun _ => e') t, true)
  | none =>
    (modifyFirst (!·.active)
      (fun _ => ⟨originator, routeRequestId, [sender], forwardCost, RREQ_RECORD_LIFETIME_SECS, true⟩) t,
      t.any (!·.active))

def remove (t : RreqRecordTable) (originator : ShortAddress) (routeRequestId : UInt8) : RreqRecordTable :=
  modifyFirst (·.isFor originator routeRequestId) (fun e => { e with active := false }) t

/-- `u8::saturating_sub(1)`. -/
def tickExpiry (expiry : UInt8) : UInt8 := if expiry = 0 then 0 else expiry - 1

def age (t : RreqRecordTable) : RreqRecordTable :=
  t.map fun e =>
    if e.active then { e with expiry := tickExpiry e.expiry, active := tickExpiry e.expiry != 0 } else e

def recordedCost (t : RreqRecordTable) (originator : ShortAddress) (routeRequestId : UInt8) : Option UInt8 :=
  (t.find? (·.isFor originator routeRequestId)).map (·.forwardCost)

end RreqRecordTable

/-! ## Broadcast transmission schedule -/

def MAX_PENDING_BROADCASTS : Nat := 4

def MAX_PASSIVE_ACK_NEIGHBORS : Nat := 8

structure PendingBroadcast where
  src : ShortAddress
  seq : UInt8
  frame : NwkFrame
  retriesLeft : UInt8
  deadlineUs : UInt32
  sent : Bool
  rreq : Bool
  handle : UInt8
  heard : List ShortAddress
  deriving DecidableEq

abbrev BroadcastTxTable := List PendingBroadcast

namespace BroadcastTxTable

open Table (swapRemove)

def isFull (t : BroadcastTxTable) : Bool := t.length == MAX_PENDING_BROADCASTS

def canSchedule (t : BroadcastTxTable) : Bool := !t.isFull || t.any (·.sent)

def unsent (t : BroadcastTxTable) : Nat := t.countP (!·.sent)

def canScheduleRouteRequest (t : BroadcastTxTable) : Bool := t.unsent + 1 < MAX_PENDING_BROADCASTS

/-- The transmitted broadcast that a new one displaces in a full table. -/
def victim (t : BroadcastTxTable) : Option Nat :=
  (t.findIdx? fun e => e.sent && !e.rreq).or (t.findIdx? (·.sent))

def schedule (t : BroadcastTxTable) (pending : PendingBroadcast) : BroadcastTxTable × Bool :=
  let t' :=
    if t.isFull && !pending.sent then
      match t.victim with
      | some i => swapRemove t i
      | none => t
    else t
  if t'.length < MAX_PENDING_BROADCASTS then (t' ++ [pending], true) else (t', false)

theorem mem_schedule {t : BroadcastTxTable} {pending e : PendingBroadcast} (h : e ∈ (t.schedule pending).1) :
    e ∈ t ∨ e = pending := by
  have hpush : ∀ t' : BroadcastTxTable, (∀ x ∈ t', x ∈ t) →
      e ∈ (if t'.length < MAX_PENDING_BROADCASTS then (t' ++ [pending], true) else (t', false)).1 →
      e ∈ t ∨ e = pending := by
    intro t' hsub he
    split at he
    · rcases List.mem_append.mp he with he | he
      · exact Or.inl (hsub e he)
      · exact Or.inr (List.mem_singleton.mp he)
    · exact Or.inl (hsub e he)
  refine hpush _ ?_ h
  intro x hx
  split at hx
  · split at hx
    · exact Table.mem_of_mem_swapRemove hx
    · exact hx
  · exact hx

def noteRelay (t : BroadcastTxTable) (src : ShortAddress) (seq : UInt8) (hop : ShortAddress) : BroadcastTxTable :=
  Table.modifyFirst (fun e => e.src == src && e.seq == seq)
    (fun e =>
      if e.heard.contains hop || e.heard.length == MAX_PASSIVE_ACK_NEIGHBORS then e
      else { e with heard := e.heard ++ [hop] }) t

end BroadcastTxTable

/-! ## The layer -/

/-- A Route Request that waits to be forwarded. -/
structure QueuedRreqForward where
  frameControl : NwkFrameControl
  dstAddr : ShortAddress
  originator : ShortAddress
  srcIeee : Option IeeeAddress
  seqNumber : UInt8
  radius : UInt8
  commandOptions : UInt8
  routeRequestId : UInt8
  rreqDst : ShortAddress
  rreqDstIeee : Option IeeeAddress
  pathCost : UInt8

structure PendingRouteReply where
  nextHop : ShortAddress
  originator : ShortAddress
  responder : ShortAddress
  pathCost : UInt8
  routeRequestId : UInt8

/-- A Network Status command that waits to be sent. -/
structure PendingNetworkStatus where
  destination : ShortAddress
  statusCode : UInt8
  failedDestination : ShortAddress
  nextHop : Option ShortAddress

def MAX_INDIRECT (router : Bool) : Nat := if router then 8 else 0

/-- `router` is the feature of that name; where no build is named, it is on. -/
structure NwkLayer (router : Bool := true) where
  nib : Nib
  neighbors : NeighborTable router
  addressMap : AddressMap
  routing : RoutingTable
  security : NwkSecurity
  deviceType : DeviceType
  joined : Bool
  pendingRouteReplies : List PendingRouteReply
  pendingRreqForwards : List QueuedRreqForward
  rreqRecords : RreqRecordTable
  broadcastTx : BroadcastTxTable
  pendingRouteErrors : List PendingNetworkStatus
  indirect : Indirect.IndirectQueue
  concentratorActive : Bool
  sourceRouteTable : SourceRouteTable
  nextChildAddrOffset : UInt16
  air : List NwkFrame
  hops : List ShortAddress

def MAX_NWK_FRAME : Nat := 128

def NWK_AUX_HEADER_LEN : Nat := 14

def CCM_STAR_MAX_PLAINTEXT_LEN : Nat := 124

def CCM_STAR_MIC_LEN : Nat := 4

def MAX_BROADCAST_JITTER_US : UInt32 := 64000

def RREQ_RETRY_INTERVAL_US : UInt32 := 254000

/-- `routing_random_sample`. -/
def routingRandomSample (seed : UInt32) : UInt32 :=
  let seed := seed ^^^ 0xA511E9B3
  let seed := seed ^^^ (seed <<< 13)
  let seed := seed ^^^ (seed >>> 17)
  seed ^^^ (seed <<< 5)

/-- What one pass of the service loop reads: the clock before and after the transmission, what came of
    it, and the router neighbours. -/
structure ServiceReading where
  now : UInt32
  outcome : MacOutcome
  after : UInt32
  allHeard : List ShortAddress → Bool

/-- `(now.wrapping_sub(deadline) as i32) < 0`. -/
def notDue (now deadlineUs : UInt32) : Bool := 0x80000000 ≤ now - deadlineUs

/-- The broadcast owes no transmission after this one. -/
def PendingBroadcast.finished (e : PendingBroadcast) (allHeard : List ShortAddress → Bool) : Bool :=
  e.retriesLeft == 0 || (!e.rreq && allHeard e.heard)

/-- Where the neighbour and routing tables send a frame, and what comes of it there: nowhere, into the
    indirect queue of a sleeping child, or to a hop with an alternative that a missing acknowledgement
    falls back to. -/
inductive Path where
  | unroutable
  | indirect (buffered : Bool)
  | hop (hop : ShortAddress) (first : MacOutcome) (alternate : Option (ShortAddress × MacOutcome))

variable {s s' : NwkLayer}

namespace NwkLayer

variable {router : Bool}

def new (router : Bool) (deviceType : DeviceType) : NwkLayer router where
  nib := .new
  neighbors := .new router
  addressMap := []
  routing := .new router
  security := .new
  deviceType
  joined := false
  pendingRouteReplies := []
  pendingRreqForwards := []
  rreqRecords := .new
  broadcastTx := []
  pendingRouteErrors := []
  indirect := .new (MAX_INDIRECT router)
  concentratorActive := false
  sourceRouteTable := .new router
  nextChildAddrOffset := 1
  air := []
  hops := []

/-- The device is a router or the coordinator. -/
def routingDevice (s : NwkLayer router) : Bool := s.deviceType != .endDevice

def canRoute (s : NwkLayer router) : Bool := router && s.routingDevice && s.joined

/-- One `mcps_data` call. -/
def transmit (s : NwkLayer) (frame : NwkFrame) (hop : ShortAddress) (outcome : MacOutcome) : NwkLayer :=
  if outcome.onAir then { s with air := s.air ++ [frame], hops := s.hops ++ [hop] } else s

/-- The shared frame builder.  A secured frame takes its counter here, whenever it is sent; `aes` is
    whether the AES engine works. -/
def buildNwkFrame (s : NwkLayer) (header : NwkHeader) (payload : List UInt8) (aes : Bool) :
    NwkLayer × Except NwkStatus NwkFrame :=
  if !header.frameControl.security then
    if MAX_NWK_FRAME < header.length + payload.length then (s, .error .frameTooLong)
    else (s, .ok ⟨header, payload, none⟩)
  else if s.security.activationPending then (s, .error .notPermitted)
  else if s.security.activeKey.isNone then (s, .error .noKey)
  else
    match s.nib.nextFrameCounter with
    | (_, none) => (s, .error .maxFrmCounterReached)
    | (nib, some counter) =>
      let s := { s with nib := nib }
      if MAX_NWK_FRAME < header.length + NWK_AUX_HEADER_LEN then (s, .error .frameTooLong)
      else if CCM_STAR_MAX_PLAINTEXT_LEN < payload.length || !aes then (s, .error .badCcmOutput)
      else if MAX_NWK_FRAME < header.length + NWK_AUX_HEADER_LEN + payload.length + CCM_STAR_MIC_LEN then
        (s, .error .frameTooLong)
      else (s, .ok ⟨header, payload, some counter⟩)

/-- The builder leaves the layer as it was, or draws one counter. -/
theorem buildNwkFrame_cases {header : NwkHeader} {payload : List UInt8} {aes : Bool} {out : Except NwkStatus NwkFrame}
    (h : s.buildNwkFrame header payload aes = (s', out)) :
    (s' = s ∧ ∀ frame, out = .ok frame → frame = ⟨header, payload, none⟩) ∨
      (s.nib.outgoingFrameCounter < s.nib.outgoingFrameCounterLimit ∧
        s' = { s with nib := { s.nib with outgoingFrameCounter := s.nib.outgoingFrameCounter + 1 } } ∧
        ∀ frame, out = .ok frame → frame = ⟨header, payload, some s.nib.outgoingFrameCounter⟩) := by
  unfold buildNwkFrame at h
  split at h
  · split at h
    · cases h
      exact Or.inl ⟨rfl, by simp⟩
    · cases h
      exact Or.inl ⟨rfl, fun frame h => by cases h; rfl⟩
  · split at h
    · cases h
      exact Or.inl ⟨rfl, by simp⟩
    · split at h
      · cases h
        exact Or.inl ⟨rfl, by simp⟩
      · unfold Nib.nextFrameCounter at h
        split at h
        · rename_i heq
          split at heq
          · cases h
            exact Or.inl ⟨rfl, by simp⟩
          · cases heq
        · rename_i nib counter heq
          split at heq
          · cases heq
          · rename_i hlt
            cases heq
            refine Or.inr ⟨UInt32.not_le.mp hlt, ?_⟩
            dsimp only at h
            split at h
            · cases h
              exact ⟨rfl, by simp⟩
            · split at h
              · cases h
                exact ⟨rfl, by simp⟩
              · split at h
                · cases h
                  exact ⟨rfl, by simp⟩
                · cases h
                  exact ⟨rfl, fun frame h => by cases h; rfl⟩

/-! ## Sending at once -/

/-- `send_hop`: a frame that was not acknowledged is offered once to an alternative, if there is one. -/
def sendHop (s : NwkLayer) (frame : NwkFrame) (hop : ShortAddress) (first : MacOutcome)
    (alternate : Option (ShortAddress × MacOutcome)) : NwkLayer × Bool :=
  let s := s.transmit frame hop first
  match alternate with
  | some (hop, second) => if first = .noAck then (s.transmit frame hop second, second.isOk) else (s, first.isOk)
  | none => (s, first.isOk)

/-- `send_nwk_command_from_with_radius_delivery`. -/
def sendNwkCommand (s : NwkLayer) (dstAddr srcAddr : ShortAddress) (srcIeee dstIeee : Option IeeeAddress)
    (cmdId : UInt8) (cmdPayload : List UInt8) (radius : UInt8) (aes : Bool) (path : Path) :
    NwkLayer × Except NwkStatus Unit :=
  if !s.joined then (s, .error .invalidRequest)
  else
    let (nib, seq) := s.nib.nextSeq
    let control : NwkFrameControl :=
      { frameType := NwkFrameType.command
        protocolVersion := 0x02
        discoverRoute := 0
        multicast := false
        security := s.nib.securityEnabled
        sourceRoute := false
        dstIeeePresent := dstIeee.isSome
        srcIeeePresent := srcIeee.isSome
        endDeviceInitiator := false }
    let header : NwkHeader := ⟨control, dstAddr, srcAddr, radius, seq, dstIeee, srcIeee, none, none⟩
    if 80 < 1 + cmdPayload.length then ({ s with nib := nib }, .error .frameTooLong)
    else
      match buildNwkFrame { s with nib := nib } header (cmdId :: cmdPayload) aes with
      | (s, .error status) => (s, .error status)
      | (s, .ok frame) =>
        match path with
        | .unroutable => (s, .error .routeError)
        | .indirect buffered => (s, if buffered then .ok () else .error .frameNotBuffered)
        | .hop hop first alternate =>
          match s.sendHop frame hop first alternate with
          | (s, true) => (s, .ok ())
          | (s, false) => (s, .error .routeError)

/-- The layer has put `n` copies of a new frame on air: `n` is zero when the frame could not be built or
    sent, though it may have drawn its counter. -/
structure Emits (s s' : NwkLayer) (frame : NwkFrame) (n : Nat) : Prop where
  rest : s' = { s with nib := s'.nib, air := s.air ++ List.replicate n frame, hops := s'.hops }
  hops : ∃ hops, hops.length = n ∧ s'.hops = s.hops ++ hops
  addr : s'.nib.networkAddress = s.nib.networkAddress
  limit : s'.nib.outgoingFrameCounterLimit = s.nib.outgoingFrameCounterLimit
  counter : (frame.frameCounter = none ∧ s'.nib.outgoingFrameCounter = s.nib.outgoingFrameCounter) ∨
    (frame.frameCounter = some s.nib.outgoingFrameCounter ∧
      s.nib.outgoingFrameCounter < s.nib.outgoingFrameCounterLimit ∧
      s'.nib.outgoingFrameCounter = s.nib.outgoingFrameCounter + 1)

/-- A layer that differs in its sequence numbers at most has emitted nothing. -/
theorem Emits.none (s : NwkLayer) {nib : Nib} (haddr : nib.networkAddress = s.nib.networkAddress)
    (hlimit : nib.outgoingFrameCounterLimit = s.nib.outgoingFrameCounterLimit)
    (hcounter : nib.outgoingFrameCounter = s.nib.outgoingFrameCounter) (header : NwkHeader) (payload : List UInt8) :
    Emits s { s with nib := nib } ⟨header, payload, .none⟩ 0 :=
  ⟨by simp, ⟨[], by simp⟩, haddr, hlimit, Or.inl ⟨rfl, hcounter⟩⟩

/-- What the builder makes has drawn its counter and is not on air. -/
theorem buildNwkFrame_emits {header : NwkHeader} {payload : List UInt8} {aes : Bool} {out : Except NwkStatus NwkFrame}
    (h : s.buildNwkFrame header payload aes = (s', out)) :
    ∃ frame, Emits s s' frame 0 ∧ frame.header = header ∧ frame.payload = payload ∧ ∀ f, out = .ok f → f = frame := by
  rcases buildNwkFrame_cases h with ⟨rfl, hf⟩ | ⟨hlt, rfl, hf⟩
  · exact ⟨_, Emits.none s' rfl rfl rfl header payload, rfl, rfl, hf⟩
  · exact ⟨_, ⟨by simp, ⟨[], by simp⟩, rfl, rfl, Or.inr ⟨rfl, hlt, rfl⟩⟩, rfl, rfl, hf⟩

theorem Emits.transmit {frame : NwkFrame} {n : Nat} (h : Emits s s' frame n) (hop : ShortAddress) (outcome : MacOutcome) :
    ∃ n', Emits s (s'.transmit frame hop outcome) frame n' := by
  unfold NwkLayer.transmit
  split
  · obtain ⟨hops, hlen, hhops⟩ := h.hops
    refine ⟨n + 1, ?_, ⟨hops ++ [hop], by simp [hlen], by simp [hhops]⟩, h.addr, h.limit, h.counter⟩
    rw [h.rest, List.replicate_succ']
    simp
  · exact ⟨n, h⟩

theorem Emits.sendHop {frame : NwkFrame} {n : Nat} (h : Emits s s' frame n) (hop : ShortAddress) (first : MacOutcome)
    (alternate : Option (ShortAddress × MacOutcome)) : ∃ n', Emits s (s'.sendHop frame hop first alternate).1 frame n' := by
  obtain ⟨n₁, h₁⟩ := h.transmit hop first
  unfold NwkLayer.sendHop
  dsimp only
  split
  · split
    · exact h₁.transmit _ _
    · exact ⟨n₁, h₁⟩
  · exact ⟨n₁, h₁⟩

/-- Sequence numbers that were drawn first do not matter. -/
theorem Emits.rebase {nib : Nib} {frame : NwkFrame} {n : Nat} (h : Emits { s with nib := nib } s' frame n)
    (haddr : nib.networkAddress = s.nib.networkAddress) (hlimit : nib.outgoingFrameCounterLimit = s.nib.outgoingFrameCounterLimit)
    (hcounter : nib.outgoingFrameCounter = s.nib.outgoingFrameCounter) : Emits s s' frame n where
  rest := h.rest
  hops := h.hops
  addr := h.addr.trans haddr
  limit := h.limit.trans hlimit
  counter := by
    have hc := h.counter
    dsimp only at hc
    rwa [hcounter, hlimit] at hc

theorem sendNwkCommand_emits (s : NwkLayer) (dstAddr srcAddr : ShortAddress) (srcIeee dstIeee : Option IeeeAddress)
    (cmdId : UInt8) (cmdPayload : List UInt8) (radius : UInt8) (aes : Bool) (path : Path) :
    ∃ frame n, Emits s (s.sendNwkCommand dstAddr srcAddr srcIeee dstIeee cmdId cmdPayload radius aes path).1 frame n ∧
      (frame.header.frameControl.frameType = NwkFrameType.command ∧ frame.header.srcAddr = srcAddr) ∧
      frame.payload = cmdId :: cmdPayload := by
  have hnone : ∀ nib : Nib, nib.networkAddress = s.nib.networkAddress →
      nib.outgoingFrameCounterLimit = s.nib.outgoingFrameCounterLimit →
      nib.outgoingFrameCounter = s.nib.outgoingFrameCounter →
      ∃ frame n, Emits s { s with nib := nib } frame n ∧
        (frame.header.frameControl.frameType = NwkFrameType.command ∧ frame.header.srcAddr = srcAddr) ∧
        frame.payload = cmdId :: cmdPayload := fun nib haddr hlimit hcounter =>
    ⟨_, 0, Emits.none s haddr hlimit hcounter
      ⟨⟨NwkFrameType.command, 0, 0, false, false, false, false, false, false⟩, dstAddr, srcAddr, radius, 0, .none, .none,
        .none, .none⟩
      (cmdId :: cmdPayload), ⟨rfl, rfl⟩, rfl⟩
  unfold sendNwkCommand
  split
  · exact hnone s.nib rfl rfl rfl
  · dsimp only [Nib.nextSeq]
    split
    · exact hnone _ rfl rfl rfl
    · split
      · rename_i s' status hbuild
        obtain ⟨frame, hemits, hheader, hpayload, -⟩ := buildNwkFrame_emits hbuild
        exact ⟨frame, 0, hemits.rebase rfl rfl rfl, by rw [hheader]; exact ⟨rfl, rfl⟩, hpayload⟩
      · rename_i s' f hbuild
        obtain ⟨frame, hemits, hheader, hpayload, hok⟩ := buildNwkFrame_emits hbuild
        cases hok f rfl
        have hsrc : f.header.frameControl.frameType = NwkFrameType.command ∧ f.header.srcAddr = srcAddr := by
          rw [hheader]
          exact ⟨rfl, rfl⟩
        split
        · exact ⟨f, 0, hemits.rebase rfl rfl rfl, hsrc, hpayload⟩
        · exact ⟨f, 0, hemits.rebase rfl rfl rfl, hsrc, hpayload⟩
        · rename_i hop first alternate
          obtain ⟨n, hn⟩ := hemits.sendHop hop first alternate
          split
          · rename_i s'' hsend
            rw [hsend] at hn
            exact ⟨f, n, hn.rebase rfl rfl rfl, hsrc, hpayload⟩
          · rename_i s'' hsend
            rw [hsend] at hn
            exact ⟨f, n, hn.rebase rfl rfl rfl, hsrc, hpayload⟩

/-! ## Broadcasts -/

def scheduleBroadcast (s : NwkLayer) (pending : PendingBroadcast) : NwkLayer × Except NwkStatus Unit :=
  match s.broadcastTx.schedule pending with
  | (t, true) => ({ s with broadcastTx := t }, .ok ())
  | (t, false) => ({ s with broadcastTx := t }, .error .routeError)

theorem scheduleBroadcast_fst (s : NwkLayer) (pending : PendingBroadcast) :
    (s.scheduleBroadcast pending).1 = { s with broadcastTx := (s.broadcastTx.schedule pending).1 } := by
  unfold scheduleBroadcast
  cases hs : s.broadcastTx.schedule pending with
  | mk t ok => cases ok <;> rfl

def relayBroadcast (s : NwkLayer) (header : NwkHeader) (payload : List UInt8) (previousHop : ShortAddress)
    (now : UInt32) (aes : Bool) : NwkLayer × Except NwkStatus Unit :=
  let newRadius := if header.radius = 0 then 0 else header.radius - 1
  if newRadius = 0 then (s, .ok ())
  else if !s.broadcastTx.canSchedule then (s, .error .routeError)
  else
    match s.buildNwkFrame { header with radius := newRadius } payload aes with
    | (s, .error status) => (s, .error status)
    | (s, .ok frame) =>
      let jitter := routingRandomSample (now ^^^ (s.nib.networkAddress.toUInt32 <<< 16) ^^^
        header.srcAddr.toUInt32 ^^^ (header.seqNumber.toUInt32 <<< 8)) % MAX_BROADCAST_JITTER_US
      s.scheduleBroadcast
        { src := header.srcAddr
          seq := header.seqNumber
          frame := frame
          retriesLeft := if 1 < newRadius then s.nib.maxBroadcastRetries else 0
          deadlineUs := now + jitter
          sent := false
          rreq := false
          handle := 0
          heard := [previousHop] }

/-- A broadcast that this router has just sent itself is kept for its retransmissions; `allHeard` tells
    whether every router neighbour is among those heard. -/
def trackBroadcast (s : NwkLayer) (src : ShortAddress) (seq : UInt8) (frame : NwkFrame) (radius : UInt8)
    (now : UInt32) (allHeard : List ShortAddress → Bool) : NwkLayer :=
  if 1 < radius && s.nib.maxBroadcastRetries != 0 && !allHeard [] then
    (s.scheduleBroadcast
      { src := src
        seq := seq
        frame := frame
        retriesLeft := s.nib.maxBroadcastRetries
        deadlineUs := now + s.nib.passiveAckTimeout.toUInt32 * 1000
        sent := true
        rreq := false
        handle := 0
        heard := [] }).1
  else s

def noteBroadcastRelay (s : NwkLayer) (src : ShortAddress) (seq : UInt8) (hop : ShortAddress)
    (allHeard : List ShortAddress → Bool) : NwkLayer :=
  let t := s.broadcastTx.noteRelay src seq hop
  match t.findIdx? (fun e => e.src == src && e.seq == seq && e.sent && !e.rreq) with
  | none => { s with broadcastTx := t }
  | some i =>
    if (t[i]?).any (fun e => allHeard e.heard) then { s with broadcastTx := Table.swapRemove t i }
    else { s with broadcastTx := t }

/-- Hearing a relay changes no frame, and takes out nothing that waits for its first transmission. -/
theorem noteBroadcastRelay_entries (s : NwkLayer) (src : ShortAddress) (seq : UInt8) (hop : ShortAddress)
    (allHeard : List ShortAddress → Bool) : ∃ t, s.noteBroadcastRelay src seq hop allHeard = { s with broadcastTx := t } ∧
      ∀ e ∈ t, ∃ e' ∈ s.broadcastTx, e.frame = e'.frame ∧ e.sent = e'.sent := by
  have hnote : ∀ e ∈ s.broadcastTx.noteRelay src seq hop, ∃ e' ∈ s.broadcastTx, e.frame = e'.frame ∧ e.sent = e'.sent := by
    intro e he
    unfold BroadcastTxTable.noteRelay at he
    rcases Table.modifyFirst_cases (fun e : PendingBroadcast => e.src == src && e.seq == seq) (fun e =>
      if e.heard.contains hop || e.heard.length == MAX_PASSIVE_ACK_NEIGHBORS then e
      else { e with heard := e.heard ++ [hop] }) s.broadcastTx with ⟨i, x, hi, -, -, heq⟩ | ⟨-, heq⟩
    · rw [heq] at he
      rcases List.mem_or_eq_of_mem_set he with he | rfl
      · exact ⟨e, he, rfl, rfl⟩
      · refine ⟨x, List.mem_of_getElem? hi, ?_⟩
        split <;> exact ⟨rfl, rfl⟩
    · rw [heq] at he
      exact ⟨e, he, rfl, rfl⟩
  unfold noteBroadcastRelay
  dsimp only
  split
  · exact ⟨_, rfl, hnote⟩
  · split
    · exact ⟨_, rfl, fun e he => hnote e (Table.mem_of_mem_swapRemove he)⟩
    · exact ⟨_, rfl, hnote⟩

/-- One pass of the service loop, at an index of the schedule. -/
def serviceIter (p : NwkLayer × Nat) (r : ServiceReading) : NwkLayer × Nat :=
  let (s, index) := p
  match s.broadcastTx[index]? with
  | none => (s, index)
  | some e =>
    if notDue r.now e.deadlineUs then (s, index + 1)
    else if e.sent && e.finished r.allHeard then
      ({ s with broadcastTx := Table.swapRemove s.broadcastTx index }, index)
    else
      -- A Route Request keeps one MAC handle for all of its copies.
      let (nib, handle) := if e.rreq && e.sent then (s.nib, e.handle) else s.nib.nextSeq
      let e := { e with retriesLeft := if e.sent then e.retriesLeft - 1 else e.retriesLeft, handle := handle, sent := true }
      let s := transmit { s with nib := nib } e.frame ShortAddress.BROADCAST r.outcome
      if e.finished r.allHeard then
        ({ s with broadcastTx := Table.swapRemove (s.broadcastTx.set index e) index }, index)
      else
        let interval := if e.rreq then RREQ_RETRY_INTERVAL_US else s.nib.passiveAckTimeout.toUInt32 * 1000
        ({ s with broadcastTx := s.broadcastTx.set index { e with deadlineUs := r.after + interval } }, index + 1)

/-- What one pass can do: nothing, drop an entry that was sent, or send one. -/
theorem serviceIter_cases {index index' : Nat} {r : ServiceReading} (h : serviceIter (s, index) r = (s', index')) :
    (s' = s ∧ ∀ e, s.broadcastTx[index]? = some e → notDue r.now e.deadlineUs = true) ∨
      (∃ e, s.broadcastTx[index]? = some e ∧ e.sent = true ∧
        s' = { s with broadcastTx := Table.swapRemove s.broadcastTx index }) ∨
      ∃ e e' seq t, s.broadcastTx[index]? = some e ∧ notDue r.now e.deadlineUs = false ∧ e'.frame = e.frame ∧
        e'.sent = true ∧
        (t = s.broadcastTx.set index e' ∨ t = Table.swapRemove (s.broadcastTx.set index e') index) ∧
        s' = { s.transmit e.frame ShortAddress.BROADCAST r.outcome with nib := { s.nib with sequenceNumber := seq }, broadcastTx := t } := by
  unfold serviceIter at h
  dsimp only at h
  split at h
  · rename_i hnone
    cases h
    exact Or.inl ⟨rfl, fun e hget => by rw [hnone] at hget; cases hget⟩
  · rename_i e hget
    split at h
    · rename_i hdue
      cases h
      exact Or.inl ⟨rfl, fun e' hget' => by rw [hget] at hget'; cases hget'; exact hdue⟩
    · rename_i hdue
      rw [Bool.not_eq_true] at hdue
      split at h
      · rename_i hdone
        cases h
        rw [Bool.and_eq_true] at hdone
        exact Or.inr (Or.inl ⟨e, hget, hdone.1, rfl⟩)
      · have hnib : ∃ seq handle, (if e.rreq && e.sent then (s.nib, e.handle) else s.nib.nextSeq) =
            ({ s.nib with sequenceNumber := seq }, handle) := by
          split
          · exact ⟨_, _, rfl⟩
          · exact ⟨_, _, rfl⟩
        obtain ⟨seq, handle, hnib⟩ := hnib
        rw [hnib] at h
        dsimp only at h
        let retries := if e.sent then e.retriesLeft - 1 else e.retriesLeft
        by_cases hfin :
            PendingBroadcast.finished { e with retriesLeft := retries, handle := handle, sent := true } r.allHeard = true
        · rw [if_pos hfin] at h
          refine Or.inr (Or.inr ⟨e, { e with retriesLeft := retries, handle := handle, sent := true }, seq, _, hget, hdue,
            rfl, rfl, Or.inr rfl, ?_⟩)
          rw [← (Prod.mk.inj h).1]
          unfold transmit
          split <;> rfl
        · rw [if_neg hfin] at h
          let deadline := r.after +
            (if e.rreq then RREQ_RETRY_INTERVAL_US else s.nib.passiveAckTimeout.toUInt32 * 1000)
          refine Or.inr (Or.inr ⟨e,
            { e with retriesLeft := retries, handle := handle, sent := true, deadlineUs := deadline }, seq, _, hget, hdue,
            rfl, rfl, Or.inl rfl, ?_⟩)
          rw [← (Prod.mk.inj h).1]
          unfold transmit
          split <;> rfl

/-- The schedule after a transmission holds the frames it held. -/
theorem sent_frames {tx t : BroadcastTxTable} {e e' : PendingBroadcast} {index : Nat} (hmem : e ∈ tx)
    (hframe : e'.frame = e.frame) (ht : t = tx.set index e' ∨ t = Table.swapRemove (tx.set index e') index) :
    ∀ x ∈ t, ∃ y ∈ tx, x.frame = y.frame := by
  have hset : ∀ x ∈ tx.set index e', ∃ y ∈ tx, x.frame = y.frame := by
    intro x hx
    rcases List.mem_or_eq_of_mem_set hx with hx | rfl
    · exact ⟨x, hx, rfl⟩
    · exact ⟨e, hmem, hframe⟩
  intro x hx
  rcases ht with rfl | rfl
  · exact hset x hx
  · exact hset x (Table.mem_of_mem_swapRemove hx)

/-- The service loop, over what its passes read.  Each pass moves on or takes an entry out, so a reading
    for each entry carries the loop to its end. -/
def serviceBroadcastTx (s : NwkLayer) (readings : List ServiceReading) : NwkLayer :=
  (Run.run serviceIter (s, 0) readings).1

end NwkLayer

/-- A router that has just joined, without security. -/
def plainRouter (address : ShortAddress) : NwkLayer :=
  { NwkLayer.new true .router with nib := { Nib.new with networkAddress := address }, joined := true, concentratorActive := true }

end Zigbee.Nwk
