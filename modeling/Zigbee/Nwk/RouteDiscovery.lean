import Zigbee.Nwk.Layer

/-!
# Route Requests

Model of `handle_route_request`, `queue_rreq_forward`, `schedule_route_request_forward` and the
concentrator's many-to-one request of `zigbee-nwk`: a router installs the route to the originator over
the neighbour it heard the request from, and forwards the originator's own broadcast with its path
cost.
-/

namespace Zigbee.Nwk

/-- `u8::saturating_add`. -/
def saturatingAdd8 (a b : UInt8) : UInt8 := if a.toNat + b.toNat < 2 ^ 8 then a + b else 0xFF

/-- How a request was received: from which neighbour, how well, and what the neighbour table says. -/
structure Reception where
  prevHop : ShortAddress
  lqi : UInt8
  /-- The outgoing cost of the previous hop's entry, if there is one. -/
  outgoingCost : Option UInt8
  isEndDeviceChild : ShortAddress → Bool
  now : UInt32

/-- `received_link_cost`. -/
def Reception.linkCost (r : Reception) : UInt8 :=
  match r.outgoingCost with
  | some cost => if cost ≠ 0 then max (linkCostFromLqi r.lqi) cost else linkCostFromLqi r.lqi
  | none => linkCostFromLqi r.lqi

def MAX_RREQ_FORWARDS : Nat := 4

def MAX_ROUTE_REPLIES : Nat := 4

def RREQ_RELAY_RETRIES : UInt8 := 2

def ROUTE_EXPIRY_SECS : UInt16 := 600

def ROUTE_DISCOVERY_TIMEOUT_US : UInt32 := 10000000

namespace NwkLayer

/-- One discovery holds at most one forward: a cheaper copy takes the place of a waiting one, an equally
    good copy is merged into it. -/
def queueRreqForward (s : NwkLayer) (header : NwkHeader) (rreq : RouteRequest) (pathCost : UInt8)
    (improves : Bool) : NwkLayer :=
  if !s.canRoute then s
  else if isUnicastAddress header.dstAddr then s
  else if header.radius ≤ 1 then s
  else
    let queued : QueuedRreqForward :=
      { frameControl := header.frameControl
        dstAddr := header.dstAddr
        originator := header.srcAddr
        srcIeee := header.srcIeee
        seqNumber := header.seqNumber
        radius := header.radius - 1
        commandOptions := rreq.commandOptions
        routeRequestId := rreq.routeRequestId
        rreqDst := rreq.dstAddr
        rreqDstIeee := rreq.dstIeee
        pathCost := pathCost }
    let queuedAt := s.pendingRreqForwards.findIdx? fun q =>
      q.originator == queued.originator && q.routeRequestId == queued.routeRequestId
    let scheduledAt := s.broadcastTx.findIdx? fun e =>
      e.rreq && e.src == queued.originator && e.seq == queued.seqNumber
    if !improves && (queuedAt.isSome || scheduledAt.isSome) then s
    else
      let broadcastTx := match scheduledAt with
        | some i => Table.swapRemove s.broadcastTx i
        | none => s.broadcastTx
      let pendingRreqForwards := match queuedAt with
        | some i => s.pendingRreqForwards.set i queued
        | none =>
          if s.pendingRreqForwards.length < MAX_RREQ_FORWARDS then s.pendingRreqForwards ++ [queued]
          else s.pendingRreqForwards
      { s with broadcastTx := broadcastTx, pendingRreqForwards := pendingRreqForwards }

/-- A many-to-one request that was admitted. -/
def handleManyToOne (s : NwkLayer) (header : NwkHeader) (rreq : RouteRequest) (concentratorType : ConcentratorType)
    (prevHop : ShortAddress) (forwardCost : UInt8) (improves : Bool) : NwkLayer :=
  match s.routing.updateRouteManyToOne header.srcAddr prevHop forwardCost concentratorType with
  | (routing, false) =>
    { s with routing := routing, rreqRecords := s.rreqRecords.remove header.srcAddr rreq.routeRequestId }
  | (routing, true) => queueRreqForward { s with routing := routing } header rreq forwardCost improves

/-- A standard request that was admitted. -/
def handleStandard (s : NwkLayer) (header : NwkHeader) (rreq : RouteRequest) (r : Reception)
    (forwardCost : UInt8) (improves : Bool) : NwkLayer :=
  let originator := header.srcAddr
  let answer := rreq.dstAddr == s.nib.networkAddress || r.isEndDeviceChild rreq.dstAddr
  let routing := (s.routing.updateRoute originator r.prevHop forwardCost).1
  let (routing, recorded) :=
    if routing.discoveries.any (·.isFor originator rreq.routeRequestId) then
      (routing.findDiscoveryForMut originator rreq.routeRequestId fun d =>
        { d with sender := r.prevHop, forwardCost := forwardCost }, true)
    else routing.addDiscovery ⟨rreq.routeRequestId, originator, rreq.dstAddr, r.prevHop, forwardCost, 0xFF, r.now, true⟩
  let s := { s with routing := routing }
  if answer then
    if s.pendingRouteReplies.length < MAX_ROUTE_REPLIES then
      { s with pendingRouteReplies := s.pendingRouteReplies ++ [⟨r.prevHop, originator, rreq.dstAddr, 0, rreq.routeRequestId⟩] }
    else s
  else if recorded then s.queueRreqForward header rreq forwardCost improves
  else { s with rreqRecords := s.rreqRecords.remove originator rreq.routeRequestId }

def handleRouteRequest (s : NwkLayer) (header : NwkHeader) (r : Reception) (payload : List UInt8) : NwkLayer :=
  if !s.canRoute then s
  else
    match RouteRequest.parse payload with
    | none => s
    | some rreq =>
      if (rreq.commandOptions >>> 3) &&& 0x03 = 3 then s
      else
        let concentratorType := ConcentratorType.fromRreqOptions rreq.commandOptions
        if concentratorType.isSome && (header.dstAddr != ALL_ROUTERS_AND_COORDINATOR ||
            rreq.dstAddr != ALL_ROUTERS_AND_COORDINATOR || !isUnicastAddress header.srcAddr) then s
        else
          let forwardCost := saturatingAdd8 rreq.pathCost r.linkCost
          let improves := (s.rreqRecords.recordedCost header.srcAddr rreq.routeRequestId).all (forwardCost < ·)
          match s.rreqRecords.admitCopy header.srcAddr rreq.routeRequestId r.prevHop forwardCost with
          | (records, false) => { s with rreqRecords := records }
          | (records, true) =>
            let s := { s with rreqRecords := records }
            match concentratorType with
            | some concentratorType =>
              s.handleManyToOne header rreq concentratorType r.prevHop forwardCost improves
            | none => s.handleStandard header rreq r forwardCost improves

/-- The receive path for a Route Request: a frame of our own is dropped. -/
def receiveRouteRequest (s : NwkLayer) (frame : NwkFrame) (r : Reception) : NwkLayer :=
  if frame.header.srcAddr = s.nib.networkAddress then s
  else
    match frame.payload with
    | [] => s
    | cmdId :: payload =>
      if cmdId = NwkCommandId.routeRequest then s.handleRouteRequest frame.header r payload else s

/-! ## Forwards -/

def scheduleRouteRequestForward (s : NwkLayer) (pending : QueuedRreqForward) (now : UInt32) (aes : Bool) :
    NwkLayer × Except NwkStatus Unit :=
  if !s.canRoute then (s, .error .invalidRequest)
  else
    let control : NwkFrameControl :=
      { frameType := NwkFrameType.command
        protocolVersion := pending.frameControl.protocolVersion
        discoverRoute := pending.frameControl.discoverRoute
        multicast := false
        security := pending.frameControl.security
        sourceRoute := false
        dstIeeePresent := false
        srcIeeePresent := pending.srcIeee.isSome
        endDeviceInitiator := pending.frameControl.endDeviceInitiator }
    let header : NwkHeader :=
      ⟨control, pending.dstAddr, pending.originator, pending.radius, pending.seqNumber, none, pending.srcIeee, none, none⟩
    let rreq : RouteRequest :=
      ⟨pending.commandOptions, pending.routeRequestId, pending.rreqDst, pending.pathCost, pending.rreqDstIeee⟩
    match s.buildNwkFrame header (NwkCommandId.routeRequest :: rreq.serialize) aes with
    | (s, .error status) => (s, .error status)
    | (s, .ok frame) =>
      let sample := routingRandomSample (now ^^^ (s.nib.networkAddress.toUInt32 <<< 16) ^^^
        pending.originator.toUInt32 ^^^ (pending.routeRequestId.toUInt32 <<< 8) ^^^
        (pending.pathCost.toUInt32 <<< 24) ^^^ pending.seqNumber.toUInt32)
      let jitterMs := 2 * (2 + sample % 127)
      s.scheduleBroadcast
        { src := pending.originator
          seq := pending.seqNumber
          frame := frame
          retriesLeft := RREQ_RELAY_RETRIES
          deadlineUs := now + jitterMs * 1000
          sent := false
          rreq := true
          handle := 0
          heard := [] }

/-- One pass of the loop over the queued forwards, with the clock and whether the AES engine works. -/
def forwardIter (s : NwkLayer) (r : UInt32 × Bool) : NwkLayer :=
  if s.broadcastTx.canScheduleRouteRequest then
    match s.pendingRreqForwards.getLast? with
    | none => s
    | some pending =>
      (scheduleRouteRequestForward { s with pendingRreqForwards := s.pendingRreqForwards.dropLast } pending r.1 r.2).1
  else s

/-- The forwards of `process_pending_routing`. -/
def scheduleForwards (s : NwkLayer) (readings : List (UInt32 × Bool)) : NwkLayer :=
  Run.run forwardIter s readings

/-- `send_many_to_one_rreq`. -/
def sendManyToOneRreq (s : NwkLayer) (concentratorType : ConcentratorType) (concentratorRadius : UInt8)
    (aes : Bool) (outcome : MacOutcome) : NwkLayer × Except NwkStatus Unit :=
  let (nib, rreqId) := s.nib.nextRouteRequestId
  let rreq : RouteRequest := ⟨concentratorType.rreqOptions, rreqId, ALL_ROUTERS_AND_COORDINATOR, 0, none⟩
  sendNwkCommand { s with nib := nib } ALL_ROUTERS_AND_COORDINATOR s.nib.networkAddress (some s.nib.ieeeAddress)
    none NwkCommandId.routeRequest rreq.serialize concentratorRadius aes (.hop ShortAddress.BROADCAST outcome none)

/-- The ageing of routing state in `tick_router_maintenance`. -/
def tickRouterMaintenance (s : NwkLayer) (elapsedSecs : UInt16) (now : UInt32) : NwkLayer :=
  let routing := (s.routing.ageBy elapsedSecs).expireStale ROUTE_EXPIRY_SECS
  { s with
    rreqRecords := RreqRecordTable.age^[elapsedSecs.toNat] s.rreqRecords
    routing := if s.canRoute then routing.expireDiscoveries ROUTE_DISCOVERY_TIMEOUT_US now else routing }

end NwkLayer

end Zigbee.Nwk
