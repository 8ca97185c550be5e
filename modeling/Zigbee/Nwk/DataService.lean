import Zigbee.Nwk.RouteDiscovery

/-!
# NWK data service of a router

Model of `nlde_data_request`, the unicast relays `relay_frame`, `relay_frame_source_routed` and
`relay_route_record`, and `handle_route_record` of `zigbee-nwk/src/nlde.rs`, with the route discovery
and the Route Record that a data frame sends ahead of itself.

What the neighbour table, the radio and the clock answer during one request is a reading, an argument
of the request.  The indirect queue of a sleeping child is left out: a frame for it draws its counter,
and is secured anew when the child polls.
-/

namespace Zigbee.Nwk

open Bytes

/-- What one command that is sent on the way meets. -/
structure CommandReading where
  aes : Bool
  path : Path
  now : UInt32

structure DataReading where
  /-- `resolve_next_hop`. -/
  nextHop : Except NwkStatus ShortAddress
  /-- `direct_hop_unconfirmed`. -/
  unconfirmed : Bool
  discovery : CommandReading
  record : CommandReading
  aes : Bool
  sleepyChild : Bool
  buffered : Bool
  first : MacOutcome
  /-- The routing-table alternative to a hop that did not acknowledge, and what comes of it. -/
  alternate : Option (ShortAddress × MacOutcome)
  now : UInt32
  allHeard : List ShortAddress → Bool

structure RelayReading where
  nextHop : Except NwkStatus ShortAddress
  unconfirmed : Bool
  discovery : CommandReading
  /-- The IEEE address of the frame's source, if it is a direct end-device child. -/
  childIeee : Option IeeeAddress
  record : CommandReading
  aes : Bool
  sleepyChild : Bool
  buffered : Bool
  first : MacOutcome
  alternate : Option (ShortAddress × MacOutcome)
  /-- `random_router_neighbor`, in the order of its calls. -/
  neighbor : Option ShortAddress
  retryNeighbor : Option (ShortAddress × MacOutcome)

def NwkCommandId.networkStatus : UInt8 := 0x03

def NetworkStatusCommand.NO_ROUTE_AVAILABLE : UInt8 := 0x00

def NetworkStatusCommand.SOURCE_ROUTE_FAILURE : UInt8 := 0x0B

def NetworkStatusCommand.MANY_TO_ONE_ROUTE_FAILURE : UInt8 := 0x0C

def MAX_ROUTE_ERRORS : Nat := 4

/-- The next hop of a source-routed frame and the index that it carries there. -/
def processSourceRoute (sr : SourceRoute) (ourAddr dstAddr : ShortAddress) : Except NwkStatus (ShortAddress × UInt8) :=
  match sr.relayList[sr.relayIndex.toNat]? with
  | none => .error .invalidParameter
  | some relay =>
    if sr.relayIndex = 0 then .ok (dstAddr, 0)
    else if relay ≠ ourAddr then .error .invalidParameter
    else
      match sr.relayList[sr.relayIndex.toNat - 1]? with
      | none => .error .invalidParameter
      | some next => .ok (next, sr.relayIndex - 1)

/-- The header that a relay sends on, and the hop that it sends it to. -/
def sourceRoutedHop (header : NwkHeader) (ourAddr : ShortAddress) (newRadius : UInt8) :
    Except NwkStatus (ShortAddress × NwkHeader) :=
  match header.sourceRoute with
  | none => .error .invalidParameter
  | some sr =>
    match processSourceRoute sr ourAddr header.dstAddr with
    | .error status => .error status
    | .ok (nextHop, newIndex) =>
      .ok (nextHop, { header with radius := newRadius, sourceRoute := some { sr with relayIndex := newIndex } })

/-- The body of a Route Record with the relay's own address added to it. -/
def extendRouteRecord (body : List UInt8) (ourAddr : ShortAddress) : Except NwkStatus (List UInt8) :=
  match body with
  | [] => .error .invalidParameter
  | count :: _ =>
    let listedLen := 1 + count.toNat * 2
    if body.length < listedLen then .error .invalidParameter
    else if MAX_SOURCE_ROUTE_RELAYS ≤ count.toNat then .error .frameTooLong
    else .ok ((count + 1) :: (((body.take listedLen).drop 1) ++ le16 ourAddr))

/-- The relays that a Route Record lists. -/
def routeRecordRelays (payload : List UInt8) : List ShortAddress :=
  (List.range (u8At payload 0).toNat).map fun i => u16At payload (1 + i * 2)

/-- The relays behind each relay of a list: its own way back. -/
def relaySuffixes : List ShortAddress → List (ShortAddress × List ShortAddress)
  | [] => []
  | relay :: suffix => (relay, suffix) :: relaySuffixes suffix

namespace NwkLayer

/-! ## Discovery and Route Record -/

/-- `discover_route`, with `send_route_request_with_id`. -/
def discoverRoute (s : NwkLayer) (dest : ShortAddress) (r : CommandReading) : NwkLayer × Except NwkStatus UInt8 :=
  if !s.canRoute then (s, .error .invalidRequest)
  else if !isUnicastAddress dest || dest == s.nib.networkAddress then (s, .error .invalidParameter)
  else
    let (nib, rreqId) := s.nib.nextRouteRequestId
    let address := s.nib.networkAddress
    match s.routing.addDiscovery ⟨rreqId, address, dest, address, 0, 0xFF, r.now, true⟩ with
    | (routing, false) => ({ s with nib := nib, routing := routing }, .error .routeDiscoveryFailed)
    | (routing, true) =>
      let rreq : RouteRequest := ⟨0x00, rreqId, dest, 0, none⟩
      match sendNwkCommand { s with nib := nib, routing := routing.markDiscovery dest } ShortAddress.BROADCAST address
          (some s.nib.ieeeAddress) none NwkCommandId.routeRequest rreq.serialize 30 r.aes r.path with
      | (s, .error status) => ({ s with routing := s.routing.failDiscoveryFor address rreqId }, .error status)
      | (s, .ok ()) => (s, .ok rreqId)

def handleUnroutableDestination (s : NwkLayer) (dstAddr : ShortAddress) (discover : Bool) (status : NwkStatus)
    (r : CommandReading) : NwkLayer × NwkStatus :=
  if !discover || !isUnicastAddress dstAddr || !s.canRoute then (s, status)
  else if s.routing.hasActiveDiscovery dstAddr then (s, .routeDiscoveryFailed)
  else ((s.discoverRoute dstAddr r).1, .routeDiscoveryFailed)

/-- `send_route_record_from`. -/
def sendRouteRecordFrom (s : NwkLayer) (dest source : ShortAddress) (sourceIeee : IeeeAddress)
    (relayList : List ShortAddress) (r : CommandReading) : NwkLayer × Except NwkStatus Unit :=
  if MAX_SOURCE_ROUTE_RELAYS < relayList.length then (s, .error .frameTooLong)
  else
    s.sendNwkCommand dest source (some sourceIeee) none NwkCommandId.routeRecord
      (UInt8.ofNat relayList.length :: relayList.flatMap le16) 10 r.aes r.path

/-- The Route Record that the route to the destination asks for; a failure retires the route. -/
def sendRequiredRouteRecord (s : NwkLayer) (dstAddr : ShortAddress) (r : CommandReading) :
    NwkLayer × Except NwkStatus Unit :=
  if isUnicastAddress dstAddr && (s.routing.getEntry dstAddr).any (·.routeRecordRequired) then
    match s.sendRouteRecordFrom dstAddr s.nib.networkAddress s.nib.ieeeAddress [] r with
    | (s, .error status) => ({ s with routing := s.routing.remove dstAddr }, .error status)
    | (s, .ok ()) => ({ s with routing := s.routing.clearRouteRecordRequired dstAddr }, .ok ())
  else (s, .ok ())

/-- The part of `note_link_failure` that concerns the routing table. -/
def noteLinkFailure (s : NwkLayer) (destination failedHop : ShortAddress) : NwkLayer :=
  if (s.routing.getEntry destination).any fun route => route.nextHop == failedHop && !route.manyToOne then
    { s with routing := s.routing.remove destination }
  else s

/-! ## Data requests -/

/-- The path that a Route Record established, if this device is a concentrator. -/
def sourceRouteSubframe (s : NwkLayer) (dstAddr : ShortAddress) : Option SourceRoute :=
  if s.concentratorActive then
    match s.sourceRouteTable.lookup dstAddr with
    | none => none
    | some relays =>
      if relays.isEmpty then none
      else some ⟨UInt8.ofNat relays.length, UInt8.ofNat (relays.length - 1), relays⟩
  else none

/-- The relay that a source route names first, or what the routing table says. -/
def dataNextHop (sourceRoute : Option SourceRoute) (r : DataReading) : Except NwkStatus ShortAddress :=
  match sourceRoute.bind fun sr => sr.relayList[sr.relayIndex.toNat]? with
  | some firstRelay => .ok firstRelay
  | none => r.nextHop

def dataHeader (s : NwkLayer) (dstAddr : ShortAddress) (radius seq : UInt8) (securityEnable discover : Bool)
    (sourceRoute : Option SourceRoute) : NwkHeader :=
  { frameControl :=
      { frameType := NwkFrameType.data
        protocolVersion := 0x02
        discoverRoute := if discover && s.routingDevice then 1 else 0
        multicast := false
        security := securityEnable && s.nib.securityEnabled
        sourceRoute := sourceRoute.isSome
        dstIeeePresent := false
        srcIeeePresent := false
        endDeviceInitiator := false }
    dstAddr := dstAddr
    srcAddr := s.nib.networkAddress
    radius := radius
    seqNumber := seq
    dstIeee := none
    srcIeee := none
    multicastControl := none
    sourceRoute := sourceRoute }

/-- What is recorded once the MAC has answered for a data frame. -/
def finishData (s : NwkLayer) (dstAddr hop : ShortAddress) (sourceRouted : Bool) (r : DataReading) (ok : Bool) : NwkLayer :=
  let retried := !sourceRouted && r.first == .noAck
  let s := if retried then s.noteLinkFailure dstAddr hop else s
  let usedHop := if retried then (r.alternate.map (·.1)).getD hop else hop
  if ok then
    { s with
      routing := s.routing.noteUsed dstAddr usedHop
      sourceRouteTable := if sourceRouted then s.sourceRouteTable.noteUsed dstAddr else s.sourceRouteTable }
  else if sourceRouted then
    { s with sourceRouteTable := s.sourceRouteTable.remove dstAddr, routing := s.routing.remove dstAddr }
  else if (s.routing.getEntry dstAddr).any (·.manyToOne) then { s with routing := s.routing.remove dstAddr }
  else s

/-- The data frame itself, after its next hop is known. -/
def sendData (s : NwkLayer) (dstAddr : ShortAddress) (radius : UInt8) (payload : List UInt8)
    (securityEnable discover : Bool) (sourceRoute : Option SourceRoute) (hop : ShortAddress) (r : DataReading) :
    NwkLayer × Except NwkStatus UInt8 :=
  let (nib, seq) := s.nib.nextSeq
  let header := s.dataHeader dstAddr radius seq securityEnable discover sourceRoute
  match buildNwkFrame { s with nib := nib } header payload r.aes with
  | (s, .error status) => (s, .error status)
  | (s, .ok frame) =>
    if sourceRoute.isNone && hop == dstAddr && r.sleepyChild then
      (s, if r.buffered then .ok seq else .error .frameNotBuffered)
    else
      match s.sendHop frame hop r.first (if sourceRoute.isNone then r.alternate else none) with
      | (s, ok) =>
        let s :=
          if ok && hop == ShortAddress.BROADCAST && s.canRoute then
            s.trackBroadcast header.srcAddr seq frame header.radius r.now r.allHeard
          else s
        (s.finishData dstAddr hop sourceRoute.isSome r ok, if ok then .ok seq else .error .routeError)

def nldeDataRequest (s : NwkLayer) (dstAddr : ShortAddress) (radius : UInt8) (payload : List UInt8)
    (securityEnable discover : Bool) (r : DataReading) : NwkLayer × Except NwkStatus UInt8 :=
  if !s.joined then (s, .error .invalidRequest)
  else if s.routing.hasFailedManyToOne dstAddr then (s, .error .routeError)
  else
    let sourceRoute := s.sourceRouteSubframe dstAddr
    match dataNextHop sourceRoute r with
    | .error status =>
      match s.handleUnroutableDestination dstAddr discover status r.discovery with
      | (s, status) => (s, .error status)
    | .ok hop =>
      -- The Route Request and the Route Record go first, so that counters reach the air in order.
      let s :=
        if sourceRoute.isNone && discover && r.unconfirmed then
          (s.handleUnroutableDestination dstAddr true .routeError r.discovery).1
        else s
      match s.sendRequiredRouteRecord dstAddr r.record with
      | (s, .error status) => (s, .error status)
      | (s, .ok ()) => s.sendData dstAddr radius payload securityEnable discover sourceRoute hop r

/-! ## Relays -/

def queueNetworkStatus (s : NwkLayer) (pending : PendingNetworkStatus) : NwkLayer :=
  if s.pendingRouteErrors.length < MAX_ROUTE_ERRORS then
    { s with pendingRouteErrors := s.pendingRouteErrors ++ [pending] }
  else s

def handleUnroutableRelay (s : NwkLayer) (header : NwkHeader) (r : CommandReading) : NwkLayer :=
  if !isUnicastAddress header.dstAddr || header.srcAddr == s.nib.networkAddress then s
  else
    let pending : PendingNetworkStatus :=
      ⟨header.srcAddr, NetworkStatusCommand.NO_ROUTE_AVAILABLE, header.dstAddr, none⟩
    if header.frameControl.discoverRoute ≠ 0 then
      if s.routing.hasActiveDiscovery header.dstAddr then s
      else
        match s.discoverRoute header.dstAddr r with
        | (s, .ok _) => s
        | (s, .error _) => s.queueNetworkStatus pending
    else s.queueNetworkStatus pending

def handleRelayFailure (s : NwkLayer) (header : NwkHeader) (sourceRouted : Bool) (neighbor : Option ShortAddress) :
    NwkLayer :=
  let manyToOne := !sourceRouted && (s.routing.getEntry header.dstAddr).any (·.manyToOne)
  let s := { s with routing := s.routing.remove header.dstAddr }
  if header.srcAddr == s.nib.networkAddress then s
  else if sourceRouted then
    s.queueNetworkStatus ⟨header.srcAddr, NetworkStatusCommand.SOURCE_ROUTE_FAILURE, header.dstAddr, none⟩
  else if manyToOne then
    match neighbor with
    | none => s
    | some nextHop =>
      s.queueNetworkStatus
        ⟨header.dstAddr, NetworkStatusCommand.MANY_TO_ONE_ROUTE_FAILURE, header.srcAddr, some nextHop⟩
  else s.queueNetworkStatus ⟨header.srcAddr, NetworkStatusCommand.NO_ROUTE_AVAILABLE, header.dstAddr, none⟩

def relayFrameSourceRouted (s : NwkLayer) (header : NwkHeader) (payload : List UInt8) (newRadius : UInt8)
    (r : RelayReading) : NwkLayer × Except NwkStatus Unit :=
  match sourceRoutedHop header s.nib.networkAddress newRadius with
  | .error status => (s, .error status)
  | .ok (nextHop, relayHeader) =>
    match buildNwkFrame { s with routing := s.routing.clearRouteRecordRequired header.srcAddr } relayHeader payload r.aes with
    | (s, .error status) => (s, .error status)
    | (s, .ok frame) =>
      if r.sleepyChild then (s, if r.buffered then .ok () else .error .frameNotBuffered)
      else
        match sendHop { s with nib := s.nib.nextSeq.1 } frame nextHop r.first none with
        | (s, true) => (s, .ok ())
        | (s, false) => (s.handleRelayFailure header true none, .error .routeError)

/-- Whether the frame reports a failed many-to-one route. -/
def isManyToOneStatus (header : NwkHeader) (payload : List UInt8) : Bool :=
  header.frameControl.frameType == NwkFrameType.command && payload.head? == some NwkCommandId.networkStatus &&
    4 ≤ payload.length && u8At payload 1 == NetworkStatusCommand.MANY_TO_ONE_ROUTE_FAILURE

/-- The next hop of a relay; none is ever the hop that the frame came from, but for the report of a failed
    many-to-one route, which falls back to a random router neighbour. -/
def relayNextHop (isStatus : Bool) (previousHop : ShortAddress) (r : RelayReading) : Except NwkStatus ShortAddress :=
  match r.nextHop with
  | .ok nextHop => if isStatus || nextHop != previousHop then .ok nextHop else .error .routeError
  | .error status =>
    if isStatus then
      match r.neighbor with
      | some nextHop => .ok nextHop
      | none => .error .routeError
    else .error status

/-- A relayed frame that the MAC could not deliver, or did. -/
def finishRelay (s : NwkLayer) (header : NwkHeader) (hop : ShortAddress) (r : RelayReading) (ok : Bool) :
    NwkLayer × Except NwkStatus Unit :=
  if ok then ({ s with routing := s.routing.noteUsed header.dstAddr hop }, .ok ())
  else (s.handleRelayFailure header false r.neighbor, .error .routeError)

/-- The relayed frame on its way: `isStatus` frames are retried through another neighbour, others through
    the routing table's alternative. -/
def sendRelay (s : NwkLayer) (header : NwkHeader) (frame : NwkFrame) (isStatus : Bool)
    (previousHop hop : ShortAddress) (r : RelayReading) : NwkLayer × Except NwkStatus Unit :=
  let s := { s with nib := s.nib.nextSeq.1 }
  if isStatus then
    match s.sendHop frame hop r.first none with
    | (s, true) => ({ s with routing := s.routing.noteUsed header.dstAddr hop }, .ok ())
    | (s, false) =>
      match r.retryNeighbor with
      | none => (s, .error .routeError)
      | some (hop, outcome) =>
        (transmit { s with nib := s.nib.nextSeq.1 } frame hop outcome,
          if outcome.isOk then .ok () else .error .routeError)
  else
    let alternate := r.alternate.filter (·.1 != previousHop)
    match s.sendHop frame hop r.first alternate with
    | (s, ok) =>
      let s := if r.first == .noAck then s.noteLinkFailure header.dstAddr hop else s
      let usedHop := if r.first == .noAck then (alternate.map (·.1)).getD hop else hop
      s.finishRelay header usedHop r ok

def relayFrame (s : NwkLayer) (header : NwkHeader) (payload : List UInt8) (previousHop : ShortAddress)
    (r : RelayReading) : NwkLayer × Except NwkStatus Unit :=
  let newRadius := if header.radius = 0 then 0 else header.radius - 1
  if newRadius = 0 then (s, .ok ())
  else if header.sourceRoute.isSome then s.relayFrameSourceRouted header payload newRadius r
  else
    let isStatus := isManyToOneStatus header payload
    let routeIsManyToOne := (s.routing.getEntry header.dstAddr).any (·.manyToOne)
    if s.routing.hasFailedManyToOne header.dstAddr && !isStatus then (s, .error .routeError)
    else
      match relayNextHop isStatus previousHop r with
      | .error status => (if isStatus then s else s.handleUnroutableRelay header r.discovery, .error status)
      | .ok hop =>
        let s :=
          if header.frameControl.discoverRoute ≠ 0 && r.unconfirmed && !s.routing.hasActiveDiscovery header.dstAddr then
            (s.discoverRoute header.dstAddr r.discovery).1
          else s
        -- A parent records the route of its end-device child ahead of the child's data.
        let s :=
          match r.childIeee with
          | some childIeee =>
            if routeIsManyToOne && header.frameControl.frameType == NwkFrameType.data && previousHop == header.srcAddr then
              (s.sendRouteRecordFrom header.dstAddr header.srcAddr childIeee [s.nib.networkAddress] r.record).1
            else s
          | none => s
        match s.buildNwkFrame { header with radius := newRadius } payload r.aes with
        | (s, .error status) => (s, .error status)
        | (s, .ok frame) =>
          if r.sleepyChild then (s, if r.buffered then .ok () else .error .frameNotBuffered)
          else s.sendRelay header frame isStatus previousHop hop r

def relayRouteRecord (s : NwkLayer) (header : NwkHeader) (payload : List UInt8) (r : RelayReading) :
    NwkLayer × Except NwkStatus Unit :=
  let newRadius := if header.radius = 0 then 0 else header.radius - 1
  if newRadius = 0 then (s, .ok ())
  else
    match payload with
    | [] => (s, .error .invalidParameter)
    | _ :: body =>
      match extendRouteRecord body s.nib.networkAddress with
      | .error status => (s, .error status)
      | .ok body =>
        match r.nextHop with
        | .error status => (s, .error status)
        | .ok hop =>
          match s.buildNwkFrame { header with radius := newRadius } (NwkCommandId.routeRecord :: body) r.aes with
          | (s, .error status) => (s, .error status)
          | (s, .ok frame) =>
            match sendHop { s with nib := s.nib.nextSeq.1 } frame hop r.first none with
            | (s, true) => (s, .ok ())
            | (s, false) => ({ s with routing := s.routing.remove header.dstAddr }, .error .routeError)

/-! ## Route Records at the concentrator -/

/-- The source route and the next hop of one destination of a record. -/
def storeRoute (s : NwkLayer) (destination : ShortAddress) (relays : List ShortAddress) : NwkLayer :=
  { s with
    sourceRouteTable := s.sourceRouteTable.insert destination relays
    routing := (s.routing.updateRoute destination (relays.getLast?.getD destination) (UInt8.ofNat relays.length)).1 }

def handleRouteRecord (s : NwkLayer) (src : ShortAddress) (payload : List UInt8) : NwkLayer :=
  if !s.canRoute then s
  else if payload.isEmpty then s
  else if payload.length < 1 + (u8At payload 0).toNat * 2 then s
  else if MAX_SOURCE_ROUTE_RELAYS < (u8At payload 0).toNat then s
  else
    let relayList := routeRecordRelays payload
    (relaySuffixes relayList).foldl (fun s x => s.storeRoute x.1 x.2) (s.storeRoute src relayList)

end NwkLayer

end Zigbee.Nwk
