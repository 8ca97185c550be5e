import Zigbee.Lib.Table
import Zigbee.Types

/-!
# Routing table

Model of `RoutingTable` of `zigbee-nwk/src/routing.rs`: the route entries and the pending route
discoveries, with every operation that changes them.  Both are arrays of slots with an `active` flag;
a slot that is not active keeps what it held, and a many-to-one route that has failed stays behind as
a tombstone.  Tree routing is left out.
-/

namespace Zigbee.Nwk

/-- Many-to-one concentrator type. -/
inductive ConcentratorType where
  | lowRam
  | highRam
  deriving DecidableEq, Repr

/-- Route Request command-options byte of a many-to-one request. -/
def ConcentratorType.rreqOptions : ConcentratorType → UInt8
  | .lowRam => 0x10
  | .highRam => 0x08

/-- The many-to-one sub-field, bits 3 and 4. -/
def ConcentratorType.fromRreqOptions (options : UInt8) : Option ConcentratorType :=
  if (options >>> 3) &&& 0x03 = 1 then some .highRam
  else if (options >>> 3) &&& 0x03 = 2 then some .lowRam
  else none

def MAX_ROUTES (router : Bool) : Nat := if router then 32 else 0

def MAX_ROUTE_DISCOVERIES (router : Bool) : Nat := if router then 8 else 0

def MAX_SOURCE_ROUTES (router : Bool) : Nat := if router then 32 else 0

def MAX_SOURCE_ROUTE_RELAYS : Nat := 8

def ROUTE_EVICTION_MIN_AGE_SECS : UInt16 := 10

inductive RouteStatus where
  | active
  | discoveryUnderway
  | discoveryFailed
  | inactive
  | validationUnderway
  deriving DecidableEq, Repr

structure RouteEntry where
  destination : ShortAddress
  nextHop : ShortAddress
  status : RouteStatus
  /-- Whether the destination is a concentrator. -/
  manyToOne : Bool
  routeRecordRequired : Bool
  routeRecordEveryFrame : Bool
  groupId : Bool
  pathCost : UInt8
  age : UInt16
  active : Bool
  deriving DecidableEq

def RouteEntry.empty : RouteEntry :=
  ⟨0xFFFF, 0xFFFF, .inactive, false, false, false, false, 0xFF, 0, false⟩

/-- One route discovery, identified by its originator and request id. -/
structure RouteDiscovery where
  requestId : UInt8
  originator : ShortAddress
  destination : ShortAddress
  sender : ShortAddress
  forwardCost : UInt8
  residualCost : UInt8
  timestamp : UInt32
  active : Bool
  deriving DecidableEq

def RouteDiscovery.empty : RouteDiscovery :=
  ⟨0, 0xFFFF, 0xFFFF, 0xFFFF, 0xFF, 0xFF, 0, false⟩

structure RoutingTable where
  routes : List RouteEntry
  discoveries : List RouteDiscovery

/-- A live entry for the destination, whatever its status. -/
def RouteEntry.isFor (r : RouteEntry) (destination : ShortAddress) : Bool :=
  r.active && r.destination == destination

/-- An entry that a lookup may return. -/
def RouteEntry.usable (r : RouteEntry) (destination : ShortAddress) : Bool :=
  r.isFor destination && r.status == .active

def RouteEntry.retire (r : RouteEntry) : RouteEntry := { r with active := false, status := .inactive }

/-- An entry for the concentrator's own destination, live or not, taken over by a many-to-one request. -/
def RouteEntry.advertise (r : RouteEntry) (nextHop : ShortAddress) (cost : UInt8)
    (concentratorType : ConcentratorType) : RouteEntry :=
  let noRouteCache := concentratorType == .lowRam
  let newOrChangedPath := !r.active || r.nextHop != nextHop
  { r with
    nextHop := nextHop
    pathCost := cost
    status := .active
    manyToOne := true
    routeRecordEveryFrame := noRouteCache
    routeRecordRequired := if noRouteCache || newOrChangedPath then true else r.routeRecordRequired
    age := 0
    active := true }

def RouteDiscovery.isFor (d : RouteDiscovery) (originator : ShortAddress) (requestId : UInt8) : Bool :=
  d.active && d.originator == originator && d.requestId == requestId

def RouteDiscovery.timedOut (d : RouteDiscovery) (maxAge currentTime : UInt32) : Bool :=
  d.active && maxAge < currentTime - d.timestamp

namespace RoutingTable

open Table (modifyFirst)

def new (router : Bool) : RoutingTable :=
  ⟨List.replicate (MAX_ROUTES router) .empty, List.replicate (MAX_ROUTE_DISCOVERIES router) .empty⟩

/-! ## Lookups -/

def nextHop (t : RoutingTable) (destination : ShortAddress) : Option ShortAddress :=
  (t.routes.find? (·.usable destination)).map (·.nextHop)

def getEntry (t : RoutingTable) (destination : ShortAddress) : Option RouteEntry :=
  t.routes.find? (·.usable destination)

def hasFailedManyToOne (t : RoutingTable) (destination : ShortAddress) : Bool :=
  if (t.getEntry destination).isSome then false
  else t.routes.any fun r => !r.active && r.destination == destination && r.manyToOne

/-! ## Routes -/

/-- The first entry that meets `p`, changed. -/
def modifyRoute (t : RoutingTable) (p : RouteEntry → Bool) (f : RouteEntry → RouteEntry) : RoutingTable :=
  { t with routes := modifyFirst p f t.routes }

/-- Every entry that meets `p`, changed. -/
def modifyRoutes (t : RoutingTable) (p : RouteEntry → Bool) (f : RouteEntry → RouteEntry) : RoutingTable :=
  { t with routes := t.routes.map fun r => if p r then f r else r }

/-- The oldest of the entries that meet `p`. -/
def oldest (routes : List RouteEntry) (p : RouteEntry → Bool) : Option Nat :=
  (maxByKey (fun x => x.1.age.toNat) (routes.zipIdx.filter fun x => p x.1)).map (·.2)

/-- The slot that a new route may take: a free one that holds no tombstone, the oldest that is not in
    use, the oldest normal route that has been idle for a while, and last a tombstone. -/
def reclaimSlot (t : RoutingTable) : Option Nat :=
  ((t.routes.findIdx? fun r => !r.active && !r.manyToOne).or
    (oldest t.routes fun r => r.active && r.status != .active)).or
  ((oldest t.routes fun r => r.active && r.status == .active && !r.manyToOne &&
      ROUTE_EVICTION_MIN_AGE_SECS ≤ r.age).or
    (t.routes.findIdx? fun r => !r.active))

/-- A new entry put into the slot that may be reclaimed, or a refusal. -/
def install (t : RoutingTable) (entry : RouteEntry) : RoutingTable × Bool :=
  match t.reclaimSlot with
  | none => (t, false)
  | some i => ({ t with routes := t.routes.set i entry }, true)

def updateRoute (t : RoutingTable) (destination nextHop : ShortAddress) (cost : UInt8) : RoutingTable × Bool :=
  if t.routes.any (·.isFor destination) then
    (t.modifyRoute (·.isFor destination) fun r =>
      { r with nextHop := nextHop, pathCost := cost, status := .active, age := 0 }, true)
  else t.install ⟨destination, nextHop, .active, false, false, false, false, cost, 0, true⟩

def updateRouteManyToOne (t : RoutingTable) (destination nextHop : ShortAddress) (cost : UInt8)
    (concentratorType : ConcentratorType) : RoutingTable × Bool :=
  if t.routes.any (·.destination == destination) then
    (t.modifyRoute (·.destination == destination) (·.advertise nextHop cost concentratorType), true)
  else t.install ⟨destination, nextHop, .active, true, true, concentratorType == .lowRam, false, cost, 0, true⟩

def noteUsed (t : RoutingTable) (destination nextHop : ShortAddress) : RoutingTable :=
  t.modifyRoute (fun r => r.usable destination && r.nextHop == nextHop) fun r => { r with age := 0 }

def markDiscovery (t : RoutingTable) (destination : ShortAddress) : RoutingTable :=
  t.modifyRoute (·.isFor destination) fun r => { r with status := .discoveryUnderway }

def remove (t : RoutingTable) (destination : ShortAddress) : RoutingTable :=
  t.modifyRoute (·.isFor destination) RouteEntry.retire

def removeThrough (t : RoutingTable) (addr : ShortAddress) : RoutingTable :=
  t.modifyRoutes (fun r => r.active && !r.manyToOne && (r.destination == addr || r.nextHop == addr))
    RouteEntry.retire

def ageBy (t : RoutingTable) (elapsedSecs : UInt16) : RoutingTable :=
  t.modifyRoutes (·.active) fun r => { r with age := saturatingAdd16 r.age elapsedSecs }

def clearRouteRecordRequired (t : RoutingTable) (destination : ShortAddress) : RoutingTable :=
  t.modifyRoute (·.isFor destination) fun r =>
    if r.routeRecordEveryFrame then r else { r with routeRecordRequired := false }

def expireStale (t : RoutingTable) (maxAge : UInt16) : RoutingTable :=
  t.modifyRoutes (fun r => r.active && !r.manyToOne && r.status != .discoveryUnderway && maxAge < r.age)
    RouteEntry.retire

/-! ## Discoveries -/

def addDiscovery (t : RoutingTable) (discovery : RouteDiscovery) : RoutingTable × Bool :=
  ({ t with discoveries := modifyFirst (!·.active) (fun _ => { discovery with active := true }) t.discoveries },
    t.discoveries.any (!·.active))

/-- Mutable access to a discovery: the caller may change it in any way. -/
def findDiscoveryForMut (t : RoutingTable) (originator : ShortAddress) (requestId : UInt8)
    (update : RouteDiscovery → RouteDiscovery) : RoutingTable :=
  { t with discoveries := modifyFirst (·.isFor originator requestId) update t.discoveries }

def completeDiscoveryFor (t : RoutingTable) (originator : ShortAddress) (requestId : UInt8) : RoutingTable :=
  t.findDiscoveryForMut originator requestId fun d => { d with active := false }

def completeDiscovery (t : RoutingTable) (requestId : UInt8) : RoutingTable :=
  { t with
    discoveries :=
      modifyFirst (fun d => d.active && d.requestId == requestId) (fun d => { d with active := false }) t.discoveries }

/-- The route entry of a discovery that has come to nothing. -/
def failRoute (destination : ShortAddress) (routes : List RouteEntry) : List RouteEntry :=
  modifyFirst (fun r => r.destination == destination && r.status == .discoveryUnderway)
    (fun r => { r with status := .discoveryFailed }) routes

/-- `fail_discovery_entry` on the first discovery that meets `p`. -/
def failFirst (t : RoutingTable) (p : RouteDiscovery → Bool) : RoutingTable :=
  match t.discoveries.find? p with
  | none => t
  | some d =>
    { t with
      discoveries := modifyFirst p (fun d => { d with active := false }) t.discoveries
      routes := failRoute d.destination t.routes }

def failDiscovery (t : RoutingTable) (requestId : UInt8) : RoutingTable :=
  t.failFirst fun d => d.active && d.requestId == requestId

def failDiscoveryFor (t : RoutingTable) (originator : ShortAddress) (requestId : UInt8) : RoutingTable :=
  t.failFirst (·.isFor originator requestId)

def expireDiscoveries (t : RoutingTable) (maxAge currentTime : UInt32) : RoutingTable where
  discoveries := t.discoveries.map fun d =>
    if d.timedOut maxAge currentTime then { d with active := false } else d
  routes := (t.discoveries.filter (·.timedOut maxAge currentTime)).foldl
    (fun routes d => failRoute d.destination routes) t.routes

end RoutingTable

def RoutingTable.hasActiveDiscovery (t : RoutingTable) (destination : ShortAddress) : Bool :=
  t.discoveries.any fun d => d.active && d.destination == destination

/-! ## Source routes -/

/-- The relays between a concentrator and a destination, the one closest to the destination first. -/
structure SourceRouteEntry where
  destination : ShortAddress
  relayList : List ShortAddress
  age : UInt16
  active : Bool
  deriving DecidableEq

def SourceRouteEntry.empty : SourceRouteEntry := ⟨0xFFFF, [], 0, false⟩

def SourceRouteEntry.isFor (e : SourceRouteEntry) (destination : ShortAddress) : Bool :=
  e.active && e.destination == destination

abbrev SourceRouteTable := List SourceRouteEntry

namespace SourceRouteTable

open Table (modifyFirst)

def new (router : Bool) : SourceRouteTable := List.replicate (MAX_SOURCE_ROUTES router) .empty

/-- The slot that a new source route takes: a free one, or the oldest. -/
def slot (t : SourceRouteTable) : Option Nat :=
  (t.findIdx? (!·.active)).or
    ((maxByKey (fun x => x.1.age.toNat) (t.zipIdx.filter (·.1.active))).map (·.2))

def insert (t : SourceRouteTable) (destination : ShortAddress) (relayList : List ShortAddress) : SourceRouteTable :=
  if t.any (·.isFor destination) then
    modifyFirst (·.isFor destination) (fun e => { e with relayList := relayList.take MAX_SOURCE_ROUTE_RELAYS, age := 0 }) t
  else
    match t.slot with
    | none => t
    | some i => t.set i ⟨destination, relayList.take MAX_SOURCE_ROUTE_RELAYS, 0, true⟩

def lookup (t : SourceRouteTable) (destination : ShortAddress) : Option (List ShortAddress) :=
  (t.find? (·.isFor destination)).map (·.relayList)

def remove (t : SourceRouteTable) (destination : ShortAddress) : SourceRouteTable :=
  modifyFirst (·.isFor destination) (fun e => { e with active := false }) t

def noteUsed (t : SourceRouteTable) (destination : ShortAddress) : SourceRouteTable :=
  modifyFirst (·.isFor destination) (fun e => { e with age := 0 }) t

end SourceRouteTable

/-! ## Operations -/

inductive RoutingOp where
  | updateRoute (destination nextHop : ShortAddress) (cost : UInt8)
  | updateRouteManyToOne (destination nextHop : ShortAddress) (cost : UInt8) (concentratorType : ConcentratorType)
  | noteUsed (destination nextHop : ShortAddress)
  | markDiscovery (destination : ShortAddress)
  | remove (destination : ShortAddress)
  | removeThrough (addr : ShortAddress)
  | ageBy (elapsedSecs : UInt16)
  | clearRouteRecordRequired (destination : ShortAddress)
  | expireStale (maxAge : UInt16)
  | addDiscovery (discovery : RouteDiscovery)
  | findDiscoveryForMut (originator : ShortAddress) (requestId : UInt8) (update : RouteDiscovery → RouteDiscovery)
  | completeDiscoveryFor (originator : ShortAddress) (requestId : UInt8)
  | completeDiscovery (requestId : UInt8)
  | failDiscovery (requestId : UInt8)
  | failDiscoveryFor (originator : ShortAddress) (requestId : UInt8)
  | expireDiscoveries (maxAge currentTime : UInt32)

def RoutingOp.step (t : RoutingTable) : RoutingOp → RoutingTable
  | .updateRoute destination nextHop cost => (t.updateRoute destination nextHop cost).1
  | .updateRouteManyToOne destination nextHop cost concentratorType =>
    (t.updateRouteManyToOne destination nextHop cost concentratorType).1
  | .noteUsed destination nextHop => t.noteUsed destination nextHop
  | .markDiscovery destination => t.markDiscovery destination
  | .remove destination => t.remove destination
  | .removeThrough addr => t.removeThrough addr
  | .ageBy elapsedSecs => t.ageBy elapsedSecs
  | .clearRouteRecordRequired destination => t.clearRouteRecordRequired destination
  | .expireStale maxAge => t.expireStale maxAge
  | .addDiscovery discovery => (t.addDiscovery discovery).1
  | .findDiscoveryForMut originator requestId update => t.findDiscoveryForMut originator requestId update
  | .completeDiscoveryFor originator requestId => t.completeDiscoveryFor originator requestId
  | .completeDiscovery requestId => t.completeDiscovery requestId
  | .failDiscovery requestId => t.failDiscovery requestId
  | .failDiscoveryFor originator requestId => t.failDiscoveryFor originator requestId
  | .expireDiscoveries maxAge currentTime => t.expireDiscoveries maxAge currentTime

end Zigbee.Nwk
