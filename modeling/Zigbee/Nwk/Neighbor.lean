import Zigbee.Lib.Table
import Zigbee.Types

/-!
# Neighbour table and address map

Model of `zigbee-nwk/src/neighbor.rs` and `address_map.rs`: the neighbours that a device hears directly,
with every operation of their table, and the address pairs of devices anywhere in the network.

The table is an array of slots, of which a search reads the first `count`.  `router` is the feature of
that name, which sets the sizes and the eviction; the two flags of an entry that only its builds have
are kept in both.  Of an entry the fields that a modelled function reads are kept.
-/

namespace Zigbee.Nwk

open Table (modifyFirst)

inductive NeighborDeviceType where
  | coordinator
  | router
  | endDevice
  | unknown
  deriving DecidableEq, Repr

inductive Relationship where
  | parent
  | child
  | sibling
  | previousChild
  | unauthenticatedChild
  deriving DecidableEq, Repr

structure NeighborEntry where
  ieeeAddress : IeeeAddress
  networkAddress : ShortAddress
  deviceType : NeighborDeviceType
  relationship : Relationship
  incomingCost : UInt8
  outgoingCost : UInt8
  linkStatusAge : UInt8
  age : UInt16
  keepaliveConfirmed : Bool
  parentAnncePending : Bool
  awaitingLinkStatus : Bool
  active : Bool
  deriving DecidableEq

def MAX_NEIGHBORS (router : Bool) : Nat := if router then 32 else 8

/-- `nwkRouterAgeLimit`. -/
def ROUTER_AGE_LIMIT : UInt8 := 3

def linkCostFromLqi (lqi : UInt8) : UInt8 :=
  if lqi ≤ 50 then 7 else if lqi ≤ 100 then 5 else if lqi ≤ 150 then 3 else if lqi ≤ 200 then 2 else 1

/-! ## Entries -/

namespace NeighborEntry

def empty : NeighborEntry where
  ieeeAddress := Vector.replicate 8 0
  networkAddress := 0xFFFF
  deviceType := .unknown
  relationship := .sibling
  incomingCost := linkCostFromLqi 0
  outgoingCost := 0
  linkStatusAge := 0
  age := 0
  keepaliveConfirmed := false
  parentAnncePending := false
  awaitingLinkStatus := false
  active := false

def newFromAnnce (nwkAddr : ShortAddress) (ieeeAddr : IeeeAddress) : NeighborEntry :=
  { empty with networkAddress := nwkAddr, ieeeAddress := ieeeAddr, active := true }

/-- The entry of a device that associates or rejoins. -/
def admitted (ieee : IeeeAddress) (address : ShortAddress) (deviceType : NeighborDeviceType) (secured : Bool) : NeighborEntry where
  ieeeAddress := ieee
  networkAddress := address
  deviceType
  relationship := if secured then .child else .unauthenticatedChild
  incomingCost := linkCostFromLqi 0xFF
  outgoingCost := 0
  linkStatusAge := 0
  age := 0
  keepaliveConfirmed := secured
  parentAnncePending := false
  awaitingLinkStatus := deviceType == .router
  active := true

def isRouter (e : NeighborEntry) : Bool := e.deviceType == .router || e.deviceType == .coordinator

def isChild (e : NeighborEntry) : Bool := e.relationship == .child || e.relationship == .unauthenticatedChild

/-- A parent or a child: an entry that only join, rejoin and conflict processing may change. -/
def isRelative (e : NeighborEntry) : Bool := e.relationship == .parent || e.isChild

def isStaleRouterChild (e : NeighborEntry) : Bool :=
  e.relationship == .child && e.isRouter && ROUTER_AGE_LIMIT < e.linkStatusAge

/-- Whether a full table may overwrite this entry. -/
def isEvictable (router : Bool) (e : NeighborEntry) : Bool := (router && e.isStaleRouterChild) || !e.isRelative

/-- The largest rank is overwritten first. -/
def evictionRank (router : Bool) (e : NeighborEntry) : Nat :=
  if router && e.relationship != .child then 2 ^ 16 + e.age.toNat else e.age.toNat

/-- The entry is found under one of the two identifiers. -/
def isNamed (nwkAddr : ShortAddress) (ieeeAddr : IeeeAddress) (e : NeighborEntry) : Bool :=
  e.active && (e.networkAddress == nwkAddr || e.ieeeAddress == ieeeAddr)

/-- `entry.active = false`. -/
def drop (e : NeighborEntry) : NeighborEntry := { e with active := false }

end NeighborEntry

/-! ## The table -/

/-- The slots, and the bound of those that are searched; a router's where no build is named. -/
@[ext]
structure NeighborTable (router : Bool := true) where
  entries : List NeighborEntry
  count : Nat
  size_eq : entries.length = MAX_NEIGHBORS router

variable {router : Bool}

namespace NeighborTable

def new (router : Bool) : NeighborTable router where
  entries := List.replicate (MAX_NEIGHBORS router) .empty
  count := 0
  size_eq := List.length_replicate

/-- The searched prefix. -/
def searched (t : NeighborTable router) : List NeighborEntry := t.entries.take t.count

def findByShort (t : NeighborTable router) (addr : ShortAddress) : Option NeighborEntry :=
  t.searched.find? fun e => e.active && e.networkAddress == addr

def findByIeee (t : NeighborTable router) (addr : IeeeAddress) : Option NeighborEntry :=
  t.searched.find? fun e => e.active && e.ieeeAddress == addr

def parent (t : NeighborTable router) : Option NeighborEntry :=
  t.searched.find? fun e => e.active && e.relationship == .parent

/-- The children that a search sees. -/
def children (t : NeighborTable router) : List NeighborEntry := t.searched.filter fun e => e.active && e.isChild

def hasChildSlot (t : NeighborTable router) : Bool :=
  t.entries.any (!·.active) || t.entries.any fun e => e.active && e.isEvictable router

/-- One slot written. -/
def setSlot (t : NeighborTable router) (i : Nat) (e : NeighborEntry) : NeighborTable router where
  entries := t.entries.set i e
  count := t.count
  size_eq := by rw [List.length_set, t.size_eq]

/-- The first searched entry that meets `p`, changed. -/
def modifySearched (t : NeighborTable router) (p : NeighborEntry → Bool) (f : NeighborEntry → NeighborEntry) :
    NeighborTable router where
  entries := modifyFirst p f t.searched ++ t.entries.drop t.count
  count := t.count
  size_eq := by
    rw [List.length_append, Table.length_modifyFirst, ← List.length_append, searched, List.take_append_drop, t.size_eq]

/-- The entry that `find_by_short_mut` finds, changed. -/
def modifyByShort (t : NeighborTable router) (addr : ShortAddress) (f : NeighborEntry → NeighborEntry) : NeighborTable router :=
  t.modifySearched (fun e => e.active && e.networkAddress == addr) f

/-- The entry that `find_by_ieee_mut` finds, changed. -/
def modifyByIeee (t : NeighborTable router) (addr : IeeeAddress) (f : NeighborEntry → NeighborEntry) : NeighborTable router :=
  t.modifySearched (fun e => e.active && e.ieeeAddress == addr) f

/-- The first entry that meets `p`, in any slot, changed. -/
def modifyAny (t : NeighborTable router) (p : NeighborEntry → Bool) (f : NeighborEntry → NeighborEntry) :
    NeighborTable router where
  entries := modifyFirst p f t.entries
  count := t.count
  size_eq := by rw [Table.length_modifyFirst, t.size_eq]

/-- Every entry changed in its slot. -/
def mapSlots (t : NeighborTable router) (f : Nat → NeighborEntry → NeighborEntry) : NeighborTable router where
  entries := t.entries.mapIdx f
  count := t.count
  size_eq := by rw [List.length_mapIdx, t.size_eq]

/-- The entries of `iter_mut_all`, changed. -/
def mapActive (t : NeighborTable router) (f : NeighborEntry → NeighborEntry) : NeighborTable router :=
  t.mapSlots fun _ e => if e.active then f e else e

/-- The slot of the evictable entry that goes first. -/
def victim (t : NeighborTable router) : Option Nat :=
  (maxByKey (fun x => x.1.evictionRank router)
    (t.entries.zipIdx.filter fun x => x.1.active && x.1.isEvictable router)).map (·.2)

/-- The searched entries after slot `index` that meet `p` are dropped. -/
def dropLater (t : NeighborTable router) (index : Nat) (p : NeighborEntry → Bool) : NeighborTable router :=
  t.mapSlots fun j e => if index < j && j < t.count && p e then e.drop else e

/-- Entries that match either identifier are merged into the first of them; otherwise the entry takes a
    free slot, or that of an evictable neighbour.  The flag says whether there was one. -/
def addOrUpdate (t : NeighborTable router) (entry : NeighborEntry) : NeighborTable router × Bool :=
  let p := NeighborEntry.isNamed entry.networkAddress entry.ieeeAddress
  let live := { entry with active := true }
  match t.searched.findIdx? p with
  | some index => ((t.dropLater index p).setSlot index live, true)
  | none =>
    match t.entries.findIdx? (!·.active) with
    | some slot =>
      ({ t.setSlot slot live with count := if t.count < MAX_NEIGHBORS router then t.count + 1 else t.count }, true)
    | none =>
      match t.victim with
      | some slot => (t.setSlot slot live, true)
      | none => (t, false)

def remove (t : NeighborTable router) (addr : ShortAddress) : NeighborTable router :=
  t.modifyAny (fun e => e.active && e.networkAddress == addr) NeighborEntry.drop

def ageTick (t : NeighborTable router) : NeighborTable router :=
  t.mapActive fun e => { e with age := saturatingAdd16 e.age 1 }

def ageRouterLinkStatus (t : NeighborTable router) : NeighborTable router :=
  t.mapActive fun e =>
    if e.isRouter then
      let linkStatusAge := if e.linkStatusAge < ROUTER_AGE_LIMIT + 1 then e.linkStatusAge + 1 else ROUTER_AGE_LIMIT + 1
      { e with
        linkStatusAge
        outgoingCost := if ROUTER_AGE_LIMIT < linkStatusAge then 0 else e.outgoingCost }
    else e

def expireUnauthenticated (t : NeighborTable router) (maxAge : UInt16) : NeighborTable router :=
  t.mapActive fun e => if e.relationship == .unauthenticatedChild && maxAge ≤ e.age then e.drop else e

/-! ### What the operations find and write -/

theorem findByIeee_some {t : NeighborTable router} {ieee : IeeeAddress} {e : NeighborEntry} (h : t.findByIeee ieee = some e) :
    e ∈ t.entries ∧ e.active = true ∧ e.ieeeAddress = ieee := by
  have hp := List.find?_some h
  simp only [Bool.and_eq_true, beq_iff_eq] at hp
  exact ⟨List.mem_of_mem_take (List.mem_of_find?_eq_some h), hp⟩

theorem entries_mapActive (t : NeighborTable router) (f : NeighborEntry → NeighborEntry) :
    (t.mapActive f).entries = t.entries.map fun e => if e.active then f e else e := by
  refine List.ext_getElem? fun i => ?_
  rw [List.getElem?_map]
  exact List.getElem?_mapIdx

theorem searched_modifySearched (t : NeighborTable router) (p : NeighborEntry → Bool) (f : NeighborEntry → NeighborEntry) :
    (t.modifySearched p f).searched = modifyFirst p f t.searched := by
  have hlen : (modifyFirst p f t.searched).length = min t.count t.entries.length := by
    rw [Table.length_modifyFirst, searched, List.length_take]
  change (modifyFirst p f t.searched ++ t.entries.drop t.count).take t.count = _
  rcases Nat.le_total t.count t.entries.length with hle | hle
  · exact List.take_left' (by omega)
  · rw [List.drop_eq_nil_of_le hle, List.append_nil]
    exact List.take_of_length_le (by omega)

end NeighborTable

/-! ## The address map -/

structure AddressMapEntry where
  networkAddress : ShortAddress
  ieeeAddress : IeeeAddress
  deriving DecidableEq

def MAX_ADDRESS_MAP_ENTRIES : Nat := 32

abbrev AddressMap := List AddressMapEntry

namespace AddressMap

def ieeeOf (m : AddressMap) (short : ShortAddress) : Option IeeeAddress :=
  (m.find? (·.networkAddress == short)).map (·.ieeeAddress)

def shortOf (m : AddressMap) (ieee : IeeeAddress) : Option ShortAddress :=
  (m.find? (·.ieeeAddress == ieee)).map (·.networkAddress)

/-- A full map loses the pair that was updated least recently; a build without routing keeps no map. -/
def update (router : Bool) (m : AddressMap) (short : ShortAddress) (ieee : IeeeAddress) : AddressMap :=
  if !router then m
  else
    let kept := m.filter fun e => e.networkAddress != short && e.ieeeAddress != ieee
    (if kept.length = MAX_ADDRESS_MAP_ENTRIES then kept.drop 1 else kept) ++ [⟨short, ieee⟩]

def remove (m : AddressMap) (short : ShortAddress) : AddressMap := m.filter (·.networkAddress != short)

end AddressMap

end Zigbee.Nwk
