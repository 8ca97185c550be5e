import Zigbee.Mac.Frames
import Zigbee.Nwk.NeighborIdentity

/-!
# Association of children

Model of the parent's side of an association in `zigbee-nwk/src/lib.rs`: the short address that a child
gets, the child limits, and `handle_child_association` with the tables that it updates.

The request is not authenticated, and it names the device by an IEEE address.  What it finds under that
address starts over: the device has to prove again that it holds the network key.

* `handleChildAssociation` — one request.
* `Contained` — what a request may change.
* `association_contained` — every request of a run is contained.

The MAC's Frame Pending table is the driver's.
-/

namespace Zigbee.Nwk

open Mac (CapabilityInfo)
open NwkLayer

structure ChildCapacity where
  router : Bool
  endDevice : Bool

namespace Identity.Association

/-- A request, and the clock at each draw of an address for it. -/
structure Request where
  childIeee : IeeeAddress
  capabilityInfo : UInt8
  clock : Nat → Nat → UInt32

def routers (l : List NeighborEntry) : Nat := l.countP (·.deviceType == .router)

def endDevices (l : List NeighborEntry) : Nat := l.countP (·.deviceType == .endDevice)

def newChild (ieee : IeeeAddress) (address : ShortAddress) (isFfd : Bool) : NeighborEntry :=
  .admitted ieee address (if isFfd then .router else .endDevice) false

/-- `u32::rotate_left(5)` -/
def rotateLeft5 (x : UInt32) : UInt32 := (x <<< 5) ||| (x >>> 27)

def ieeeMix (ieee : IeeeAddress) : UInt32 :=
  ieee.toList.foldl (fun acc b => rotateLeft5 acc ^^^ (b.toUInt32 * 0x9E3779B9)) 0

end Identity.Association

namespace NwkLayer

open Identity.Association

/-- The capacity that is left beside these children. -/
def capacityBeside (s : NwkLayer) (others : List NeighborEntry) : ChildCapacity :=
  let totalCapacity := decide (routers others + endDevices others < s.nib.maxChildren.toNat)
  { router := totalCapacity && decide (s.nib.depth < s.nib.maxDepth) && decide (routers others < s.nib.maxRouters.toNat)
    endDevice := totalCapacity }

def childCapacity (s : NwkLayer) : ChildCapacity :=
  if !s.canRoute || !s.neighbors.hasChildSlot then ⟨false, false⟩ else s.capacityBeside s.neighbors.children

/-- A known neighbour does not count against itself. -/
def capacityFor (s : NwkLayer) : Option NeighborEntry → ChildCapacity
  | some e => s.capacityBeside (s.neighbors.children.filter (·.networkAddress != e.networkAddress))
  | none => s.childCapacity

/-! ## Addresses -/

def childAddressInUse (s : NwkLayer) (address : ShortAddress) (ieee : IeeeAddress) : Bool :=
  address == s.nib.networkAddress || address == s.nib.parentAddress || (s.neighbors.findByShort address).isSome ||
    (s.addressMap.ieeeOf address).any (· != ieee) || (s.routing.nextHop address).isSome

/-- One draw, from the clock, the device and the draw counter. -/
def drawAddress (s : NwkLayer) (ieee : IeeeAddress) (micros : UInt32) : ShortAddress :=
  let mixed := routingRandomSample (micros ^^^ ieeeMix ieee ^^^ (s.nextChildAddrOffset.toUInt32 * 0x85EBCA6B))
  (mixed ^^^ (mixed >>> 16)).toUInt16 % 0xFFF7 + 1

/-- At most `n` more draws; the last candidate stands. -/
def drawAddresses (ieee : IeeeAddress) (clock : Nat → UInt32) : Nat → NwkLayer → ShortAddress → NwkLayer × ShortAddress
  | 0, s, candidate => (s, candidate)
  | n + 1, s, _ =>
    let candidate := s.drawAddress ieee (clock n)
    let s := { s with nextChildAddrOffset := s.nextChildAddrOffset + 1 }
    if s.childAddressInUse candidate ieee then drawAddresses ieee clock n s candidate else (s, candidate)

def assignChildAddress (s : NwkLayer) (ieee : IeeeAddress) (clock : Nat → UInt32) : NwkLayer × ShortAddress :=
  drawAddresses ieee clock 16 s 0x0001

/-- Candidates until one is neither ours nor a neighbour's. -/
def findAddress (ieee : IeeeAddress) (clock : Nat → Nat → UInt32) : Nat → NwkLayer → NwkLayer × Option ShortAddress
  | 0, s => (s, none)
  | n + 1, s =>
    let (s, candidate) := s.assignChildAddress ieee (clock n)
    if candidate != s.nib.networkAddress && (s.neighbors.findByShort candidate).isNone then (s, some candidate)
    else findAddress ieee clock n s

/-- A known neighbour keeps its address, if a child may have it. -/
def addressFor (s : NwkLayer) (r : Request) : Option NeighborEntry → NwkLayer × Option ShortAddress
  | some e =>
    if 0x0001 ≤ e.networkAddress ∧ e.networkAddress ≤ 0xFFF7 ∧ e.networkAddress ≠ s.nib.networkAddress then
      (s, some e.networkAddress)
    else findAddress r.childIeee r.clock (MAX_NEIGHBORS true + 1) s
  | none => findAddress r.childIeee r.clock (MAX_NEIGHBORS true + 1) s

/-! ## Admission -/

/-- What is queued for a known neighbour, and the route to it, are dropped. -/
def forget (s : NwkLayer) : Option NeighborEntry → NwkLayer
  | some e => { s with indirect := s.indirect.removeAll e.networkAddress, routing := s.routing.remove e.networkAddress }
  | none => s

def admitChild (s : NwkLayer) (r : Request) (existing : Option NeighborEntry) (assigned : ShortAddress) :
    NwkLayer × Except NwkStatus ShortAddress :=
  let (neighbors, added) :=
    s.neighbors.addOrUpdate (newChild r.childIeee assigned (CapabilityInfo.fromByte r.capabilityInfo).deviceTypeFfd)
  let s := { s with neighbors }
  if added then
    let s := { s with security := s.security.clearFrameCountersForSource r.childIeee }
    (s.forget existing, .ok assigned)
  else (s, .error .neighborTableFull)

def handleChildAssociation (s : NwkLayer) (r : Request) : NwkLayer × Except NwkStatus ShortAddress :=
  if !s.joined then (s, .error .invalidRequest)
  else if s.deviceType = .endDevice then (s, .error .invalidRequest)
  else if !s.nib.permitJoining then (s, .error .notPermitted)
  else
    let capabilityInfo := CapabilityInfo.fromByte r.capabilityInfo
    if !capabilityInfo.allocateAddress || (capabilityInfo.deviceTypeFfd && !capabilityInfo.rxOnWhenIdle) then
      (s, .error .notPermitted)
    else
      let existing := s.neighbors.findByIeee r.childIeee
      if existing.any (·.relationship == .parent) then (s, .error .notPermitted)
      else
        let capacity := s.capacityFor existing
        if (capabilityInfo.deviceTypeFfd && !capacity.router) || (!capabilityInfo.deviceTypeFfd && !capacity.endDevice) then
          (s, .error .neighborTableFull)
        else
          match s.addressFor r existing with
          | (s, some assigned) => s.admitChild r existing assigned
          | (s, none) => (s, .error .neighborTableFull)

/-! ## What a request may change -/

def floorsOf (s : NwkLayer) (source : IeeeAddress) : List FrameCounterEntry :=
  s.security.frameCounterTable.filter (·.source == source)

def routesTo (s : NwkLayer) (destination : ShortAddress) : List RouteEntry :=
  s.routing.routes.filter (·.isFor destination)

end NwkLayer

variable {s : NwkLayer} {α : Type} {i : Nat} {t : NeighborTable true} {entry : NeighborEntry} {r : Request}

namespace Identity.Association

open Indirect (IndirectEntry IndirectQueue)

/-- One request of a run. -/
def step (s : NwkLayer) (r : Request) : NwkLayer := (s.handleChildAssociation r).1

/-- Nothing has moved but the draw counter. -/
def OnlyDrew (s s' : NwkLayer) : Prop := ∃ offset, s' = { s with nextChildAddrOffset := offset }

/-- The request changes what is known of the device that it names, and that only if it is accepted. -/
structure Contained (s : NwkLayer) (r : Request) (s' : NwkLayer) (answer : Except NwkStatus ShortAddress) : Prop where
  refused : (∀ address, answer ≠ .ok address) → OnlyDrew s s'
  settings : s'.nib = s.nib ∧ s'.joined = s.joined ∧ s'.deviceType = s.deviceType ∧ s'.addressMap = s.addressMap
  keys : s'.security = { s.security with frameCounterTable := s'.security.frameCounterTable }
  floors : ∀ a, a ≠ r.childIeee → s'.floorsOf a = s.floorsOf a
  others : ∀ e ∈ s.neighbors.entries, e.active = true → e.ieeeAddress ≠ r.childIeee →
    s'.indirect.pendingFor e.networkAddress = s.indirect.pendingFor e.networkAddress ∧
      s'.routesTo e.networkAddress = s.routesTo e.networkAddress ∧
      (e.isEvictable true = false → e ∈ s'.neighbors.entries)
  provisional : ∀ address, answer = .ok address → ∃ e ∈ s'.neighbors.entries,
    e.active = true ∧ e.ieeeAddress = r.childIeee ∧ e.networkAddress = address ∧ e.relationship = .unauthenticatedChild
  address : ∀ address, answer = .ok address → 0x0001 ≤ address ∧ address ≤ 0xFFF7 ∧ address ≠ s.nib.networkAddress ∧
    ∀ e, e ∈ s.neighbors.entries ∨ e ∈ s'.neighbors.entries → e.active = true → e.networkAddress = address →
      e.ieeeAddress = r.childIeee
  limits : ∀ address, answer = .ok address →
    routers s'.neighbors.children + endDevices s'.neighbors.children ≤ s.nib.maxChildren.toNat ∧
      if (CapabilityInfo.fromByte r.capabilityInfo).deviceTypeFfd then
        routers s'.neighbors.children ≤ s.nib.maxRouters.toNat ∧ s.nib.depth < s.nib.maxDepth
      else routers s'.neighbors.children ≤ routers s.neighbors.children

/-! ## Addresses -/

theorem OnlyDrew.refl (s : NwkLayer) : OnlyDrew s s := ⟨s.nextChildAddrOffset, rfl⟩

theorem OnlyDrew.trans {s' s'' : NwkLayer} (h : OnlyDrew s s') (h' : OnlyDrew s' s'') : OnlyDrew s s'' := by
  obtain ⟨o, rfl⟩ := h
  obtain ⟨o', rfl⟩ := h'
  exact ⟨o', rfl⟩

/-- An address that a child may have. -/
def Assignable (address : ShortAddress) : Prop := 0x0001 ≤ address ∧ address ≤ 0xFFF7

theorem drawAddress_assignable (s : NwkLayer) (ieee : IeeeAddress) (micros : UInt32) :
    Assignable (s.drawAddress ieee micros) := by
  unfold drawAddress
  dsimp only
  generalize (UInt32.toUInt16 _) = sample
  have hmod : (sample % 0xFFF7).toNat < 0xFFF7 := by
    rw [UInt16.toNat_mod]
    exact Nat.mod_lt _ (by decide)
  have hsucc : (sample % 0xFFF7 + 1).toNat = (sample % 0xFFF7).toNat + 1 := by
    rw [UInt16.toNat_add]
    exact Nat.mod_eq_of_lt (by change _ + 1 < 65536; omega)
  constructor
  · rw [UInt16.le_iff_toNat_le, hsucc]
    exact Nat.le_add_left 1 _
  · rw [UInt16.le_iff_toNat_le, hsucc]
    exact hmod

theorem drawAddresses_spec (ieee : IeeeAddress) (clock : Nat → UInt32) (n : Nat) (s : NwkLayer) (candidate : ShortAddress)
    (h : Assignable candidate) :
    OnlyDrew s (drawAddresses ieee clock n s candidate).1 ∧
      Assignable (drawAddresses ieee clock n s candidate).2 := by
  induction n generalizing s candidate with
  | zero => exact ⟨.refl s, h⟩
  | succ n ih =>
    rw [drawAddresses]
    have hdrew : OnlyDrew s { s with nextChildAddrOffset := s.nextChildAddrOffset + 1 } := ⟨_, rfl⟩
    have hcandidate := drawAddress_assignable s ieee (clock n)
    split
    · obtain ⟨hrest, hlast⟩ := ih { s with nextChildAddrOffset := s.nextChildAddrOffset + 1 } _ hcandidate
      exact ⟨hdrew.trans hrest, hlast⟩
    · exact ⟨hdrew, hcandidate⟩

theorem findAddress_spec (ieee : IeeeAddress) (clock : Nat → Nat → UInt32) (n : Nat) (s : NwkLayer) :
    OnlyDrew s (findAddress ieee clock n s).1 ∧ ∀ a, (findAddress ieee clock n s).2 = some a →
      Assignable a ∧ a ≠ s.nib.networkAddress ∧ s.neighbors.findByShort a = none := by
  induction n generalizing s with
  | zero => exact ⟨.refl s, nofun⟩
  | succ n ih =>
    rw [findAddress]
    obtain ⟨hdrew, hcandidate⟩ := drawAddresses_spec ieee (clock n) 16 s 0x0001 ⟨by decide, by decide⟩
    generalize hassign : s.assignChildAddress ieee (clock n) = drawn
    rw [show drawAddresses ieee (clock n) 16 s 0x0001 = drawn from hassign] at hdrew hcandidate
    obtain ⟨s₁, candidate⟩ := drawn
    obtain ⟨offset, rfl⟩ := hdrew
    dsimp only at hcandidate ⊢
    split
    · rename_i hfree
      simp only [Bool.and_eq_true, bne_iff_ne, ne_eq, Option.isNone_iff_eq_none] at hfree
      refine ⟨⟨offset, rfl⟩, fun a ha => ?_⟩
      cases ha
      exact ⟨hcandidate, hfree⟩
    · obtain ⟨hrest, hfound⟩ := ih { s with nextChildAddrOffset := offset }
      exact ⟨.trans ⟨offset, rfl⟩ hrest, hfound⟩

/-- The address is the neighbour's own, or no neighbour has it. -/
theorem addressFor_spec (s : NwkLayer) (r : Request) (existing : Option NeighborEntry) :
    OnlyDrew s (s.addressFor r existing).1 ∧ ∀ a, (s.addressFor r existing).2 = some a →
      Assignable a ∧ a ≠ s.nib.networkAddress ∧
        (existing.map (·.networkAddress) = some a ∨ s.neighbors.findByShort a = none) := by
  obtain ⟨hdrew, hfound⟩ := findAddress_spec r.childIeee r.clock (MAX_NEIGHBORS true + 1) s
  have hsearch : OnlyDrew s (findAddress r.childIeee r.clock (MAX_NEIGHBORS true + 1) s).1 ∧
      ∀ a, (findAddress r.childIeee r.clock (MAX_NEIGHBORS true + 1) s).2 = some a →
        Assignable a ∧ a ≠ s.nib.networkAddress ∧
          (existing.map (·.networkAddress) = some a ∨ s.neighbors.findByShort a = none) :=
    ⟨hdrew, fun a ha => ⟨(hfound a ha).1, (hfound a ha).2.1, .inr (hfound a ha).2.2⟩⟩
  cases existing with
  | none => exact hsearch
  | some e =>
    unfold addressFor
    dsimp only
    split
    · rename_i hkeep
      refine ⟨.refl s, fun a ha => ?_⟩
      cases ha
      exact ⟨⟨hkeep.1, hkeep.2.1⟩, hkeep.2.2, .inl rfl⟩
    · exact hsearch

/-! ## Counting children -/

theorem countP_le_of_slots {p q : α → Bool} {l l' : List α}
    (h : ∀ (j : Nat) y, l'[j]? = some y → p y = true → ∃ x, l[j]? = some x ∧ q x = true) : l'.countP p ≤ l.countP q := by
  induction l' generalizing l with
  | nil => exact Nat.zero_le _
  | cons y ys ih =>
    cases l with
    | nil =>
      have hnone : (y :: ys).countP p = 0 := by
        refine List.countP_eq_zero.mpr fun z hz hp => ?_
        obtain ⟨j, hj⟩ := List.mem_iff_getElem?.mp hz
        obtain ⟨x, hx, -⟩ := h j z hj hp
        cases hx
      rw [hnone]
      exact Nat.zero_le _
    | cons x xs =>
      have htail : ys.countP p ≤ xs.countP q := ih fun j z hj hp => h (j + 1) z hj hp
      rw [List.countP_cons, List.countP_cons]
      by_cases hp : p y = true
      · obtain ⟨x', hx', hq⟩ := h 0 y rfl hp
        cases hx'
        rw [if_pos hp, if_pos hq]
        omega
      · rw [if_neg hp]
        omega

/-- Slot by slot, but for one slot. -/
theorem countP_le_of_other_slots {p q : α → Bool} {l l' : List α} {e : α} (hi : l'[i]? = some e)
    (h : ∀ (j : Nat) y, j ≠ i → l'[j]? = some y → p y = true → ∃ x, l[j]? = some x ∧ q x = true) :
    l'.countP p ≤ l.countP q + if p e then 1 else 0 := by
  obtain ⟨hlt, rfl⟩ := List.getElem?_eq_some_iff.mp hi
  have hbefore : (l'.take i).countP p ≤ (l.take i).countP q := countP_le_of_slots fun j y hj hp => by
    rw [List.getElem?_take] at hj ⊢
    split at hj
    · rename_i hji
      rw [if_pos hji]
      exact h j y (by omega) hj hp
    · cases hj
  have hafter : (l'.drop (i + 1)).countP p ≤ (l.drop (i + 1)).countP q := countP_le_of_slots fun j y hj hp => by
    rw [List.getElem?_drop] at hj ⊢
    exact h (i + 1 + j) y (by omega) hj hp
  have hsplit' : l'.countP p = (l'.take i).countP p + ((l'.drop (i + 1)).countP p + if p l'[i] then 1 else 0) := by
    conv_lhs => rw [← List.take_append_drop i l', List.countP_append, List.drop_eq_getElem_cons hlt, List.countP_cons]
  have hsplit : (l.take i).countP q + (l.drop (i + 1)).countP q ≤ l.countP q := by
    conv_rhs => rw [← List.take_append_drop i l, List.countP_append]
    have := (List.drop_sublist_drop_left l (Nat.le_add_right i 1)).countP_le (p := q)
    omega
  omega

/-- The children of each kind after an insertion: those that the new entry does not replace, and the new entry. -/
theorem countP_children_le {t' : NeighborTable true} {live : NeighborEntry} (h : Unambiguous t) (hp : Placed t t' live i)
    {keep : NeighborEntry → Bool}
    (hkeep : ∀ y ∈ t.entries, y.active = true → y.isNamed live.networkAddress live.ieeeAddress = false → keep y = true)
    (kind : NeighborEntry → Bool) : t'.children.countP kind ≤ (t.children.filter keep).countP kind + if kind live then 1 else 0 := by
  have hslots : t'.entries.countP (fun e => kind e && (e.active && e.isChild)) ≤
      t.entries.countP (fun e => (kind e && keep e) && (e.active && e.isChild)) +
        if kind live && (live.active && live.isChild) then 1 else 0 :=
    countP_le_of_other_slots hp.placed fun j y hji hj hy => by
      simp only [Bool.and_eq_true] at hy
      obtain ⟨hsame, hnamed⟩ := hp.others j y hji hj hy.2.1
      refine ⟨y, hsame, ?_⟩
      simp only [Bool.and_eq_true]
      exact ⟨⟨hy.1, hkeep y (List.mem_of_getElem? hsame) hy.2.1 hnamed⟩, hy.2⟩
  have hsearched : t.entries.countP (fun e => (kind e && keep e) && (e.active && e.isChild)) =
      t.searched.countP fun e => (kind e && keep e) && (e.active && e.isChild) := by
    have hdead : (t.entries.drop t.count).countP (fun e => (kind e && keep e) && (e.active && e.isChild)) = 0 :=
      List.countP_eq_zero.mpr fun e he => by
        simp [Table.drop_not_match (h.within fun e (he : e.active = true) => he) e he]
    conv_lhs => rw [← List.take_append_drop t.count t.entries, List.countP_append, hdead]
    rfl
  have hprefix : t'.searched.countP (fun e => kind e && (e.active && e.isChild)) ≤
      t'.entries.countP fun e => kind e && (e.active && e.isChild) := (List.take_sublist _ _).countP_le
  have hlive : (if kind live && (live.active && live.isChild) then 1 else 0) ≤ if kind live then 1 else 0 := by
    cases kind live <;> simp
    split <;> omega
  unfold NeighborTable.children
  rw [List.countP_filter, List.countP_filter, List.countP_filter, ← hsearched]
  omega

/-! ## Tables beside the neighbour table -/

theorem pendingFor_removeAll {q : IndirectQueue} {a d : ShortAddress} (hne : a ≠ d) :
    (q.removeAll a).pendingFor d = q.pendingFor d := by
  unfold IndirectQueue.removeAll IndirectQueue.deactivateWhere IndirectQueue.pendingFor
  dsimp only
  induction q.entries with
  | nil => rfl
  | cons e q ih =>
    rw [List.map_cons, List.filter_cons, List.filter_cons, ih]
    by_cases hmatch : (e.active && e.dstAddr == a) = true
    · have hdst : e.dstAddr = a := by
        rw [Bool.and_eq_true, beq_iff_eq] at hmatch
        exact hmatch.2
      rw [if_pos hmatch]
      simp [hdst, hne]
    · rw [if_neg hmatch]

theorem filter_modifyFirst {p q : α → Bool} {f : α → α} (hq : ∀ x, p x = true → q x = false ∧ q (f x) = false) (l : List α) :
    (Table.modifyFirst p f l).filter q = l.filter q := by
  induction l with
  | nil => rfl
  | cons x l ih =>
    rw [Table.modifyFirst_cons]
    by_cases hp : p x = true
    · rw [if_pos hp, List.filter_cons_of_neg (by simp [hq x hp]), List.filter_cons_of_neg (by simp [hq x hp])]
    · rw [if_neg hp, List.filter_cons, List.filter_cons, ih]

theorem routes_remove {t : RoutingTable} {a d : ShortAddress} (hne : a ≠ d) :
    (t.remove a).routes.filter (·.isFor d) = t.routes.filter (·.isFor d) := by
  refine filter_modifyFirst (fun r hr => ?_) t.routes
  have hdestination : r.destination = a := by
    simp only [RouteEntry.isFor, Bool.and_eq_true, beq_iff_eq] at hr
    exact hr.2
  simp [RouteEntry.isFor, RouteEntry.retire, hdestination, hne]

theorem floors_clear {s : NwkSecurity} {a source : IeeeAddress} (hne : a ≠ source) :
    (s.clearFrameCountersForSource source).frameCounterTable.filter (·.source == a) =
      s.frameCounterTable.filter (·.source == a) := by
  change (s.frameCounterTable.filter (·.source != source)).filter (·.source == a) = _
  rw [List.filter_filter]
  refine List.filter_congr fun e _ => ?_
  by_cases ha : e.source = a <;> simp [ha, hne]

/-! ## One request -/

theorem addOrUpdate_present (hadded : (t.addOrUpdate entry).2 = true) :
    { entry with active := true } ∈ (t.addOrUpdate entry).1.entries := by
  unfold NeighborTable.addOrUpdate at hadded ⊢
  dsimp only at hadded ⊢
  split at hadded
  · rename_i i hi
    obtain ⟨hlt, -⟩ := List.findIdx?_eq_some_iff_getElem.mp hi
    refine List.mem_set ?_ _
    rw [(t.dropLater i _).size_eq, ← t.size_eq]
    exact Nat.lt_of_lt_of_le hlt (List.length_take_le' _ _)
  · split at hadded
    · rename_i i hi
      obtain ⟨hlt, -⟩ := List.findIdx?_eq_some_iff_getElem.mp hi
      exact List.mem_set hlt _
    · split at hadded
      · rename_i i hi
        obtain ⟨e, he, -⟩ := victim_spec hi
        exact List.mem_set (List.getElem?_eq_some_iff.mp he).1 _
      · cases hadded

theorem addOrUpdate_refused (hrefused : (t.addOrUpdate entry).2 = false) : (t.addOrUpdate entry).1 = t := by
  unfold NeighborTable.addOrUpdate at hrefused ⊢
  dsimp only at hrefused ⊢
  split at hrefused
  · cases hrefused
  · split at hrefused
    · cases hrefused
    · split at hrefused
      · cases hrefused
      · rfl

theorem addOrUpdate_placed (h : Unambiguous t) (hentry : entry.active = true) (hadded : (t.addOrUpdate entry).2 = true) :
    ∃ i, Placed t (t.addOrUpdate entry).1 entry i := by
  have hlive : { entry with active := true } = entry := by rw [← hentry]
  rcases addOrUpdate_spec h entry with ⟨heq, hnew⟩ | hplaced
  · have hmem := addOrUpdate_present hadded
    rw [heq, hlive] at hmem
    have hnamed : entry.isNamed entry.networkAddress entry.ieeeAddress = true := isNamed_iff.mpr ⟨hentry, .inl rfl⟩
    rw [hnew entry hmem] at hnamed
    cases hnamed
  · rw [hlive] at hplaced
    exact hplaced

/-- What `handle_child_association` knows when it inserts the child. -/
structure Prepared (s : NwkLayer) (r : Request) (existing : Option NeighborEntry) (assigned : ShortAddress) : Prop where
  unambiguous : Unambiguous s.neighbors
  found : s.neighbors.findByIeee r.childIeee = existing
  assignable : Assignable assigned
  notOurs : assigned ≠ s.nib.networkAddress
  free : existing.map (·.networkAddress) = some assigned ∨ s.neighbors.findByShort assigned = none
  capacity : if (CapabilityInfo.fromByte r.capabilityInfo).deviceTypeFfd then (s.capacityFor existing).router = true
    else (s.capacityFor existing).endDevice = true

namespace Prepared

variable {s : NwkLayer} {r : Request} {existing : Option NeighborEntry} {assigned : ShortAddress}

/-- Only the device itself may have the address already. -/
theorem owner (h : Prepared s r existing assigned) {e : NeighborEntry} (he : e ∈ s.neighbors.entries)
    (hactive : e.active = true) (hshort : e.networkAddress = assigned) : e.ieeeAddress = r.childIeee := by
  rcases h.free with hown | hnone
  · obtain ⟨x, rfl, hx⟩ := Option.map_eq_some_iff.mp hown
    obtain ⟨hmem, hxactive, hieee⟩ := NeighborTable.findByIeee_some h.found
    rw [h.unambiguous.short.eq_of_key he hmem hactive hxactive (hshort.trans hx.symm)]
    exact hieee
  · rw [h.unambiguous.findByShort_eq, List.find?_eq_none] at hnone
    exact absurd (hnone e he) (by simp [hactive, hshort])

/-- The children that the capacity was computed beside are those that stay. -/
theorem capacity_beside (h : Prepared s r existing assigned) :
    ∃ keep : NeighborEntry → Bool,
      (∀ y ∈ s.neighbors.entries, y.active = true → y.isNamed assigned r.childIeee = false → keep y = true) ∧
        if (CapabilityInfo.fromByte r.capabilityInfo).deviceTypeFfd then
          (s.capacityBeside (s.neighbors.children.filter keep)).router = true
        else (s.capacityBeside (s.neighbors.children.filter keep)).endDevice = true := by
  have hcapacity := h.capacity
  cases existing with
  | none =>
    refine ⟨fun _ => true, fun _ _ _ _ => rfl, ?_⟩
    rw [List.filter_true]
    have heq : s.capacityFor none =
        if (!s.canRoute || !s.neighbors.hasChildSlot) = true then ⟨false, false⟩ else s.capacityBeside s.neighbors.children := rfl
    rw [heq] at hcapacity
    by_cases hfull : (!s.canRoute || !s.neighbors.hasChildSlot) = true
    · rw [if_pos hfull] at hcapacity
      split at hcapacity <;> cases hcapacity
    · rw [if_neg hfull] at hcapacity
      exact hcapacity
  | some x =>
    obtain ⟨hmem, hxactive, hieee⟩ := NeighborTable.findByIeee_some h.found
    refine ⟨(·.networkAddress != x.networkAddress), fun y hy hactive hnamed => ?_, hcapacity⟩
    rw [bne_iff_ne]
    intro hshort
    have hsame := h.unambiguous.short.eq_of_key hy hmem hactive hxactive hshort
    exact ((isNamed_false_iff hactive).mp hnamed).2 (hsame ▸ hieee)

end Prepared

theorem capacityBeside_router {others : List NeighborEntry} (h : (s.capacityBeside others).router = true) :
    routers others + endDevices others < s.nib.maxChildren.toNat ∧ s.nib.depth < s.nib.maxDepth ∧
      routers others < s.nib.maxRouters.toNat := by
  simpa [capacityBeside, and_assoc] using h

theorem capacityBeside_endDevice {others : List NeighborEntry} (h : (s.capacityBeside others).endDevice = true) :
    routers others + endDevices others < s.nib.maxChildren.toNat := by
  simpa [capacityBeside] using h

theorem limits_kept {existing : Option NeighborEntry} {assigned : ShortAddress} (h : Prepared s r existing assigned)
    {t' : NeighborTable true}
    (hp : Placed s.neighbors t' (newChild r.childIeee assigned (CapabilityInfo.fromByte r.capabilityInfo).deviceTypeFfd) i) :
    routers t'.children + endDevices t'.children ≤ s.nib.maxChildren.toNat ∧
      if (CapabilityInfo.fromByte r.capabilityInfo).deviceTypeFfd then
        routers t'.children ≤ s.nib.maxRouters.toNat ∧ s.nib.depth < s.nib.maxDepth
      else routers t'.children ≤ routers s.neighbors.children := by
  obtain ⟨keep, hkeep, hroom⟩ := h.capacity_beside
  have hrouters := countP_children_le h.unambiguous hp hkeep (·.deviceType == .router)
  have hendDevices := countP_children_le h.unambiguous hp hkeep (·.deviceType == .endDevice)
  have hfewer : routers (s.neighbors.children.filter keep) ≤ routers s.neighbors.children :=
    List.filter_sublist.countP_le
  change routers t'.children ≤ routers (s.neighbors.children.filter keep) + _ at hrouters
  change endDevices t'.children ≤ endDevices (s.neighbors.children.filter keep) + _ at hendDevices
  cases hffd : (CapabilityInfo.fromByte r.capabilityInfo).deviceTypeFfd with
  | true =>
    rw [hffd] at hroom hrouters hendDevices
    obtain ⟨htotal, hdepth, hless⟩ := capacityBeside_router hroom
    simp [newChild, NeighborEntry.admitted] at hrouters hendDevices
    rw [if_pos rfl]
    exact ⟨by omega, by omega, hdepth⟩
  | false =>
    rw [hffd] at hroom hrouters hendDevices
    have htotal := capacityBeside_endDevice hroom
    simp [newChild, NeighborEntry.admitted] at hrouters hendDevices
    rw [if_neg (by decide)]
    exact ⟨by omega, by omega⟩

theorem forget_spec (s : NwkLayer) (existing : Option NeighborEntry) :
    ∃ indirect routing, s.forget existing = { s with indirect, routing } ∧
      ∀ d, (∀ x, existing = some x → x.networkAddress ≠ d) →
        indirect.pendingFor d = s.indirect.pendingFor d ∧ routing.routes.filter (·.isFor d) = s.routesTo d := by
  cases existing with
  | none => exact ⟨s.indirect, s.routing, rfl, fun _ _ => ⟨rfl, rfl⟩⟩
  | some x =>
    exact ⟨s.indirect.removeAll x.networkAddress, s.routing.remove x.networkAddress, rfl, fun d hd =>
      ⟨pendingFor_removeAll (hd x rfl), routes_remove (hd x rfl)⟩⟩

theorem admitChild_contained {existing : Option NeighborEntry} {assigned : ShortAddress} (h : Prepared s r existing assigned) :
    Contained s r (s.admitChild r existing assigned).1 (s.admitChild r existing assigned).2 ∧
      Unambiguous (s.admitChild r existing assigned).1.neighbors := by
  have hunambiguous := addOrUpdate_unambiguous h.unambiguous
    (newChild r.childIeee assigned (CapabilityInfo.fromByte r.capabilityInfo).deviceTypeFfd)
  cases hadded : (s.neighbors.addOrUpdate
      (newChild r.childIeee assigned (CapabilityInfo.fromByte r.capabilityInfo).deviceTypeFfd)).2 with
  | false =>
    have heq : s.admitChild r existing assigned = (s, .error .neighborTableFull) := by
      unfold admitChild
      dsimp only
      rw [hadded, addOrUpdate_refused hadded]
      rfl
    rw [heq]
    exact ⟨⟨fun _ => .refl s, ⟨rfl, rfl, rfl, rfl⟩, rfl, fun _ _ => rfl, fun e he _ _ => ⟨rfl, rfl, fun _ => he⟩, nofun, nofun,
      nofun⟩, h.unambiguous⟩
  | true =>
    obtain ⟨i, hp⟩ := addOrUpdate_placed h.unambiguous rfl hadded
    generalize hchild : newChild r.childIeee assigned (CapabilityInfo.fromByte r.capabilityInfo).deviceTypeFfd = child at *
    generalize hinsert : (s.neighbors.addOrUpdate child).1 = neighbors at *
    have heq : s.admitChild r existing assigned =
        (({ s with neighbors, security := s.security.clearFrameCountersForSource r.childIeee } : NwkLayer).forget existing,
          .ok assigned) := by
      unfold admitChild
      dsimp only
      rw [hchild, hadded, hinsert]
      rfl
    have hieee : child.ieeeAddress = r.childIeee := hchild ▸ rfl
    have hshort : child.networkAddress = assigned := hchild ▸ rfl
    have hlimits := limits_kept h (hchild ▸ hp)
    obtain ⟨indirect, routing, hforget, hothers⟩ := forget_spec
      ({ s with neighbors, security := s.security.clearFrameCountersForSource r.childIeee } : NwkLayer) existing
    rw [heq, hforget]
    refine ⟨⟨fun hno => absurd rfl (hno assigned), ⟨rfl, rfl, rfl, rfl⟩, rfl, fun a ha => floors_clear ha,
      fun e he hactive hother => ?_, fun address haddress => ?_, fun address haddress => ?_, fun address _ => hlimits⟩, hunambiguous⟩
    · have hne : ∀ x, existing = some x → x.networkAddress ≠ e.networkAddress := fun x hx hsame => by
        obtain ⟨hmem, hxactive, hxieee⟩ := NeighborTable.findByIeee_some (h.found.trans hx)
        exact hother (h.unambiguous.short.eq_of_key hmem he hxactive hactive hsame ▸ hxieee)
      obtain ⟨hpending, hroutes⟩ := hothers e.networkAddress hne
      refine ⟨hpending, hroutes, fun hkept => ?_⟩
      obtain ⟨j, hj⟩ := List.mem_iff_getElem?.mp he
      have hnamed : e.isNamed child.networkAddress child.ieeeAddress = false :=
        (isNamed_false_iff hactive).mpr ⟨fun hs => hother (h.owner he hactive (hs.trans hshort)), hieee ▸ hother⟩
      exact List.mem_of_getElem? (hp.kept j e hj hactive hnamed hkept)
    · cases haddress
      exact ⟨child, List.mem_of_getElem? hp.placed, hchild ▸ rfl, hieee, hshort, hchild ▸ rfl⟩
    · cases haddress
      refine ⟨h.assignable.1, h.assignable.2, h.notOurs, fun e he hactive hsame => ?_⟩
      rcases he with he | he
      · exact h.owner he hactive hsame
      · obtain ⟨j, hj⟩ := List.mem_iff_getElem?.mp he
        by_cases hji : j = i
        · rw [hji, hp.placed] at hj
          cases hj
          exact hieee
        · have hnamed := (isNamed_false_iff hactive).mp (hp.others j e hji hj hactive).2
          exact absurd (hsame.trans hshort.symm) hnamed.1

/-- A request that is turned down before anything is written. -/
theorem Contained.unchanged (s : NwkLayer) (r : Request) (status : NwkStatus) : Contained s r s (.error status) where
  refused := fun _ => .refl s
  settings := ⟨rfl, rfl, rfl, rfl⟩
  keys := rfl
  floors := fun _ _ => rfl
  others := fun _ he _ _ => ⟨rfl, rfl, fun _ => he⟩
  provisional := nofun
  address := nofun
  limits := nofun

theorem Contained.of_drew {s₁ s' : NwkLayer} {answer : Except NwkStatus ShortAddress} (hdrew : OnlyDrew s s₁)
    (h : Contained s₁ r s' answer) : Contained s r s' answer := by
  have hrefused := fun hno => hdrew.trans (h.refused hno)
  obtain ⟨offset, rfl⟩ := hdrew
  exact ⟨hrefused, h.settings, h.keys, h.floors, h.others, h.provisional, h.address, h.limits⟩

theorem handleChildAssociation_contained (h : Unambiguous s.neighbors) (r : Request) :
    Contained s r (s.handleChildAssociation r).1 (s.handleChildAssociation r).2 ∧
      Unambiguous (s.handleChildAssociation r).1.neighbors := by
  have hrefused (status : NwkStatus) : Contained s r s (.error status) ∧ Unambiguous s.neighbors :=
    ⟨.unchanged s r status, h⟩
  unfold handleChildAssociation
  dsimp only
  split
  · exact hrefused .invalidRequest
  split
  · exact hrefused .invalidRequest
  split
  · exact hrefused .notPermitted
  split
  · exact hrefused .notPermitted
  split
  · exact hrefused .notPermitted
  split
  · exact hrefused .neighborTableFull
  rename_i hroom
  obtain ⟨hdrew, hassigned⟩ := addressFor_spec s r (s.neighbors.findByIeee r.childIeee)
  split
  · rename_i s₁ assigned hfor
    rw [hfor] at hdrew hassigned
    obtain ⟨hassignable, hnotOurs, hfree⟩ := hassigned assigned rfl
    have hprepared : Prepared s₁ r (s.neighbors.findByIeee r.childIeee) assigned := by
      obtain ⟨offset, rfl⟩ := hdrew
      refine ⟨h, rfl, hassignable, hnotOurs, hfree, ?_⟩
      change if (CapabilityInfo.fromByte r.capabilityInfo).deviceTypeFfd then
          (s.capacityFor (s.neighbors.findByIeee r.childIeee)).router = true
        else (s.capacityFor (s.neighbors.findByIeee r.childIeee)).endDevice = true
      revert hroom
      cases (CapabilityInfo.fromByte r.capabilityInfo).deviceTypeFfd <;> simp
    obtain ⟨hcontained, hunambiguous⟩ := admitChild_contained hprepared
    exact ⟨hcontained.of_drew hdrew, hunambiguous⟩
  · rename_i s₁ hfor
    rw [hfor] at hdrew
    refine ⟨.of_drew hdrew (.unchanged s₁ r .neighborTableFull), ?_⟩
    obtain ⟨offset, rfl⟩ := hdrew
    exact h

/-! ## Runs -/

/-- No request in the name of the device is accepted. -/
def Spares (a : IeeeAddress) (s : NwkLayer) (r : Request) : Prop :=
  r.childIeee = a → ∀ address, (s.handleChildAssociation r).2 ≠ .ok address

/-- What the parent holds for an authenticated child that it would not evict. -/
structure Holds (s : NwkLayer) (e : NeighborEntry) (floors : List FrameCounterEntry) (frames : List IndirectEntry)
    (routes : List RouteEntry) : Prop where
  entry : e ∈ s.neighbors.entries
  active : e.active = true
  authenticated : e.relationship = .child
  kept : e.isEvictable true = false
  floors : s.floorsOf e.ieeeAddress = floors
  frames : s.indirect.pendingFor e.networkAddress = frames
  routes : s.routesTo e.networkAddress = routes

theorem Holds.step (h : Unambiguous s.neighbors) {e : NeighborEntry} {floors : List FrameCounterEntry}
    {frames : List IndirectEntry} {routes : List RouteEntry} (hold : Holds s e floors frames routes) (r : Request)
    (hspares : Spares e.ieeeAddress s r) : Holds (Association.step s r) e floors frames routes := by
  obtain ⟨hcontained, -⟩ := handleChildAssociation_contained h r
  by_cases hnamed : r.childIeee = e.ieeeAddress
  · obtain ⟨offset, heq⟩ := hcontained.refused (hspares hnamed)
    rw [Association.step, heq]
    exact ⟨hold.entry, hold.active, hold.authenticated, hold.kept, hold.floors, hold.frames, hold.routes⟩
  · obtain ⟨hframes, hroutes, hentry⟩ := hcontained.others e hold.entry hold.active fun heq => hnamed heq.symm
    exact ⟨hentry hold.kept, hold.active, hold.authenticated, hold.kept,
      (hcontained.floors e.ieeeAddress fun heq => hnamed heq.symm).trans hold.floors, hframes.trans hold.frames,
      hroutes.trans hold.routes⟩

/-- **Association requests are contained.**  Every request of a run changes what is known of the device that it
    names, if it is accepted, and of no other device; an authenticated child in whose name no request is accepted
    keeps its entry, its floors, its queued frames and its route. -/
theorem association_contained (s : NwkLayer) (h : Unambiguous s.neighbors) (requests : List Request) :
    Run.Along step (fun s r => Contained s r (step s r) (s.handleChildAssociation r).2) s requests ∧
      ∀ e floors frames routes, Holds s e floors frames routes → Run.Along step (Spares e.ieeeAddress) s requests →
        Holds (Run.run step s requests) e floors frames routes := by
  refine ⟨Run.along_of_invariant (I := fun s => Unambiguous s.neighbors)
    (fun s r hs => (handleChildAssociation_contained hs r).2) (fun s r hs => (handleChildAssociation_contained hs r).1) h
    requests, fun e floors frames routes hold hspares => ?_⟩
  exact (Run.run_induct (I := fun s => Unambiguous s.neighbors ∧ Holds s e floors frames routes)
    (fun s r hs hp => ⟨(handleChildAssociation_contained hs.1 r).2, hs.2.step hs.1 r hp⟩) ⟨h, hold⟩ hspares).2

/-! ## A child that starts over -/

/-- A sleeping child. -/
def sleepyChild : NeighborEntry :=
  { newChild (Vector.replicate 8 1) 5 false with relationship := .child }

/-- A router with one authenticated child, for which it has a floor, a frame and a route. -/
def trustedParent : NwkLayer :=
  { NwkLayer.new true .router with
    joined := true
    nib := { Nib.new with networkAddress := 0x1234, parentAddress := 0, depth := 1, permitJoining := true }
    neighbors := ((NeighborTable.new true).addOrUpdate sleepyChild).1
    routing := ((RoutingTable.new true).updateRoute 5 5 1).1
    security := { NwkSecurity.new with
      keys0 := some ⟨Vector.replicate 16 7, 0, true⟩
      frameCounterTable := [⟨Vector.replicate 8 1, 0, 100, 0⟩] }
    indirect := ((IndirectQueue.new (MAX_INDIRECT true)).enqueueTaggedWithSlot 5 [0xAA] .data).1 }

/-- A request for an end device, in the name of `ieee`. -/
def joinAs (ieee : IeeeAddress) : Request := ⟨ieee, 0x80, fun _ _ => 0⟩

/-- Every authenticated child keeps its floors, its relationship, its queued frames and its route. -/
def KeepsChildren (s s' : NwkLayer) : Prop :=
  ∀ e ∈ s.neighbors.entries, e.active = true → e.relationship = .child →
    s'.floorsOf e.ieeeAddress = s.floorsOf e.ieeeAddress ∧ e ∈ s'.neighbors.entries ∧
      s'.indirect.pendingFor e.networkAddress = s.indirect.pendingFor e.networkAddress ∧
      s'.routesTo e.networkAddress = s.routesTo e.networkAddress

theorem trustedParent_unambiguous : Unambiguous trustedParent.neighbors :=
  addOrUpdate_unambiguous (unambiguous_new true) sleepyChild

/-- A request in the name of another device leaves the child as it is. -/
theorem stranger_spares_child :
    Holds (Run.run step trustedParent [joinAs (Vector.replicate 8 2)]) sleepyChild
      [⟨Vector.replicate 8 1, 0, 100, 0⟩] (trustedParent.indirect.pendingFor 5) (trustedParent.routesTo 5) := by
  refine (association_contained trustedParent trustedParent_unambiguous [joinAs (Vector.replicate 8 2)]).2 _ _ _ _ ?_
    ⟨fun heq => absurd heq (by decide), trivial⟩
  exact ⟨by decide +kernel, rfl, rfl, by decide, by decide +kernel, by decide +kernel, rfl⟩

/-- A request in the child's own name takes all of it. -/
theorem claimed_child_starts_over :
    (step trustedParent (joinAs (Vector.replicate 8 1))).floorsOf (Vector.replicate 8 1) = [] ∧
      sleepyChild ∉ (step trustedParent (joinAs (Vector.replicate 8 1))).neighbors.entries ∧
      (step trustedParent (joinAs (Vector.replicate 8 1))).indirect.pendingFor 5 = [] ∧
      (step trustedParent (joinAs (Vector.replicate 8 1))).routesTo 5 = [] ∧
      ¬ ∀ (s : NwkLayer) (r : Request), Unambiguous s.neighbors → s.nib.permitJoining = true → KeepsChildren s (step s r) := by
  have hfloors : (step trustedParent (joinAs (Vector.replicate 8 1))).floorsOf (Vector.replicate 8 1) = [] := by decide +kernel
  refine ⟨hfloors, by decide +kernel, by decide +kernel, by decide +kernel, fun h => ?_⟩
  have hkept := (h trustedParent (joinAs (Vector.replicate 8 1)) trustedParent_unambiguous rfl sleepyChild
    (by decide +kernel) rfl rfl).1
  rw [show sleepyChild.ieeeAddress = Vector.replicate 8 1 from rfl, hfloors] at hkept
  revert hkept
  decide +kernel

end Identity.Association

end Zigbee.Nwk
