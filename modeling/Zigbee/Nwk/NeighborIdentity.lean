import Zigbee.Nwk.Layer

/-!
# The identity of neighbours

Model of the operations of `NwkLayer` (`zigbee-nwk/src/lib.rs`) that insert, re-address, reassign and remove
neighbours, and the runs of these and of the table's own operations.

Two identifiers name a neighbour, and each of them is searched among the first `count` slots.  An
insertion merges what it finds under either identifier; the operations that move an entry to another
short address write the one identifier and look at no other entry.
-/

namespace Zigbee.Nwk

open NeighborEntry

variable {router : Bool}

namespace NwkLayer

/-- One-hop neighbours first, then the map. -/
def findShortByIeee (s : NwkLayer router) (ieee : IeeeAddress) : Option ShortAddress :=
  ((s.neighbors.findByIeee ieee).map (·.networkAddress)).or (s.addressMap.shortOf ieee)

def forgetRoutesFor (s : NwkLayer router) (address : ShortAddress) : NwkLayer router :=
  { s with routing := s.routing.removeThrough address, sourceRouteTable := s.sourceRouteTable.remove address }

def removeNeighbor (s : NwkLayer router) (address : ShortAddress) : NwkLayer router :=
  let s := { s with neighbors := s.neighbors.remove address, addressMap := s.addressMap.remove address }
  if router then s.forgetRoutesFor address else s

/-- The first entry that either identifier names takes both; otherwise one is added. -/
def updateNeighborAddress (s : NwkLayer router) (nwkAddr : ShortAddress) (ieeeAddr : IeeeAddress) : NwkLayer router :=
  let p := isNamed nwkAddr ieeeAddr
  if s.neighbors.entries.any p then
    { s with neighbors := s.neighbors.modifyAny p fun e => { e with networkAddress := nwkAddr, ieeeAddress := ieeeAddr } }
  else { s with neighbors := (s.neighbors.addOrUpdate (.newFromAnnce nwkAddr ieeeAddr)).1 }

/-- A device that is seen under a new address no longer owns its previous one, and a router child has left;
    a parent and any other child keep theirs. -/
def releasePrevious (s : NwkLayer router) (nwkAddr : ShortAddress) (ieeeAddr : IeeeAddress) : NwkLayer router :=
  match s.findShortByIeee ieeeAddr with
  | none => s
  | some previous =>
    let relation := s.neighbors.findByIeee ieeeAddr
    let leaves := relation.any fun e => e.relationship == Relationship.child && e.isRouter
    if previous == nwkAddr || relation.any (·.isRelative) && !leaves then s
    else
      { s with
        neighbors := if leaves then s.neighbors.remove previous else s.neighbors
        routing := s.routing.removeThrough previous }

/-- Neighbours that are neither parent nor child follow a device to its new address. -/
def updateAddressMap (s : NwkLayer router) (nwkAddr : ShortAddress) (ieeeAddr : IeeeAddress) : NwkLayer router :=
  if router then
    let s := s.releasePrevious nwkAddr ieeeAddr
    { s with
      neighbors := s.neighbors.modifyByIeee ieeeAddr fun e => if e.isRelative then e else { e with networkAddress := nwkAddr }
      addressMap := s.addressMap.update router nwkAddr ieeeAddr }
  else
    match s.neighbors.parent with
    | some parent =>
      if parent.networkAddress == nwkAddr || parent.ieeeAddress == ieeeAddr then s
      else s.updateNeighborAddress nwkAddr ieeeAddr
    | none => s.updateNeighborAddress nwkAddr ieeeAddr

/-- Commit a parent-selected replacement address; the flag says whether it was one of our children. -/
def reassignChildAddress (s : NwkLayer router) (oldAddress newAddress : ShortAddress) (ieeeAddress : IeeeAddress) :
    NwkLayer router × Bool :=
  match s.neighbors.findByShort oldAddress with
  | none => (s, false)
  | some e =>
    if e.ieeeAddress != ieeeAddress || !e.isChild then (s, false)
    else
      ({ s with
          neighbors := s.neighbors.modifyByShort oldAddress fun e => { e with networkAddress := newAddress }
          routing := s.routing.remove oldAddress
          addressMap := s.addressMap.update router newAddress ieeeAddress }, true)

end NwkLayer

variable {nwkAddr : ShortAddress} {ieeeAddr : IeeeAddress} {e y : NeighborEntry} {p : NeighborEntry → Bool} {t : NeighborTable router}
   {i : Nat}

namespace Identity

open Table (modifyFirst UniqueLive)

/-! ## Runs -/

inductive Event where
  | addOrUpdate (entry : NeighborEntry)
  | updateAddressMap (nwkAddr : ShortAddress) (ieeeAddr : IeeeAddress)
  | updateNeighborAddress (nwkAddr : ShortAddress) (ieeeAddr : IeeeAddress)
  | reassignChildAddress (oldAddress newAddress : ShortAddress) (ieeeAddress : IeeeAddress)
  | removeNeighbor (address : ShortAddress)
  | remove (address : ShortAddress)
  | ageTick
  | ageRouterLinkStatus
  | expireUnauthenticated (maxAge : UInt16)
  /-- Frames and commands that tell more about a neighbour than its addresses. -/
  | describe (address : ShortAddress) (told : NeighborEntry)

def step (l : NwkLayer router) : Event → NwkLayer router
  | .addOrUpdate entry => { l with neighbors := (l.neighbors.addOrUpdate entry).1 }
  | .updateAddressMap nwkAddr ieeeAddr => l.updateAddressMap nwkAddr ieeeAddr
  | .updateNeighborAddress nwkAddr ieeeAddr => l.updateNeighborAddress nwkAddr ieeeAddr
  | .reassignChildAddress oldAddress newAddress ieeeAddress => (l.reassignChildAddress oldAddress newAddress ieeeAddress).1
  | .removeNeighbor address => l.removeNeighbor address
  | .remove address => { l with neighbors := l.neighbors.remove address }
  | .ageTick => { l with neighbors := l.neighbors.ageTick }
  | .ageRouterLinkStatus => { l with neighbors := l.neighbors.ageRouterLinkStatus }
  | .expireUnauthenticated maxAge => { l with neighbors := l.neighbors.expireUnauthenticated maxAge }
  | .describe address told =>
    { l with
      neighbors := l.neighbors.modifyByShort address fun e =>
        { told with ieeeAddress := e.ieeeAddress, networkAddress := e.networkAddress, active := e.active } }

/-- The device that an insertion or a change of address is about. -/
def Event.device : Event → Option IeeeAddress
  | .addOrUpdate entry => some entry.ieeeAddress
  | .updateAddressMap _ ieeeAddr | .updateNeighborAddress _ ieeeAddr | .reassignChildAddress _ _ ieeeAddr => some ieeeAddr
  | _ => none

/-- **Each identifier names at most one neighbour, and a search finds it.** -/
structure Unambiguous (t : NeighborTable router) : Prop where
  short : UniqueLive (·.active) (·.networkAddress) t.entries
  ieee : UniqueLive (·.active) (·.ieeeAddress) t.entries
  searched : ∀ i e, t.entries[i]? = some e → e.active = true → i < t.count

/-- The searches under both identifiers of a neighbour find the same entry. -/
def LookupsAgree (t : NeighborTable router) : Prop :=
  ∀ e ∈ t.entries, e.active = true → t.findByShort e.networkAddress = some e ∧ t.findByIeee e.ieeeAddress = some e

/-- A parent or a live child of ours, gone or rewritten by an event about another device. -/
def Displaces (l : NwkLayer router) (event : Event) : Prop :=
  ∃ e ∈ l.neighbors.entries, e.active = true ∧ e.isEvictable router = false ∧
    (∃ d, event.device = some d ∧ d ≠ e.ieeeAddress) ∧ e ∉ (step l event).neighbors.entries

/-- What is wanted of a step. -/
def Sound (l : NwkLayer router) (event : Event) : Prop :=
  Unambiguous (step l event).neighbors ∧ LookupsAgree (step l event).neighbors ∧ ¬ Displaces l event

/-! ## When the identifiers stay unambiguous -/

/-- No other neighbour has the address. -/
def AddressFree (t : NeighborTable router) (nwkAddr : ShortAddress) (e : NeighborEntry) : Prop :=
  ∀ x ∈ t.entries, x.active = true → x.networkAddress = nwkAddr → x = e

/-- A parent or live child that has the address is the device itself. -/
def RelativeKept (t : NeighborTable router) (nwkAddr : ShortAddress) (ieeeAddr : IeeeAddress) : Prop :=
  ∀ e ∈ t.entries, e.active = true → e.isEvictable router = false → e.networkAddress = nwkAddr → e.ieeeAddress = ieeeAddr

/-- At most one neighbour is found under the two identifiers. -/
def NamesOne (t : NeighborTable router) (nwkAddr : ShortAddress) (ieeeAddr : IeeeAddress) : Prop :=
  ∀ x ∈ t.entries, ∀ y ∈ t.entries, x.isNamed nwkAddr ieeeAddr = true → y.isNamed nwkAddr ieeeAddr = true → x = y

/-- The conditions that the operations leave to their callers. -/
def Careful (l : NwkLayer router) : Event → Prop
  | .addOrUpdate entry => RelativeKept l.neighbors entry.networkAddress entry.ieeeAddress
  | .updateNeighborAddress nwkAddr ieeeAddr =>
    NamesOne l.neighbors nwkAddr ieeeAddr ∧ RelativeKept l.neighbors nwkAddr ieeeAddr
  | .updateAddressMap nwkAddr ieeeAddr =>
    if router then
      ∀ e ∈ l.neighbors.entries, e.active = true → e.ieeeAddress = ieeeAddr → e.isRelative = false →
        AddressFree l.neighbors nwkAddr e
    else
      (∃ p, l.neighbors.parent = some p ∧ (p.networkAddress = nwkAddr ∨ p.ieeeAddress = ieeeAddr)) ∨
        (NamesOne l.neighbors nwkAddr ieeeAddr ∧ RelativeKept l.neighbors nwkAddr ieeeAddr)
  | .reassignChildAddress oldAddress newAddress ieeeAddress =>
    ∀ e ∈ l.neighbors.entries, e.active = true → e.networkAddress = oldAddress → e.ieeeAddress = ieeeAddress →
      e.isChild = true → AddressFree l.neighbors newAddress e
  | _ => True

/-! ## Searches -/

theorem isNamed_iff : e.isNamed nwkAddr ieeeAddr = true ↔ e.active = true ∧ (e.networkAddress = nwkAddr ∨ e.ieeeAddress = ieeeAddr) := by
  simp [isNamed]

theorem isNamed_false_iff (he : e.active = true) :
    e.isNamed nwkAddr ieeeAddr = false ↔ e.networkAddress ≠ nwkAddr ∧ e.ieeeAddress ≠ ieeeAddr := by
  simp [isNamed, he]

namespace Unambiguous

variable {t t' : NeighborTable router}

theorem congr (h : Unambiguous t) (hentries : t'.entries = t.entries) (hcount : t'.count = t.count) :
    Unambiguous t' where
  short := by
    rw [hentries]
    exact h.short
  ieee := by
    rw [hentries]
    exact h.ieee
  searched := by
    rw [hentries, hcount]
    exact h.searched

theorem within (h : Unambiguous t) (hp : ∀ e, p e = true → e.active = true) : ∀ i e, t.entries[i]? = some e → p e = true → i < t.count :=
  fun i e hi he => h.searched i e hi (hp e he)

theorem findByShort_eq (h : Unambiguous t) (addr : ShortAddress) :
    t.findByShort addr = t.entries.find? fun e => e.active && e.networkAddress == addr :=
  Table.find?_take (h.within fun e he => by simp only [Bool.and_eq_true] at he; exact he.1)

theorem findByIeee_eq (h : Unambiguous t) (addr : IeeeAddress) :
    t.findByIeee addr = t.entries.find? fun e => e.active && e.ieeeAddress == addr :=
  Table.find?_take (h.within fun e he => by simp only [Bool.and_eq_true] at he; exact he.1)

theorem lookupsAgree (h : Unambiguous t) : LookupsAgree t := by
  intro e he hactive
  constructor
  · rw [h.findByShort_eq]
    exact h.short.find?_key he hactive
  · rw [h.findByIeee_eq]
    exact h.ieee.find?_key he hactive

theorem modifyByShort_eq (h : Unambiguous t) (addr : ShortAddress) (f : NeighborEntry → NeighborEntry) :
    (t.modifyByShort addr f).entries = modifyFirst (fun e => e.active && e.networkAddress == addr) f t.entries :=
  Table.modifyFirst_take (h.within fun e he => by simp only [Bool.and_eq_true] at he; exact he.1)

theorem modifyByIeee_eq (h : Unambiguous t) (addr : IeeeAddress) (f : NeighborEntry → NeighborEntry) :
    (t.modifyByIeee addr f).entries = modifyFirst (fun e => e.active && e.ieeeAddress == addr) f t.entries :=
  Table.modifyFirst_take (h.within fun e he => by simp only [Bool.and_eq_true] at he; exact he.1)

/-- One slot is written; the rest keeps its identifiers or dies. -/
theorem of_slot (h : Unambiguous t) (i : Nat) (hgrows : t.count ≤ t'.count)
    (hothers : ∀ j y, j ≠ i → t'.entries[j]? = some y → y.active = true → t.entries[j]? = some y)
    (hslot : ∀ x, t'.entries[i]? = some x → x.active = true →
      i < t'.count ∧ ∀ j y, j ≠ i → t'.entries[j]? = some y → y.active = true →
        y.networkAddress ≠ x.networkAddress ∧ y.ieeeAddress ≠ x.ieeeAddress) : Unambiguous t' where
  short := by
    intro j k x y hj hk hx hy hkey
    by_cases hji : j = i
    · subst hji
      by_contra hjk
      exact ((hslot x hj hx).2 k y (fun h => hjk h.symm) hk hy).1 hkey.symm
    · by_cases hki : k = i
      · subst hki
        exact absurd hkey ((hslot y hk hy).2 j x hji hj hx).1
      · exact h.short j k x y (hothers j x hji hj hx) (hothers k y hki hk hy) hx hy hkey
  ieee := by
    intro j k x y hj hk hx hy hkey
    by_cases hji : j = i
    · subst hji
      by_contra hjk
      exact ((hslot x hj hx).2 k y (fun h => hjk h.symm) hk hy).2 hkey.symm
    · by_cases hki : k = i
      · subst hki
        exact absurd hkey ((hslot y hk hy).2 j x hji hj hx).2
      · exact h.ieee j k x y (hothers j x hji hj hx) (hothers k y hki hk hy) hx hy hkey
  searched := by
    intro j y hj hy
    by_cases hji : j = i
    · subst hji
      exact (hslot y hj hy).1
    · have := h.searched j y (hothers j y hji hj hy) hy
      omega

theorem mapSlots (h : Unambiguous t) {f : Nat → NeighborEntry → NeighborEntry}
    (hf : ∀ i e, (f i e).active = true →
      e.active = true ∧ (f i e).networkAddress = e.networkAddress ∧ (f i e).ieeeAddress = e.ieeeAddress) :
    Unambiguous (t.mapSlots f) where
  short := h.short.mapIdx fun i e he => ⟨(hf i e he).1, (hf i e he).2.1⟩
  ieee := h.ieee.mapIdx fun i e he => ⟨(hf i e he).1, (hf i e he).2.2⟩
  searched := by
    intro i e hi he
    have hi' : (t.entries.mapIdx f)[i]? = some e := hi
    rw [List.getElem?_mapIdx] at hi'
    obtain ⟨x, hx, rfl⟩ := Option.map_eq_some_iff.mp hi'
    exact h.searched i x hx (hf i x he).1

theorem mapActive (h : Unambiguous t) {f : NeighborEntry → NeighborEntry}
    (hf : ∀ e, e.active = true → (f e).networkAddress = e.networkAddress ∧ (f e).ieeeAddress = e.ieeeAddress) :
    Unambiguous (t.mapActive f) := by
  refine h.mapSlots fun i e he => ?_
  split at he
  · rename_i hactive
    rw [if_pos hactive]
    exact ⟨hactive, hf e hactive⟩
  · rename_i hactive
    exact absurd he hactive

/-- A change of one entry that keeps its identifiers or takes it out. -/
theorem modifyFirst (h : Unambiguous t) {p : NeighborEntry → Bool} {f : NeighborEntry → NeighborEntry}
    (hentries : t'.entries = modifyFirst p f t.entries) (hcount : t'.count = t.count)
    (hkeys : ∀ e, (f e).networkAddress = e.networkAddress ∧ (f e).ieeeAddress = e.ieeeAddress)
    (hlive : ∀ e, p e = true → (f e).active = true → e.active = true) : Unambiguous t' where
  short := by
    rw [hentries]
    exact h.short.modifyFirst (fun e => (hkeys e).1) hlive
  ieee := by
    rw [hentries]
    exact h.ieee.modifyFirst (fun e => (hkeys e).2) hlive
  searched := by
    intro i e hi he
    rw [hentries] at hi
    rw [hcount]
    rcases Table.modifyFirst_cases p f t.entries with ⟨j, x, hj, -, hp, heq⟩ | ⟨-, heq⟩
    · rw [heq, List.getElem?_set] at hi
      split at hi
      · rename_i hij
        subst hij
        split at hi
        · cases hi
          exact h.searched j x hj (hlive x hp he)
        · cases hi
      · exact h.searched i e hi he
    · rw [heq] at hi
      exact h.searched i e hi he

end Unambiguous

/-! ## Insertion -/

/-- The entry has taken one slot, and no other slot still has one of its identifiers. -/
structure Placed (t t' : NeighborTable router) (live : NeighborEntry) (i : Nat) : Prop where
  placed : t'.entries[i]? = some live
  bound : i < t'.count
  grows : t.count ≤ t'.count
  others : ∀ (j : Nat) (y : NeighborEntry), j ≠ i → t'.entries[j]? = some y → y.active = true →
    t.entries[j]? = some y ∧ y.isNamed live.networkAddress live.ieeeAddress = false
  kept : ∀ (j : Nat) (y : NeighborEntry), t.entries[j]? = some y → y.active = true → y.isNamed live.networkAddress live.ieeeAddress = false →
    y.isEvictable router = false → t'.entries[j]? = some y

theorem victim_spec (h : t.victim = some i) : ∃ e, t.entries[i]? = some e ∧ e.active = true ∧ e.isEvictable router = true := by
  unfold NeighborTable.victim at h
  obtain ⟨⟨e, j⟩, hmax, rfl⟩ := Option.map_eq_some_iff.mp h
  have hmem := maxByKey_mem hmax
  rw [List.mem_filter] at hmem
  obtain ⟨hzip, hp⟩ := hmem
  simp only [Bool.and_eq_true] at hp
  exact ⟨e, List.mem_zipIdx_iff_getElem?.mp hzip, hp.1, hp.2⟩

/-- A slot that is set where no entry has one of the new identifiers. -/
theorem placed_set {t' : NeighborTable router} {live : NeighborEntry} (hi : t.entries[i]? = some e)
    (hlost : e.active = true → e.isEvictable router = true)
    (hnew : ∀ y ∈ t.entries, y.isNamed live.networkAddress live.ieeeAddress = false) (hentries : t'.entries = t.entries.set i live)
    (hbound : i < t'.count) (hgrows : t.count ≤ t'.count) : Placed t t' live i where
  placed := by
    obtain ⟨hlt, -⟩ := List.getElem?_eq_some_iff.mp hi
    rw [hentries, List.getElem?_set_self hlt]
  bound := hbound
  grows := hgrows
  others := by
    intro j y hji hj _
    rw [hentries, List.getElem?_set_ne (fun h => hji h.symm)] at hj
    exact ⟨hj, hnew y (List.mem_of_getElem? hj)⟩
  kept := by
    intro j y hj hy _ hevict
    have hij : i ≠ j := by
      rintro rfl
      rw [hi] at hj
      cases hj
      rw [hlost hy] at hevict
      cases hevict
    rw [hentries, List.getElem?_set_ne hij]
    exact hj

theorem dropLater_spec {j : Nat} (hj : (t.dropLater i p).entries[j]? = some y) (hy : y.active = true) :
    t.entries[j]? = some y ∧ ¬ (i < j ∧ j < t.count ∧ p y = true) := by
  replace hj : (t.entries.mapIdx fun j e =>
      if decide (i < j) && decide (j < t.count) && p e then { e with active := false } else e)[j]? = some y := hj
  rw [List.getElem?_mapIdx] at hj
  obtain ⟨x, hx, hxy⟩ := Option.map_eq_some_iff.mp hj
  split at hxy
  · subst hxy
    cases hy
  · rename_i hnot
    subst hxy
    exact ⟨hx, fun ⟨h1, h2, h3⟩ => hnot (by simp [h1, h2, h3])⟩

theorem dropLater_keeps {j : Nat} (hj : t.entries[j]? = some y) (hy : p y = false) : (t.dropLater i p).entries[j]? = some y := by
  change (t.entries.mapIdx _)[j]? = some y
  rw [List.getElem?_mapIdx, hj]
  simp [hy]

theorem addOrUpdate_spec (h : Unambiguous t) (entry : NeighborEntry) :
    ((t.addOrUpdate entry).1 = t ∧ ∀ y ∈ t.entries, y.isNamed entry.networkAddress entry.ieeeAddress = false) ∨
      ∃ i, Placed t (t.addOrUpdate entry).1 { entry with active := true } i := by
  have hp : ∀ e, isNamed entry.networkAddress entry.ieeeAddress e = true → e.active = true :=
    fun e he => (isNamed_iff.mp he).1
  have hidx : t.searched.findIdx? (isNamed entry.networkAddress entry.ieeeAddress) =
      t.entries.findIdx? (isNamed entry.networkAddress entry.ieeeAddress) :=
    Table.findIdx?_take (h.within hp)
  unfold NeighborTable.addOrUpdate
  dsimp only
  rw [hidx]
  split
  · rename_i i hi
    refine Or.inr ⟨i, ?_⟩
    obtain ⟨e, he, hnamed⟩ := Table.getElem?_of_findIdx? hi
    obtain ⟨hlt, hfirst, hbefore⟩ := List.findIdx?_eq_some_iff_getElem.mp hi
    refine ⟨?_, h.searched i e he (hp e hnamed), Nat.le_refl _, ?_, ?_⟩
    · apply List.getElem?_set_self
      rw [(t.dropLater i _).size_eq, ← t.size_eq]
      exact hlt
    · intro j y hji hj hy
      replace hj : ((t.dropLater i (isNamed entry.networkAddress entry.ieeeAddress)).entries.set i
          { entry with active := true })[j]? = some y := hj
      rw [List.getElem?_set_ne (fun h => hji h.symm)] at hj
      obtain ⟨hj, hdropped⟩ := dropLater_spec hj hy
      refine ⟨hj, ?_⟩
      by_contra hn
      have hn : y.isNamed entry.networkAddress entry.ieeeAddress = true := by simpa using hn
      have hij : j < i := by
        by_contra hle
        exact hdropped ⟨by omega, h.within hp j y hj hn, hn⟩
      obtain ⟨hjl, hxj⟩ := List.getElem?_eq_some_iff.mp hj
      have := hbefore j hij
      rw [hxj] at this
      exact this hn
    · intro j y hj hy hn _
      have hij : i ≠ j := by
        rintro rfl
        rw [he] at hj
        cases hj
        rw [hnamed] at hn
        cases hn
      change ((t.dropLater i (isNamed entry.networkAddress entry.ieeeAddress)).entries.set i _)[j]? = some y
      rw [List.getElem?_set_ne hij]
      exact dropLater_keeps hj hn
  · rename_i hnone
    have hnew : ∀ y ∈ t.entries, y.isNamed entry.networkAddress entry.ieeeAddress = false :=
      List.findIdx?_eq_none_iff.mp hnone
    split
    · rename_i i hi
      obtain ⟨e, he, hfree⟩ := Table.getElem?_of_findIdx? hi
      obtain ⟨hlt, -, hbefore⟩ := List.findIdx?_eq_some_iff_getElem.mp hi
      have hfree : e.active = false := by simpa using hfree
      -- every slot before the first free one is active, so it lies in the searched prefix
      have hle : i ≤ t.count := by
        cases i with
        | zero => exact Nat.zero_le _
        | succ k =>
          have hk : k < t.entries.length := by omega
          have hactive : (t.entries[k]).active = true := by simpa using hbefore k (by omega)
          exact h.searched k t.entries[k] (List.getElem?_eq_getElem hk) hactive
      have hsize := t.size_eq
      refine Or.inr ⟨i, placed_set he (fun hactive => ?_) hnew rfl ?_ ?_⟩
      · rw [hfree] at hactive
        cases hactive
      · dsimp only
        split <;> omega
      · dsimp only
        split <;> omega
    · split
      · rename_i hfull i hi
        obtain ⟨e, he, hactive, hevict⟩ := victim_spec hi
        exact Or.inr ⟨i, placed_set he (fun _ => hevict) hnew rfl (h.searched i e he hactive) (Nat.le_refl _)⟩
      · exact Or.inl ⟨rfl, hnew⟩

theorem Placed.unambiguous {t' : NeighborTable router} {live : NeighborEntry} (h : Unambiguous t) (hp : Placed t t' live i) :
    Unambiguous t' := by
  refine h.of_slot i hp.grows (fun j y hji hj hy => (hp.others j y hji hj hy).1) ?_
  intro x hx _
  rw [hp.placed] at hx
  cases hx
  exact ⟨hp.bound, fun j y hji hj hy => (isNamed_false_iff hy).mp (hp.others j y hji hj hy).2⟩

theorem addOrUpdate_unambiguous (h : Unambiguous t) (entry : NeighborEntry) : Unambiguous (t.addOrUpdate entry).1 := by
  rcases addOrUpdate_spec h entry with ⟨heq, -⟩ | ⟨i, hp⟩
  · rw [heq]
    exact h
  · exact hp.unambiguous h

/-- An insertion costs a relative its place exactly when it has the relative's short address. -/
theorem addOrUpdate_keeps_iff (h : Unambiguous t) (entry : NeighborEntry) :
    (∀ e ∈ t.entries, e.active = true → e.isEvictable router = false → entry.ieeeAddress ≠ e.ieeeAddress →
        e ∈ (t.addOrUpdate entry).1.entries) ↔ RelativeKept t entry.networkAddress entry.ieeeAddress := by
  constructor
  · intro hkeeps e he hactive hevict hshort
    by_contra hne
    have hmem := hkeeps e he hactive hevict fun h => hne h.symm
    have hnamed : e.isNamed entry.networkAddress entry.ieeeAddress = true := isNamed_iff.mpr ⟨hactive, Or.inl hshort⟩
    rcases addOrUpdate_spec h entry with ⟨-, hnew⟩ | ⟨i, hp⟩
    · rw [hnew e he] at hnamed
      cases hnamed
    · obtain ⟨j, hj⟩ := List.mem_iff_getElem?.mp hmem
      by_cases hji : j = i
      · rw [hji, hp.placed] at hj
        cases hj
        exact hne rfl
      · have := (hp.others j e hji hj hactive).2
        rw [hnamed] at this
        cases this
  · intro hkept e he hactive hevict hne
    have hnamed : e.isNamed entry.networkAddress entry.ieeeAddress = false :=
      (isNamed_false_iff hactive).mpr
        ⟨fun hshort => hne (hkept e he hactive hevict hshort).symm, fun h => hne h.symm⟩
    rcases addOrUpdate_spec h entry with ⟨heq, -⟩ | ⟨i, hp⟩
    · rw [heq]
      exact he
    · obtain ⟨j, hj⟩ := List.mem_iff_getElem?.mp he
      exact List.mem_of_getElem? (hp.kept j e hj hactive hnamed hevict)

/-! ## A change of identifiers in place -/

section Rewrite

variable {t t' : NeighborTable router} {i : Nat} {e : NeighborEntry}

/-- A live entry elsewhere than in the rewritten slot is still there. -/
theorem mem_set_of_ne (hi : t.entries[i]? = some e) {x : NeighborEntry} (hy : y ∈ t.entries) (hye : y ≠ e) : y ∈ t.entries.set i x := by
  rcases Table.mem_set_of_mem (i := i) x hy with hslot | hmem
  · rw [hi] at hslot
    exact absurd (Option.some.inj hslot).symm hye
  · exact hmem

/-- A live entry in the place of another is unambiguous exactly when no other neighbour has either identifier. -/
theorem write_unambiguous_iff {live : NeighborEntry} (h : Unambiguous t) (hi : t.entries[i]? = some e) (he : e.active = true)
    (hentries : t'.entries = t.entries.set i live) (hcount : t'.count = t.count) (hlive : live.active = true) :
    Unambiguous t' ↔ ∀ x ∈ t.entries, x.active = true →
      x.networkAddress = live.networkAddress ∨ x.ieeeAddress = live.ieeeAddress → x = e := by
  obtain ⟨hlt, -⟩ := List.getElem?_eq_some_iff.mp hi
  have hself : t'.entries[i]? = some live := by rw [hentries, List.getElem?_set_self hlt]
  have hother : ∀ j, j ≠ i → t'.entries[j]? = t.entries[j]? := by
    intro j hji
    rw [hentries, List.getElem?_set_ne fun h => hji h.symm]
  constructor
  · intro h' x hx hactive hname
    obtain ⟨j, hj⟩ := List.mem_iff_getElem?.mp hx
    by_cases hji : j = i
    · rw [hji, hi] at hj
      exact (Option.some.inj hj).symm
    · have hj' : t'.entries[j]? = some x := by rw [hother j hji, hj]
      rcases hname with hname | hname
      · exact absurd (h'.short j i x _ hj' hself hactive hlive hname) hji
      · exact absurd (h'.ieee j i x _ hj' hself hactive hlive hname) hji
  · intro hone
    refine h.of_slot i (by omega) (fun j y hji hj _ => by rw [← hother j hji]; exact hj) ?_
    intro x hx _
    rw [hself] at hx
    cases hx
    refine ⟨by rw [hcount]; exact h.searched i e hi he, fun j y hji hj hy => ?_⟩
    have hj' : t.entries[j]? = some y := by rw [← hother j hji]; exact hj
    have hapart : ¬ (y.networkAddress = live.networkAddress ∨ y.ieeeAddress = live.ieeeAddress) := by
      intro hname
      obtain rfl := hone y (List.mem_of_getElem? hj') hy hname
      exact hji (h.short.slot_eq hj' hi hy)
    exact not_or.mp hapart

/-- A new short address is unambiguous exactly when no other neighbour has it. -/
theorem rename_unambiguous_iff (h : Unambiguous t) (hi : t.entries[i]? = some e) (he : e.active = true)
    (hentries : t'.entries = t.entries.set i { e with networkAddress := nwkAddr }) (hcount : t'.count = t.count) :
    Unambiguous t' ↔ AddressFree t nwkAddr e := by
  rw [write_unambiguous_iff h hi he hentries hcount he]
  constructor
  · exact fun hone x hx hactive hshort => hone x hx hactive (Or.inl hshort)
  · rintro hfree x hx hactive (hshort | hieee)
    · exact hfree x hx hactive hshort
    · exact h.ieee.eq_of_key hx (List.mem_of_getElem? hi) hactive he hieee

/-- Both identifiers are written: unambiguous, at no relative's cost, exactly when they name this entry only
    and no relative has the short address. -/
theorem rewrite_iff (h : Unambiguous t) (hi : t.entries[i]? = some e) (hnamed : e.isNamed nwkAddr ieeeAddr = true)
    (hentries : t'.entries = t.entries.set i { e with networkAddress := nwkAddr, ieeeAddress := ieeeAddr }) (hcount : t'.count = t.count) :
    (Unambiguous t' ∧ ∀ x ∈ t.entries, x.active = true → x.isEvictable router = false → ieeeAddr ≠ x.ieeeAddress →
        x ∈ t'.entries) ↔ NamesOne t nwkAddr ieeeAddr ∧ RelativeKept t nwkAddr ieeeAddr := by
  obtain ⟨he, -⟩ := isNamed_iff.mp hnamed
  have hmem := List.mem_of_getElem? hi
  have hwrite := write_unambiguous_iff h hi he hentries hcount he
  constructor
  · rintro ⟨h', hkeeps⟩
    have hone : ∀ y ∈ t.entries, y.isNamed nwkAddr ieeeAddr = true → y = e := fun y hy hny =>
      hwrite.mp h' y hy (isNamed_iff.mp hny).1 (isNamed_iff.mp hny).2
    refine ⟨fun x hx y hy hnx hny => (hone x hx hnx).trans (hone y hy hny).symm, fun x hx hxa hevict hshort => ?_⟩
    by_contra hne
    have hwritten := List.mem_set (List.getElem?_eq_some_iff.mp hi).1 { e with networkAddress := nwkAddr, ieeeAddress := ieeeAddr }
    rw [← hentries] at hwritten
    exact hne (congrArg (·.ieeeAddress)
      (h'.short.eq_of_key (hkeeps x hx hxa hevict fun h => hne h.symm) hwritten hxa he hshort))
  · rintro ⟨hone, hkept⟩
    constructor
    · exact hwrite.mpr fun x hx hactive hname => hone x hx e hmem (isNamed_iff.mpr ⟨hactive, hname⟩) hnamed
    · intro x hx hxa hevict hne
      rw [hentries]
      refine mem_set_of_ne hi hx fun hxe => ?_
      subst hxe
      obtain ⟨-, hshort | hieee⟩ := isNamed_iff.mp hnamed
      · exact hne (hkept x hx hxa hevict hshort).symm
      · exact hne hieee.symm

end Rewrite

/-- The only match is the one that a change of the first match changes. -/
theorem modifyFirst_of_unique {l : List NeighborEntry} {f : NeighborEntry → NeighborEntry} (hi : l[i]? = some e) (hp : p e = true)
    (hone : ∀ j x, l[j]? = some x → p x = true → j = i) : modifyFirst p f l = l.set i (f e) := by
  rcases Table.modifyFirst_cases p f l with ⟨j, x, hj, -, hpx, heq⟩ | ⟨hnone, -⟩
  · have hji := hone j x hj hpx
    subst hji
    rw [hi] at hj
    cases hj
    exact heq
  · rw [hnone e (List.mem_of_getElem? hi)] at hp
    cases hp

theorem remove_unambiguous (h : Unambiguous t) (addr : ShortAddress) : Unambiguous (t.remove addr) :=
  h.modifyFirst rfl rfl (fun _ => ⟨rfl, rfl⟩) fun _ _ he => by cases he

/-- Removing by a neighbour's short address takes out that neighbour. -/
theorem remove_entries (h : Unambiguous t) (hi : t.entries[i]? = some e) (he : e.active = true) :
    (t.remove e.networkAddress).entries = t.entries.set i { e with active := false } := by
  apply modifyFirst_of_unique (f := fun e => { e with active := false }) hi
  · simp [he]
  · intro j x hj hx
    obtain ⟨hxa, hshort⟩ : x.active = true ∧ x.networkAddress = e.networkAddress := by simpa using hx
    exact h.short j i x e hj hi hxa he hshort

/-! ## Steps -/

section Steps

variable {l : NwkLayer router}

theorem sound_iff (event : Event) :
    Sound l event ↔ Unambiguous (step l event).neighbors ∧
      ∀ e ∈ l.neighbors.entries, e.active = true → e.isEvictable router = false →
        ∀ d, event.device = some d → d ≠ e.ieeeAddress → e ∈ (step l event).neighbors.entries := by
  unfold Sound Displaces
  constructor
  · rintro ⟨h, -, hkeeps⟩
    refine ⟨h, fun e he hactive hevict d hd hne => ?_⟩
    by_contra hgone
    exact hkeeps ⟨e, he, hactive, hevict, ⟨d, hd, hne⟩, hgone⟩
  · rintro ⟨h, hkeeps⟩
    refine ⟨h, h.lookupsAgree, ?_⟩
    rintro ⟨e, he, hactive, hevict, ⟨d, hd, hne⟩, hgone⟩
    exact hgone (hkeeps e he hactive hevict d hd hne)

/-- An event about no device displaces none. -/
theorem sound_of_unambiguous {event : Event} (hdevice : event.device = none)
    (h : Unambiguous (step l event).neighbors) : Sound l event := by
  refine (sound_iff event).mpr ⟨h, fun e _ _ _ d hd _ => ?_⟩
  rw [hdevice] at hd
  cases hd

theorem addOrUpdate_sound (h : Unambiguous l.neighbors) (entry : NeighborEntry) :
    Sound l (.addOrUpdate entry) ↔ Careful l (.addOrUpdate entry) := by
  rw [sound_iff]
  constructor
  · rintro ⟨-, hkeeps⟩
    exact (addOrUpdate_keeps_iff h entry).mp fun e he hactive hevict hne => hkeeps e he hactive hevict _ rfl hne
  · intro hcareful
    refine ⟨addOrUpdate_unambiguous h entry, fun e he hactive hevict d hd hne => ?_⟩
    cases hd
    exact (addOrUpdate_keeps_iff h entry).mpr hcareful e he hactive hevict hne

/-- What `update_neighbor_address` does to the table. -/
theorem updateNeighborAddress_iff (h : Unambiguous l.neighbors) (nwkAddr : ShortAddress) (ieeeAddr : IeeeAddress) :
    (Unambiguous (l.updateNeighborAddress nwkAddr ieeeAddr).neighbors ∧
      ∀ e ∈ l.neighbors.entries, e.active = true → e.isEvictable router = false → ieeeAddr ≠ e.ieeeAddress →
        e ∈ (l.updateNeighborAddress nwkAddr ieeeAddr).neighbors.entries) ↔
      NamesOne l.neighbors nwkAddr ieeeAddr ∧ RelativeKept l.neighbors nwkAddr ieeeAddr := by
  unfold NwkLayer.updateNeighborAddress
  dsimp only
  split
  · rename_i hany
    rcases Table.modifyFirst_cases (isNamed nwkAddr ieeeAddr)
        (fun e => { e with networkAddress := nwkAddr, ieeeAddress := ieeeAddr }) l.neighbors.entries with
      ⟨i, e, hi, -, hnamed, heq⟩ | ⟨hnone, -⟩
    · exact rewrite_iff h hi hnamed heq rfl
    · obtain ⟨e, he, hnamed⟩ := List.any_eq_true.mp hany
      rw [hnone e he] at hnamed
      cases hnamed
  · rename_i hany
    have hnone : ∀ e ∈ l.neighbors.entries, e.isNamed nwkAddr ieeeAddr = false := by
      intro e he
      by_contra hn
      exact hany (List.any_eq_true.mpr ⟨e, he, by simpa using hn⟩)
    have hone : NamesOne l.neighbors nwkAddr ieeeAddr := by
      intro x hx y _ hnx _
      rw [hnone x hx] at hnx
      cases hnx
    constructor
    · rintro ⟨-, hkeeps⟩
      exact ⟨hone, (addOrUpdate_keeps_iff h (.newFromAnnce nwkAddr ieeeAddr)).mp hkeeps⟩
    · rintro ⟨-, hkept⟩
      exact ⟨addOrUpdate_unambiguous h _, (addOrUpdate_keeps_iff h (.newFromAnnce nwkAddr ieeeAddr)).mpr hkept⟩

theorem updateNeighborAddress_sound (h : Unambiguous l.neighbors) (nwkAddr : ShortAddress) (ieeeAddr : IeeeAddress) :
    Sound l (.updateNeighborAddress nwkAddr ieeeAddr) ↔ Careful l (.updateNeighborAddress nwkAddr ieeeAddr) := by
  rw [sound_iff]
  refine Iff.trans ?_ (updateNeighborAddress_iff h nwkAddr ieeeAddr)
  constructor
  · rintro ⟨h', hkeeps⟩
    exact ⟨h', fun e he hactive hevict hne => hkeeps e he hactive hevict _ rfl hne⟩
  · rintro ⟨h', hkeeps⟩
    refine ⟨h', fun e he hactive hevict d hd hne => ?_⟩
    cases hd
    exact hkeeps e he hactive hevict hne

theorem reassignChildAddress_sound (h : Unambiguous l.neighbors) (oldAddress newAddress : ShortAddress)
    (ieeeAddress : IeeeAddress) :
    Sound l (.reassignChildAddress oldAddress newAddress ieeeAddress) ↔
      Careful l (.reassignChildAddress oldAddress newAddress ieeeAddress) := by
  rw [sound_iff]
  simp only [step, NwkLayer.reassignChildAddress, Careful, h.findByShort_eq]
  split
  · rename_i hnone
    refine iff_of_true ⟨h, fun e he _ _ _ _ _ => he⟩ fun e he hactive hshort _ _ => ?_
    have := List.find?_eq_none.mp hnone e he
    simp [hactive, hshort] at this
  · rename_i e hfind
    have hmem := List.mem_of_find?_eq_some hfind
    have hfound := List.find?_some hfind
    simp only [Bool.and_eq_true, beq_iff_eq] at hfound
    have hunique : ∀ x ∈ l.neighbors.entries, x.active = true → x.networkAddress = oldAddress → x = e :=
      fun x hx hxa hshort => h.short.eq_of_key hx hmem hxa hfound.1 (hshort.trans hfound.2.symm)
    split
    · rename_i hnot
      refine iff_of_true ⟨h, fun x hx _ _ _ _ _ => hx⟩ fun x hx hxa hshort hieee hchild => ?_
      rw [hunique x hx hxa hshort] at hieee hchild
      simp [hieee, hchild] at hnot
    · rename_i hnot
      obtain ⟨hieee, hchild⟩ : e.ieeeAddress = ieeeAddress ∧ e.isChild = true := by simpa using hnot
      have hentries := h.modifyByShort_eq oldAddress fun x => { x with networkAddress := newAddress }
      rcases Table.modifyFirst_cases (fun x => x.active && x.networkAddress == oldAddress)
          (fun x => { x with networkAddress := newAddress }) l.neighbors.entries with ⟨i, x, hi, hx, -, heq⟩ | ⟨hnone, -⟩
      · rw [hfind] at hx
        cases hx
        have hset := hentries.trans heq
        rw [rename_unambiguous_iff h hi hfound.1 hset rfl]
        constructor
        · rintro ⟨hfree, -⟩ x hx hxa hshort _ _
          rw [hunique x hx hxa hshort]
          exact hfree
        · intro hcareful
          refine ⟨hcareful e hmem hfound.1 hfound.2 hieee hchild, fun x hx hxa _ d hd hne => ?_⟩
          cases hd
          rw [hset]
          refine mem_set_of_ne hi hx fun hxe => hne ?_
          rw [hxe, hieee]
      · have := hnone e hmem
        simp [hfound.1, hfound.2] at this

theorem releasePrevious_none (hfind : l.neighbors.findByIeee ieeeAddr = none) :
    (l.releasePrevious nwkAddr ieeeAddr).neighbors = l.neighbors := by
  unfold NwkLayer.releasePrevious
  rw [hfind]
  split
  · rfl
  · dsimp only [Option.any_none]
    split <;> rfl

theorem releasePrevious_some (hfind : l.neighbors.findByIeee ieeeAddr = some e) :
    (l.releasePrevious nwkAddr ieeeAddr).neighbors =
      if e.networkAddress != nwkAddr && e.relationship == Relationship.child && e.isRouter then
        l.neighbors.remove e.networkAddress
      else l.neighbors := by
  unfold NwkLayer.releasePrevious NwkLayer.findShortByIeee
  rw [hfind]
  simp only [Option.map_some, Option.some_or, Option.any_some]
  by_cases hsame : e.networkAddress = nwkAddr
  · simp [hsame]
  · by_cases hleaves : e.relationship = .child ∧ e.isRouter = true
    · simp [hsame, hleaves]
    · have hstays : (e.relationship == Relationship.child && e.isRouter) = false := by simpa using hleaves
      simp only [Bool.and_assoc, hstays, Bool.and_false, Bool.false_eq_true, if_false]
      split <;> rfl

theorem isRelative_of_child (h : e.relationship = .child) : e.isRelative = true := by
  simp [isRelative, isChild, h]

theorem updateAddressMap_router_sound {l : NwkLayer true} (h : Unambiguous l.neighbors) (nwkAddr : ShortAddress)
    (ieeeAddr : IeeeAddress) : Sound l (.updateAddressMap nwkAddr ieeeAddr) ↔ Careful l (.updateAddressMap nwkAddr ieeeAddr) := by
  rw [sound_iff]
  simp only [step, NwkLayer.updateAddressMap, Careful, if_true]
  have hsearch := h.findByIeee_eq ieeeAddr
  cases hfind : l.neighbors.entries.find? fun x => x.active && x.ieeeAddress == ieeeAddr with
  | none =>
    rw [releasePrevious_none (hsearch.trans hfind)]
    have hnone : ∀ x ∈ l.neighbors.entries, (x.active && x.ieeeAddress == ieeeAddr) = false := by
      intro x hx
      simpa using List.find?_eq_none.mp hfind x hx
    have hentries := (h.modifyByIeee_eq ieeeAddr fun x => if x.isRelative then x else { x with networkAddress := nwkAddr }).trans
      (Table.modifyFirst_eq_self hnone)
    refine iff_of_true ⟨h.congr hentries rfl, fun x hx _ _ _ _ _ => ?_⟩ fun x hx hxa hieee => ?_
    · rw [hentries]
      exact hx
    · have := hnone x hx
      simp [hxa, hieee] at this
  | some e =>
    have hmem := List.mem_of_find?_eq_some hfind
    obtain ⟨he, hieee⟩ : e.active = true ∧ e.ieeeAddress = ieeeAddr := by simpa using List.find?_some hfind
    have hunique : ∀ x ∈ l.neighbors.entries, x.active = true → x.ieeeAddress = ieeeAddr → x = e :=
      fun x hx hxa hx' => h.ieee.eq_of_key hx hmem hxa he (hx'.trans hieee.symm)
    obtain ⟨i, hi⟩ := List.mem_iff_getElem?.mp hmem
    rw [releasePrevious_some (hsearch.trans hfind)]
    split
    · -- a router child that moved: its entry dies, and no other has its IEEE address
      rename_i hmoved
      simp only [Bool.and_eq_true, bne_iff_ne, beq_iff_eq] at hmoved
      have hdead : (l.neighbors.remove e.networkAddress).entries = l.neighbors.entries.set i { e with active := false } :=
        remove_entries h hi he
      have hremoved : Unambiguous (l.neighbors.remove e.networkAddress) := remove_unambiguous h e.networkAddress
      have hnone : ∀ x ∈ (l.neighbors.remove e.networkAddress).entries, (x.active && x.ieeeAddress == ieeeAddr) = false := by
        intro x hx
        rw [hdead] at hx
        by_contra hnot
        obtain ⟨hxa, hxi⟩ : x.active = true ∧ x.ieeeAddress = ieeeAddr := by simpa using hnot
        obtain ⟨j, hj⟩ := List.mem_iff_getElem?.mp hx
        rw [List.getElem?_set] at hj
        split at hj
        · split at hj
          · cases hj
            cases hxa
          · cases hj
        · rename_i hij
          have hxe := hunique x (List.mem_of_getElem? hj) hxa hxi
          subst hxe
          exact hij (h.short.slot_eq hi hj hxa)
      have hentries := (hremoved.modifyByIeee_eq ieeeAddr
        fun x => if x.isRelative then x else { x with networkAddress := nwkAddr }).trans (Table.modifyFirst_eq_self hnone)
      refine iff_of_true ⟨hremoved.congr hentries rfl, fun x hx hxa _ d hd hne => ?_⟩ ?_
      · cases hd
        rw [hentries, hdead]
        refine mem_set_of_ne hi hx fun hxe => hne ?_
        rw [hxe, hieee]
      · intro x hx hxa hxi hrel
        rw [hunique x hx hxa hxi, isRelative_of_child hmoved.1.2] at hrel
        cases hrel
    · have hentries := h.modifyByIeee_eq ieeeAddr fun x => if x.isRelative then x else { x with networkAddress := nwkAddr }
      have hset : (modifyFirst (fun x => x.active && x.ieeeAddress == ieeeAddr)
          (fun x => if x.isRelative then x else { x with networkAddress := nwkAddr }) l.neighbors.entries) =
          l.neighbors.entries.set i (if e.isRelative then e else { e with networkAddress := nwkAddr }) :=
        modifyFirst_of_unique hi (by simp [he, hieee]) fun j x hj hx => by
          obtain ⟨hxa, hxi⟩ : x.active = true ∧ x.ieeeAddress = ieeeAddr := by simpa using hx
          have hxe := hunique x (List.mem_of_getElem? hj) hxa hxi
          subst hxe
          exact h.short.slot_eq hj hi hxa
      rw [hset] at hentries
      cases hrel : e.isRelative with
      | true =>
        have hsame : l.neighbors.entries.set i e = l.neighbors.entries := by
          obtain ⟨hlt, hget⟩ := List.getElem?_eq_some_iff.mp hi
          rw [← hget]
          exact List.set_getElem_self hlt
        rw [hrel, if_pos rfl, hsame] at hentries
        refine iff_of_true ⟨h.congr hentries rfl, fun x hx _ _ _ _ _ => ?_⟩ ?_
        · rw [hentries]
          exact hx
        · intro x hx hxa hxi hnot
          rw [hunique x hx hxa hxi, hrel] at hnot
          cases hnot
      | false =>
        rw [hrel, if_neg (by decide)] at hentries
        rw [rename_unambiguous_iff h hi he hentries rfl]
        constructor
        · rintro ⟨hfree, -⟩ x hx hxa hxi _
          rw [hunique x hx hxa hxi]
          exact hfree
        · intro hcareful
          refine ⟨hcareful e hmem he hieee hrel, fun x hx hxa _ d hd hne => ?_⟩
          cases hd
          rw [hentries]
          refine mem_set_of_ne hi hx fun hxe => hne ?_
          rw [hxe, hieee]

theorem updateAddressMap_leaf_sound {l : NwkLayer false} (h : Unambiguous l.neighbors) (nwkAddr : ShortAddress)
    (ieeeAddr : IeeeAddress) : Sound l (.updateAddressMap nwkAddr ieeeAddr) ↔ Careful l (.updateAddressMap nwkAddr ieeeAddr) := by
  have hupdate : step l (.updateAddressMap nwkAddr ieeeAddr) =
      match l.neighbors.parent with
      | some parent =>
        if parent.networkAddress == nwkAddr || parent.ieeeAddress == ieeeAddr then l
        else l.updateNeighborAddress nwkAddr ieeeAddr
      | none => l.updateNeighborAddress nwkAddr ieeeAddr := rfl
  have hthrough : step l (.updateAddressMap nwkAddr ieeeAddr) = step l (.updateNeighborAddress nwkAddr ieeeAddr) →
      (Sound l (.updateAddressMap nwkAddr ieeeAddr) ↔
        NamesOne l.neighbors nwkAddr ieeeAddr ∧ RelativeKept l.neighbors nwkAddr ieeeAddr) := by
    intro heq
    refine Iff.trans ?_ (updateNeighborAddress_sound h nwkAddr ieeeAddr)
    rw [sound_iff, sound_iff, heq]
    exact Iff.rfl
  simp only [Careful, Bool.false_eq_true, if_false]
  cases hparent : l.neighbors.parent with
  | none =>
    rw [hparent] at hupdate
    rw [hthrough hupdate]
    simp
  | some parent =>
    rw [hparent] at hupdate
    dsimp only at hupdate
    split at hupdate
    · rename_i hnamed
      have hnamed : parent.networkAddress = nwkAddr ∨ parent.ieeeAddress = ieeeAddr := by simpa using hnamed
      refine iff_of_true ?_ (Or.inl ⟨parent, rfl, hnamed⟩)
      rw [sound_iff, hupdate]
      exact ⟨h, fun e he _ _ _ _ _ => he⟩
    · rename_i hnamed
      rw [hthrough hupdate]
      have hnot : ¬ ∃ p, some parent = some p ∧ (p.networkAddress = nwkAddr ∨ p.ieeeAddress = ieeeAddr) := by
        rintro ⟨p, hp, hname⟩
        cases hp
        exact hnamed (by simpa using hname)
      exact (or_iff_right hnot).symm

/-- **A step leaves the identifiers unambiguous, at no relative's cost, exactly when it was careful.** -/
theorem step_sound_iff (h : Unambiguous l.neighbors) (event : Event) : Sound l event ↔ Careful l event := by
  cases event with
  | addOrUpdate entry => exact addOrUpdate_sound h entry
  | updateAddressMap nwkAddr ieeeAddr =>
    cases router with
    | true => exact updateAddressMap_router_sound h nwkAddr ieeeAddr
    | false => exact updateAddressMap_leaf_sound h nwkAddr ieeeAddr
  | updateNeighborAddress nwkAddr ieeeAddr => exact updateNeighborAddress_sound h nwkAddr ieeeAddr
  | reassignChildAddress oldAddress newAddress ieeeAddress =>
    exact reassignChildAddress_sound h oldAddress newAddress ieeeAddress
  | removeNeighbor address =>
    refine iff_of_true (sound_of_unambiguous rfl ?_) trivial
    have hneighbors : (step l (.removeNeighbor address)).neighbors = l.neighbors.remove address := by
      cases router <;> rfl
    rw [hneighbors]
    exact remove_unambiguous h address
  | remove address => exact iff_of_true (sound_of_unambiguous rfl (remove_unambiguous h address)) trivial
  | ageTick => exact iff_of_true (sound_of_unambiguous rfl (h.mapActive fun _ _ => ⟨rfl, rfl⟩)) trivial
  | ageRouterLinkStatus =>
    refine iff_of_true (sound_of_unambiguous rfl (h.mapActive fun e _ => ?_)) trivial
    dsimp only
    split <;> exact ⟨rfl, rfl⟩
  | expireUnauthenticated maxAge =>
    refine iff_of_true (sound_of_unambiguous rfl (h.mapActive fun e _ => ?_)) trivial
    split <;> exact ⟨rfl, rfl⟩
  | describe address told =>
    refine iff_of_true (sound_of_unambiguous rfl ?_) trivial
    exact h.modifyFirst (h.modifyByShort_eq address _) rfl (fun _ => ⟨rfl, rfl⟩) fun _ _ he => he

end Steps

theorem unambiguous_new (router : Bool) : Unambiguous (NeighborTable.new router) := by
  have hdead : ∀ (i : Nat) (e : NeighborEntry), (NeighborTable.new router).entries[i]? = some e → e.active = true → False := by
    intro i e hi he
    have hmem : e ∈ List.replicate (MAX_NEIGHBORS router) NeighborEntry.empty := List.mem_of_getElem? hi
    rw [List.eq_of_mem_replicate hmem] at he
    cases he
  exact ⟨fun i _ x _ hi _ hx _ _ => (hdead i x hi hx).elim, fun i _ x _ hi _ hx _ _ => (hdead i x hi hx).elim,
    fun i x hi hx => (hdead i x hi hx).elim⟩

/-- **Neighbour identity.**  In a run every step leaves each identifier naming at most one neighbour, both searches
    in agreement, and every parent and live child in place when another device is inserted, exactly when every step
    is careful. -/
theorem neighbor_identity_unambiguous (router : Bool) (deviceType : DeviceType) (events : List Event) :
    Run.Along step Sound (NwkLayer.new router deviceType) events ↔
      Run.Along step Careful (NwkLayer.new router deviceType) events :=
  Run.along_iff_of_invariant (I := fun l => Unambiguous l.neighbors) (fun _ event h => step_sound_iff h event)
    (fun _ _ h => h.1) (unambiguous_new router)

/-- An announcement moves a known neighbour to the address of another one. -/
theorem announced_address_is_shared :
    ¬ ∀ events : List Event, Run.Along step Sound (NwkLayer.new true .router) events := by
  intro h
  have hsound := (h [.addOrUpdate (.newFromAnnce 1 (Vector.replicate 8 1)), .addOrUpdate (.newFromAnnce 2 (Vector.replicate 8 2)),
    .updateAddressMap 2 (Vector.replicate 8 1)]).2.2.1
  have hsame := hsound.1.short 0 1 (.newFromAnnce 2 (Vector.replicate 8 1)) (.newFromAnnce 2 (Vector.replicate 8 2))
    (by decide) (by decide) rfl rfl rfl
  cases hsame

end Identity

end Zigbee.Nwk
