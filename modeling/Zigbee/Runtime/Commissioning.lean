import Zigbee.Runtime.SecurityJournal.Capacity

/-!
# Crash-safe commissioning

Model of `CommissioningSecurityPersistence` of `zigbee-runtime/src/security_store.rs`: the record that
Network Steering and Network Formation write before a network key, and later a Trust Center link key,
may be used, and the outgoing-counter ranges they reserve in it.

* `PersistentSecurityState.Valid` — the consistency check as a list of facts, `validate_ok_iff`.
* `storeRecord` — what a store does with a record; `journal_accepts_iff` — the security journal takes,
  without a fault, exactly the valid records.
* `reserveNetworkSecurity`, `reserveTrustCenterLinkKey`, `commitNetwork`, `commitDistributedNetwork`,
  `commitFormedNetwork` — the operations of the two persistence traits.
* `recommissioning_accepted_iff` — which stored records a new network may be commissioned over.
-/

namespace Zigbee.Runtime

/-- Official Telink outgoing-security-counter reservation size. -/
def FRAME_COUNTER_RESERVATION_SIZE : UInt32 := 0x400

/-- A durably persisted counter range `[current, limit)`. -/
structure CounterReservation where
  current : UInt32
  limit : UInt32
  deriving DecidableEq, Repr

/-- Network state available immediately after the Network-Key Transport-Key. -/
structure NetworkSecurityState where
  extendedPanId : IeeeAddress
  panId : UInt16
  shortAddress : UInt16
  ieeeAddress : IeeeAddress
  channel : UInt8
  depth : UInt8
  parentAddress : UInt16
  updateId : UInt8
  updateIdValid : Bool
  networkKey : AesKey
  keySequence : UInt8
  outgoingFrameCounter : UInt32
  trustCenterAddress : IeeeAddress
  nodeJoinLinkKeyType : NodeJoinLinkKeyType

/-- The device formed the network. -/
def NetworkSecurityState.isFormed (n : NetworkSecurityState) : Bool :=
  n.shortAddress == 0x0000 && n.depth == 0 && n.parentAddress == 0xFFFF

/-- Unique Trust Center link-key state installed during commissioning. -/
structure TrustCenterLinkKeyState where
  partnerAddress : IeeeAddress
  key : AesKey
  keyType : ApsKeyType
  outgoingFrameCounter : UInt32
  incomingFrameCounter : UInt32
  incomingFrameCounterValid : Bool

/-- Persistence failure reported synchronously to commissioning. -/
inductive SecurityPersistenceError where
  | storage
  | counterExhausted
  | invalidState
  deriving DecidableEq, Repr

/-! ## The consistency check -/

namespace PersistentSecurityState

/-- Whether this is a centralized network formed by its coordinator. -/
def isCoordinatorNetwork (s : PersistentSecurityState) : Bool :=
  s.isFormedNetwork && !s.nodeJoinLinkKeyType.isDistributed

/-- What `validate` checks, one field a check. -/
structure Valid (s : PersistentSecurityState) : Prop where
  network : s.commissioned = true →
    (11 ≤ s.channel ∧ s.channel ≤ 26) ∧ s.panId ≠ 0xFFFF ∧ s.shortAddress ≠ 0xFFFF ∧
      s.ieeeAddress ≠ zeroAddress ∧ s.globalCounterLimit ≠ 0 ∧
      (s.isFormedNetwork = false → s.nodeJoinLinkKeyType.isDistributed = false → s.tclkPresent = false →
        s.legacyDefaultTclk = true)
  coordinator : s.isFormedNetwork = true → s.nodeJoinLinkKeyType.isDistributed = false →
    s.tclkPresent = false ∧ s.legacyDefaultTclk = false ∧ s.trustCenterAddress = zeroAddress ∧
      s.trustCenterLinkKey = zeroKey ∧ s.tclkIncomingCounter = 0 ∧ s.tclkIncomingCounterValid = false ∧
      s.rejoinPending = false ∧ s.parentInformation = 0 ∧ s.parentInformationValid = false ∧
      s.endDeviceTimeout = ED_TIMEOUT_ENUM_DEFAULT
  distributed : s.nodeJoinLinkKeyType.isDistributed = true →
    s.trustCenterAddress = onesAddress ∧ s.tclkPresent = false ∧ s.legacyDefaultTclk = false ∧
      s.trustCenterLinkKey = zeroKey ∧ s.tclkCounterLimit = 0 ∧ s.tclkIncomingCounter = 0 ∧
      s.tclkIncomingCounterValid = false
  centralized : s.nodeJoinLinkKeyType.isDistributed = false → s.trustCenterAddress ≠ onesAddress
  legacy : s.legacyDefaultTclk = true →
    s.commissioned = true ∧ s.tclkPresent = false ∧ s.trustCenterAddress = zeroAddress ∧
      s.trustCenterLinkKey = zeroKey ∧ s.tclkCounterLimit ≠ 0 ∧ s.tclkIncomingCounter = 0 ∧
      s.tclkIncomingCounterValid = false
  secondaryKey : s.stagedNetworkKeyPresent = true →
    s.commissioned = true ∧ s.stagedKeySequence ≠ s.keySequence ∧
      (s.secondaryNetworkKeyIsPrevious = true → s.stagedKeySequence = s.keySequence - 1)
  noSecondaryKey : s.stagedNetworkKeyPresent = false →
    s.stagedKeySequence = 0 ∧ s.stagedNetworkKey = zeroKey ∧ s.secondaryNetworkKeyIsPrevious = false
  forwarding : s.networkKeyForwardingPending = true →
    s.commissioned = true ∧ s.nodeJoinLinkKeyType.isDistributed = false ∧ s.stagedNetworkKeyPresent = true
  tclk : s.tclkPresent = true → s.trustCenterAddress ≠ zeroAddress ∧ s.tclkCounterLimit ≠ 0
  rejoin : s.rejoinPending = true → s.commissioned = true
  endDeviceTimeout : ¬ s.endDeviceTimeout > ED_TIMEOUT_ENUM_MAX ∧
    s.parentInformation &&& ~~~PARENT_INFO_MASK = 0 ∧
    (s.parentInformationValid = false → s.parentInformation = 0)
  updateId : s.updateIdValid = false → s.updateId = 0
  pendingPanId : ∀ p, s.pendingPanId = some p →
    s.commissioned = true ∧ s.updateIdValid = true ∧ p ≠ 0 ∧ p ≠ 0xFFFF ∧ p ≠ s.panId
  noPendingPanId : s.pendingPanId = none → s.pendingPanIdBroadcast = false
  announce : s.deviceAnnouncePending = true → s.commissioned = true ∧ s.isFormedNetwork = false
  provisional : s.parentLinkProvisional = true →
    s.commissioned = true ∧ s.isFormedNetwork = false ∧ s.nodeJoinLinkKeyType.isDistributed = false

/-- One check of `validate`. -/
theorem guard_ok {c : Bool} {e : SecurityStoreError} {rest : Unit → Except SecurityStoreError Unit} :
    ((if c = true then (throw e : Except SecurityStoreError Unit) >>= rest else rest ()) = .ok ()) ↔
      c = false ∧ rest () = .ok () := by
  cases c <;> simp [throw, throwThe, MonadExceptOf.throw, bind, Except.bind]

theorem last_guard_ok {c : Bool} {e : SecurityStoreError} :
    ((if c = true then (throw e : Except SecurityStoreError Unit) else pure ()) = .ok ()) ↔ c = false := by
  cases c <;> simp [throw, throwThe, MonadExceptOf.throw, pure, Except.pure]

set_option linter.unnecessarySimpa false in
/-- `validate` accepts exactly the records that meet every check. -/
theorem validate_ok_iff {s : PersistentSecurityState} : s.validate = .ok () ↔ s.Valid := by
  -- the two branchings of the check; in each branch one of two fields says nothing
  cases hstaged : s.stagedNetworkKeyPresent <;> cases hpan : s.pendingPanId <;>
    simp only [validate, guard_ok, last_guard_ok, hstaged, hpan, if_true, Bool.false_eq_true, if_false]
  all_goals
    constructor
    · rintro ⟨h1, h2, h3, h4, h5, h6, h7, h8, h9, h10, h11, h12, h13, h14⟩
      exact
        { network := by simpa [and_assoc] using h1
          coordinator := by simpa [and_assoc] using h2
          distributed := by simpa [and_assoc] using h3
          centralized := by simpa using h4
          legacy := by simpa [and_assoc] using h5
          secondaryKey := by simpa [hstaged, and_assoc] using h6
          noSecondaryKey := by simpa [hstaged, and_assoc] using h6
          forwarding := by simpa [hstaged, and_assoc] using h7
          tclk := by simpa using h8
          rejoin := by simpa using h9
          endDeviceTimeout := by simpa [and_assoc] using h10
          updateId := by simpa using h11
          pendingPanId := by simpa [hpan, and_assoc] using h12
          noPendingPanId := by simpa [hpan] using h12
          announce := by simpa using h13
          provisional := by simpa [and_assoc] using h14 }
    · intro h
      have h6 := h.secondaryKey
      have h6' := h.noSecondaryKey
      have h7 := h.forwarding
      have h12 := h.pendingPanId
      have h12' := h.noPendingPanId
      refine ⟨by simpa [and_assoc] using h.network, by simpa [and_assoc] using h.coordinator,
        by simpa [and_assoc] using h.distributed, by simpa using h.centralized,
        by simpa [and_assoc] using h.legacy, by simp_all, by simp_all,
        by simpa using h.tclk, by simpa using h.rejoin, by simpa [and_assoc] using h.endDeviceTimeout,
        by simpa using h.updateId, by simp_all, by simpa using h.announce,
        by simpa [and_assoc] using h.provisional⟩

/-- The record of a network that is about to be used, out of commission until it is committed. -/
def withNetworkSecurity (s : PersistentSecurityState) (n : NetworkSecurityState) (reservation : CounterReservation) :
    PersistentSecurityState :=
  { s with
    commissioned := false
    rejoinPending := false
    extendedPanId := n.extendedPanId
    panId := n.panId
    shortAddress := n.shortAddress
    ieeeAddress := n.ieeeAddress
    channel := n.channel
    depth := n.depth
    parentAddress := n.parentAddress
    updateId := n.updateId
    updateIdValid := n.updateIdValid
    networkKey := n.networkKey
    keySequence := n.keySequence
    stagedNetworkKeyPresent := false
    stagedNetworkKey := zeroKey
    stagedKeySequence := 0
    secondaryNetworkKeyIsPrevious := false
    networkKeyForwardingPending := false
    globalCounterLimit := reservation.limit
    nodeJoinLinkKeyType := n.nodeJoinLinkKeyType
    trustCenterAddress :=
      if n.isFormed && !n.nodeJoinLinkKeyType.isDistributed then zeroAddress else n.trustCenterAddress
    tclkPresent := false
    legacyDefaultTclk := false
    trustCenterLinkKey := zeroKey
    tclkCounterLimit := if n.nodeJoinLinkKeyType.isDistributed then 0 else s.tclkCounterLimit
    tclkIncomingCounter := 0
    tclkIncomingCounterValid := false
    -- the previous parent's keepalive method is void; the other fields it left behind stay
    parentInformation := 0
    parentInformationValid := false
    endDeviceTimeout := ED_TIMEOUT_ENUM_DEFAULT }

def withTrustCenterLinkKey (s : PersistentSecurityState) (t : TrustCenterLinkKeyState)
    (reservation : CounterReservation) : PersistentSecurityState :=
  { s with
    tclkPresent := true
    legacyDefaultTclk := false
    trustCenterAddress := t.partnerAddress
    trustCenterLinkKey := t.key
    tclkCounterLimit := reservation.limit
    tclkIncomingCounter := t.incomingFrameCounter
    tclkIncomingCounterValid := t.incomingFrameCounterValid }

def withIncomingCounter (s : PersistentSecurityState) (t : TrustCenterLinkKeyState) : PersistentSecurityState :=
  { s with
    tclkIncomingCounter := t.incomingFrameCounter
    tclkIncomingCounterValid := t.incomingFrameCounterValid }

def withCommissioned (s : PersistentSecurityState) : PersistentSecurityState :=
  { s with commissioned := true, rejoinPending := false }

end PersistentSecurityState

/-! ## The store -/

/-- How a store takes a record that passes its check. -/
inductive StoreOutcome where
  | done
  /-- An error, and the old record stays. -/
  | refused (e : SecurityStoreError)
  /-- An error, although the record is in place. -/
  | lost (e : SecurityStoreError)

/-- `SecurityStateStore::store`: the answer, and the record the store then holds. -/
def storeRecord (o : StoreOutcome) (stored : Option PersistentSecurityState) (s : PersistentSecurityState) :
    Except SecurityStoreError Unit × Option PersistentSecurityState :=
  match s.validate, o with
  | _, .refused e => (.error e, stored)
  | .error e, _ => (.error e, stored)
  | .ok _, .done => (.ok (), some s)
  | .ok _, .lost e => (.error e, some s)

/-- `current.checked_add(FRAME_COUNTER_RESERVATION_SIZE)` as a range. -/
def reserveFrom (current : UInt32) : Except SecurityPersistenceError CounterReservation :=
  if current.toNat + FRAME_COUNTER_RESERVATION_SIZE.toNat < 2 ^ 32 then
    .ok ⟨current, current + FRAME_COUNTER_RESERVATION_SIZE⟩
  else .error .counterExhausted

/-- A store, by the record it holds, and the working copy of the commissioning that borrowed it. -/
structure CommissioningSecurityPersistence where
  stored : Option PersistentSecurityState
  state : PersistentSecurityState
  lastError : Option SecurityStoreError

namespace CommissioningSecurityPersistence

def new (stored : Option PersistentSecurityState) : CommissioningSecurityPersistence :=
  ⟨stored, stored.getD .empty, none⟩

def persist (o : StoreOutcome) (p : CommissioningSecurityPersistence) :
    Except SecurityPersistenceError Unit × CommissioningSecurityPersistence :=
  match storeRecord o p.stored p.state with
  | (.ok _, stored) => (.ok (), { p with stored })
  | (.error e, stored) => (.error .storage, { p with stored, lastError := some e })

/-- Persist a new working copy, and hand out a reservation once it is stored. -/
def reserve (o : StoreOutcome) (state : PersistentSecurityState) (reservation : CounterReservation)
    (p : CommissioningSecurityPersistence) :
    Except SecurityPersistenceError CounterReservation × CommissioningSecurityPersistence :=
  let (r, p) := persist o { p with state }
  (r.map fun _ => reservation, p)

def reserveNetworkSecurity (o : StoreOutcome) (n : NetworkSecurityState) (p : CommissioningSecurityPersistence) :
    Except SecurityPersistenceError CounterReservation × CommissioningSecurityPersistence :=
  match reserveFrom (max n.outgoingFrameCounter p.state.globalCounterLimit) with
  | .error e => (.error e, p)
  | .ok reservation => p.reserve o (p.state.withNetworkSecurity n reservation) reservation

def reserveTrustCenterLinkKey (o : StoreOutcome) (t : TrustCenterLinkKeyState)
    (p : CommissioningSecurityPersistence) :
    Except SecurityPersistenceError CounterReservation × CommissioningSecurityPersistence :=
  if t.keyType != .trustCenterLinkKey || p.state.nodeJoinLinkKeyType.isDistributed then (.error .invalidState, p)
  else
    match reserveFrom (max t.outgoingFrameCounter p.state.tclkCounterLimit) with
    | .error e => (.error e, p)
    | .ok reservation => p.reserve o (p.state.withTrustCenterLinkKey t reservation) reservation

def commitNetwork (o : StoreOutcome) (t : TrustCenterLinkKeyState) (p : CommissioningSecurityPersistence) :
    Except SecurityPersistenceError Unit × CommissioningSecurityPersistence :=
  if p.state.nodeJoinLinkKeyType.isDistributed || !p.state.tclkPresent ||
      p.state.trustCenterAddress != t.partnerAddress || p.state.trustCenterLinkKey != t.key ||
      t.outgoingFrameCounter > p.state.tclkCounterLimit then
    (.error .invalidState, p)
  else
    persist o { p with state := (p.state.withIncomingCounter t).withCommissioned }

/-- The common end of the commits that check their record themselves. -/
def commitValidated (o : StoreOutcome) (p : CommissioningSecurityPersistence) :
    Except SecurityPersistenceError Unit × CommissioningSecurityPersistence :=
  let p := { p with state := p.state.withCommissioned }
  match p.state.validate with
  | .error _ => (.error .invalidState, p)
  | .ok _ => p.persist o

def commitDistributedNetwork (o : StoreOutcome) (p : CommissioningSecurityPersistence) :
    Except SecurityPersistenceError Unit × CommissioningSecurityPersistence :=
  if !p.state.nodeJoinLinkKeyType.isDistributed || p.state.trustCenterAddress != onesAddress ||
      p.state.tclkPresent || p.state.legacyDefaultTclk then
    (.error .invalidState, p)
  else p.commitValidated o

/-- The commit of a formed network, after its reservation. -/
def commitFormation (o : StoreOutcome) (n : NetworkSecurityState) (p : CommissioningSecurityPersistence) :
    Except SecurityPersistenceError Unit × CommissioningSecurityPersistence :=
  if n.nodeJoinLinkKeyType.isDistributed then p.commitDistributedNetwork o
  else if !p.state.isCoordinatorNetwork || p.state.tclkPresent || p.state.legacyDefaultTclk then
    (.error .invalidState, p)
  else p.commitValidated o

/-- `o` and `o'` are the outcomes of its two writes. -/
def commitFormedNetwork (o o' : StoreOutcome) (n : NetworkSecurityState) (p : CommissioningSecurityPersistence) :
    Except SecurityPersistenceError CounterReservation × CommissioningSecurityPersistence :=
  match p.reserveNetworkSecurity o n with
  | (.error e, p) => (.error e, p)
  | (.ok reservation, p) =>
    let (r, p) := p.commitFormation o' n
    (r.map fun _ => reservation, p)

end CommissioningSecurityPersistence

/-! ## The records that are written -/

namespace NetworkSecurityState

/-- Channel, PAN identifier and addresses of an operating network. -/
structure InRange (n : NetworkSecurityState) : Prop where
  channel : 11 ≤ n.channel ∧ n.channel ≤ 26
  panId : n.panId ≠ 0xFFFF
  shortAddress : n.shortAddress ≠ 0xFFFF
  ieeeAddress : n.ieeeAddress ≠ zeroAddress

/-- What the fields promise of each other: an update identifier that is not known is zero, and the
    Trust Center address of all ones is that of distributed security. -/
structure Coherent (n : NetworkSecurityState) : Prop where
  updateId : n.updateIdValid = false → n.updateId = 0
  distributed : n.nodeJoinLinkKeyType.isDistributed = true → n.trustCenterAddress = onesAddress
  centralized : n.nodeJoinLinkKeyType.isDistributed = false → n.isFormed = false →
    n.trustCenterAddress ≠ onesAddress

end NetworkSecurityState

namespace PersistentSecurityState

/-- Nothing of the previous network is still under way: no PAN identifier update, no device
    announcement and no provisional parent link. -/
structure Settled (s : PersistentSecurityState) : Prop where
  pendingPanId : s.pendingPanId = none
  deviceAnnouncePending : s.deviceAnnouncePending = false
  parentLinkProvisional : s.parentLinkProvisional = false

variable {s : PersistentSecurityState} {n : NetworkSecurityState} {t : TrustCenterLinkKeyState}
  {r r' : CounterReservation}

@[simp] theorem withNetworkSecurity_isFormedNetwork :
    (s.withNetworkSecurity n r).isFormedNetwork = n.isFormed := rfl

/-- **The reservation of a network is a consistent record exactly over a settled one.** -/
theorem withNetworkSecurity_valid_iff (hs : s.Valid) :
    (s.withNetworkSecurity n r).Valid ↔ s.Settled ∧ n.Coherent := by
  constructor
  · intro h
    refine ⟨⟨?_, ?_, ?_⟩, ?_, ?_, ?_⟩
    · by_contra hp
      obtain ⟨p, hp⟩ := Option.ne_none_iff_exists'.mp hp
      simpa [withNetworkSecurity] using (h.pendingPanId p hp).1
    · simpa [withNetworkSecurity] using h.announce
    · simpa [withNetworkSecurity] using h.provisional
    · exact h.updateId
    · intro hd
      simpa [withNetworkSecurity, hd] using (h.distributed hd).1
    · intro hd hf
      simpa [withNetworkSecurity, hd, hf] using h.centralized hd
  · rintro ⟨hset, hn⟩
    exact
      { network := by simp [withNetworkSecurity]
        coordinator := fun hf hd => by
          simp only [withNetworkSecurity_isFormedNetwork] at hf
          replace hd : n.nodeJoinLinkKeyType.isDistributed = false := hd
          simp [withNetworkSecurity, hf, hd]
        distributed := fun hd => by
          replace hd : n.nodeJoinLinkKeyType.isDistributed = true := hd
          simp [withNetworkSecurity, hd, hn.distributed hd]
        centralized := fun hd => by
          replace hd : n.nodeJoinLinkKeyType.isDistributed = false := hd
          cases hf : n.isFormed with
          | false => simpa [withNetworkSecurity, hf] using hn.centralized hd hf
          | true =>
            have hne : zeroAddress ≠ onesAddress := by decide
            simpa [withNetworkSecurity, hf, hd] using hne
        legacy := by simp [withNetworkSecurity]
        secondaryKey := by simp [withNetworkSecurity]
        noSecondaryKey := by simp [withNetworkSecurity]
        forwarding := by simp [withNetworkSecurity]
        tclk := by simp [withNetworkSecurity]
        rejoin := by simp [withNetworkSecurity]
        endDeviceTimeout := by
          simp only [withNetworkSecurity]
          decide
        updateId := hn.updateId
        pendingPanId := by simp [withNetworkSecurity, hset.pendingPanId]
        noPendingPanId := fun _ => hs.noPendingPanId hset.pendingPanId
        announce := by simp [withNetworkSecurity, hset.deviceAnnouncePending]
        provisional := by simp [withNetworkSecurity, hset.parentLinkProvisional] }

/-- **A Trust Center link key is consistent with a centralised network that the device joined.** -/
theorem withTrustCenterLinkKey_valid_iff (hs : (s.withNetworkSecurity n r).Valid)
    (hd : n.nodeJoinLinkKeyType.isDistributed = false) (hr : r'.limit ≠ 0) :
    ((s.withNetworkSecurity n r).withTrustCenterLinkKey t r').Valid ↔
      n.isFormed = false ∧ t.partnerAddress ≠ zeroAddress ∧ t.partnerAddress ≠ onesAddress := by
  constructor
  · intro h
    refine ⟨?_, (h.tclk rfl).1, h.centralized hd⟩
    by_contra hf
    have hf' : n.isFormed = true := by simpa using hf
    exact absurd (h.coordinator hf' hd).1 (by simp [withTrustCenterLinkKey])
  · rintro ⟨hf, hzero, hones⟩
    exact
      { network := by simp [withTrustCenterLinkKey, withNetworkSecurity]
        coordinator := fun hf' => by
          rw [show n.isFormed = true from hf'] at hf
          cases hf
        distributed := fun hd' => by
          rw [show n.nodeJoinLinkKeyType.isDistributed = true from hd'] at hd
          cases hd
        centralized := fun _ => hones
        legacy := by simp [withTrustCenterLinkKey]
        secondaryKey := hs.secondaryKey
        noSecondaryKey := hs.noSecondaryKey
        forwarding := hs.forwarding
        tclk := fun _ => ⟨hzero, hr⟩
        rejoin := hs.rejoin
        endDeviceTimeout := hs.endDeviceTimeout
        updateId := hs.updateId
        pendingPanId := hs.pendingPanId
        noPendingPanId := hs.noPendingPanId
        announce := hs.announce
        provisional := hs.provisional }

/-- A consistent record of an operating network may be put into commission once it has the link key
    that its kind of network needs. -/
theorem withCommissioned_valid (hs : s.Valid) (hchannel : 11 ≤ s.channel ∧ s.channel ≤ 26)
    (hpan : s.panId ≠ 0xFFFF) (hshort : s.shortAddress ≠ 0xFFFF) (hieee : s.ieeeAddress ≠ zeroAddress)
    (hlimit : s.globalCounterLimit ≠ 0)
    (hkey : s.isFormedNetwork = false → s.nodeJoinLinkKeyType.isDistributed = false → s.tclkPresent = true) :
    s.withCommissioned.Valid :=
  { network := fun _ => ⟨hchannel, hpan, hshort, hieee, hlimit, fun hf hd ht => by
      rw [show s.withCommissioned.tclkPresent = s.tclkPresent from rfl, hkey hf hd] at ht
      cases ht⟩
    coordinator := fun hf hd => by
      obtain ⟨h1, h2, h3, h4, h5, h6, -, h8⟩ := hs.coordinator hf hd
      exact ⟨h1, h2, h3, h4, h5, h6, rfl, h8⟩
    distributed := hs.distributed
    centralized := hs.centralized
    legacy := fun hl => ⟨rfl, (hs.legacy hl).2⟩
    secondaryKey := fun hk => ⟨rfl, (hs.secondaryKey hk).2⟩
    noSecondaryKey := hs.noSecondaryKey
    forwarding := fun hf => ⟨rfl, (hs.forwarding hf).2⟩
    tclk := hs.tclk
    rejoin := by simp [withCommissioned]
    endDeviceTimeout := hs.endDeviceTimeout
    updateId := hs.updateId
    pendingPanId := fun p hp => ⟨rfl, (hs.pendingPanId p hp).2⟩
    noPendingPanId := hs.noPendingPanId
    announce := fun ha => ⟨rfl, (hs.announce ha).2⟩
    provisional := fun hp => ⟨rfl, (hs.provisional hp).2⟩ }

end PersistentSecurityState

/-! ## The journal is such a store -/

open PersistentSecurityState

section

open SecurityJournal NorFlash Crash

variable {cfg : Geometry} {m : Machine} {v : View}

/-- The current record of a journal is consistent. -/
theorem current_valid (h : m.Shows cfg v) {l : LocatedState} (hcur : v.cur = some l) : l.state.Valid := by
  obtain ⟨img, -, hshow, -⟩ := h
  cases hshow with
  | blank hrec hhead => cases hcur
  | located l' hmem htop hhead hleft =>
    cases hcur
    obtain ⟨slot, -, hloc⟩ := Image.mem_records.mp hmem
    cases slot with
    | erased => simp [Slot.located] at hloc
    | replay g cells hc => simp [Slot.located] at hloc
    | record g st tag committed hv =>
      cases committed with
      | false => simp [Slot.located] at hloc
      | true =>
        simp only [Slot.located, Option.some.injEq] at hloc
        rw [← hloc]
        exact validate_ok_iff.mp hv

/-- A store plans to write its own record, or to refuse. -/
theorem storePlan_cases (cfg : Geometry) (f : Flash) (j : Journal) (s : PersistentSecurityState) :
    (∃ g tag t, storePlan cfg.toConfig f j s = .generation false g s tag t) ∨
      ∃ e, storePlan cfg.toConfig f j s = .refuse e := by
  unfold storePlan
  split
  · exact Or.inl ⟨_, _, _, rfl⟩
  · split
    · exact Or.inr ⟨_, rfl⟩
    · split
      · split
        · exact Or.inl ⟨_, _, _, rfl⟩
        · exact Or.inr ⟨_, rfl⟩
      · exact Or.inl ⟨_, _, _, rfl⟩

/-- **A journal within its capacity takes exactly the consistent records.** -/
theorem journal_accepts_iff (h : m.Shows cfg v) (hfit : v.Fits cfg)
    (hnext : ∀ l, v.cur = some l → nextGeneration l.generation ≠ none) (s : PersistentSecurityState) :
    (m.exec cfg (.store s) []).1 = .ok ↔ s.validate = .ok () := by
  refine ⟨fun hok => ?_, store_accepted h hfit hnext⟩
  obtain ⟨v', h', heff⟩ := exec_effect h (.store s) []
  rcases storePlan_cases cfg m.flash m.journal s with ⟨g, tag, t, hp⟩ | ⟨e, hp⟩
  · rw [show (Op.store s).plan cfg.toConfig m.flash m.journal = _ from hp] at heff
    rcases heff.cur with hcur | ⟨-, hs⟩
    · exact validate_ok_iff.mpr (current_valid h' hcur)
    · exact absurd hok hs
  · rw [show (Op.store s).plan cfg.toConfig m.flash m.journal = _ from hp] at heff
    rw [heff.refused.2 rfl] at hok
    cases hok

end

/-! ## Commissioning over a stored record -/

section

variable {stored : Option PersistentSecurityState} {s : PersistentSecurityState}

theorem storeRecord_done (h : s.Valid) : storeRecord .done stored s = (.ok (), some s) := by
  simp [storeRecord, validate_ok_iff.mpr h]

theorem storeRecord_done_invalid (h : ¬ s.Valid) : ∃ e, storeRecord .done stored s = (.error e, stored) := by
  rw [← validate_ok_iff] at h
  cases hv : s.validate with
  | ok u => exact absurd hv h
  | error e => exact ⟨e, by simp [storeRecord, hv]⟩

end

variable {r : CounterReservation}

theorem reserveFrom_ok {c : UInt32} (h : reserveFrom c = .ok r) : r.current = c ∧ r.limit.toNat = c.toNat + 0x400 := by
  simp only [reserveFrom] at h
  split at h
  · rename_i hlt
    cases h
    refine ⟨rfl, ?_⟩
    rw [UInt32.toNat_add, Nat.mod_eq_of_lt hlt]
    rfl
  · cases h

theorem reserveFrom_isOk {c : UInt32} (h : c.toNat + 0x400 < 2 ^ 32) : ∃ r, reserveFrom c = .ok r :=
  ⟨_, if_pos h⟩

theorem reserveFrom_limit_ne_zero {c : UInt32} (h : reserveFrom c = .ok r) : r.limit ≠ 0 := by
  intro hz
  have hlimit := (reserveFrom_ok h).2
  rw [hz] at hlimit
  have : (0 : UInt32).toNat = 0 := rfl
  omega

namespace CommissioningSecurityPersistence

variable {p : CommissioningSecurityPersistence} {s : PersistentSecurityState} {n : NetworkSecurityState}
  {t t' : TrustCenterLinkKeyState} {r : CounterReservation}

@[simp] theorem new_state : (new (some s)).state = s := rfl

theorem persist_done_of_valid (h : p.state.Valid) :
    p.persist .done = (.ok (), { p with stored := some p.state }) := by
  simp [persist, storeRecord_done h]

theorem persist_done_of_not_valid (h : ¬ p.state.Valid) : (p.persist .done).1 = .error .storage := by
  obtain ⟨e, he⟩ := (storeRecord_done_invalid h : ∃ e, storeRecord .done p.stored p.state = _)
  simp [persist, he]

theorem reserve_done_of_valid (h : s.Valid) :
    p.reserve .done s r = (.ok r, { p with state := s, stored := some s }) := by
  simp [reserve, persist_done_of_valid (p := { p with state := s }) h, Except.map]

theorem reserve_done_of_not_valid (h : ¬ s.Valid) : (p.reserve .done s r).1 = .error .storage := by
  simp [reserve, persist_done_of_not_valid (p := { p with state := s }) h, Except.map]

theorem commitNetwork_done_iff : (p.commitNetwork .done t).1 = .ok () ↔
    (p.state.nodeJoinLinkKeyType.isDistributed = false ∧ p.state.tclkPresent = true ∧
      p.state.trustCenterAddress = t.partnerAddress ∧ p.state.trustCenterLinkKey = t.key ∧
      t.outgoingFrameCounter ≤ p.state.tclkCounterLimit) ∧
    (p.state.withIncomingCounter t).withCommissioned.Valid := by
  unfold commitNetwork
  split
  · rename_i hc
    refine iff_of_false (by simp) fun ⟨⟨h1, h2, h3, h4, h5⟩, _⟩ => ?_
    simp [h1, h2, h3, h4, UInt32.not_lt.mpr h5] at hc
  · rename_i hc
    have hc' := by simpa [and_assoc] using hc
    by_cases hv : (p.state.withIncomingCounter t).withCommissioned.Valid
    · simp [persist_done_of_valid, hv, hc']
    · simp [persist_done_of_not_valid, hv]

end CommissioningSecurityPersistence

/-- What a commissioning expects of the Trust Center link key it was handed. -/
structure TrustCenterLinkKeyState.Issued (t : TrustCenterLinkKeyState) : Prop where
  keyType : t.keyType = .trustCenterLinkKey
  ne_zero : t.partnerAddress ≠ zeroAddress
  ne_ones : t.partnerAddress ≠ onesAddress

/-- The key `t` at the commit: the same key, and no counter used beyond its reservation. -/
structure TrustCenterLinkKeyState.Continues (t t' : TrustCenterLinkKeyState) (limit : UInt32) : Prop where
  partnerAddress : t'.partnerAddress = t.partnerAddress
  key : t'.key = t.key
  outgoing : t'.outgoingFrameCounter ≤ limit

/-- The join of a centralised network over the stored record `s`, on a store without faults: the
    network, then the link key `t`, then the commit with the key as it is by then.  Every step of the
    key exchange opens the store again. -/
def joinCentralized (s : PersistentSecurityState) (n : NetworkSecurityState) (t t' : TrustCenterLinkKeyState) :
    Except SecurityPersistenceError Unit :=
  let (r₁, p₁) := (CommissioningSecurityPersistence.new (some s)).reserveNetworkSecurity .done n
  let (r₂, p₂) := (CommissioningSecurityPersistence.new p₁.stored).reserveTrustCenterLinkKey .done t
  let (r₃, _) := (CommissioningSecurityPersistence.new p₂.stored).commitNetwork .done t'
  r₁.bind fun _ => r₂.bind fun _ => r₃

/-- The join of a distributed network: the network, then the commit. -/
def joinDistributed (s : PersistentSecurityState) (n : NetworkSecurityState) :
    Except SecurityPersistenceError Unit :=
  let (r₁, p₁) := (CommissioningSecurityPersistence.new (some s)).reserveNetworkSecurity .done n
  let (r₂, _) := p₁.commitDistributedNetwork .done
  r₁.bind fun _ => r₂

section

variable {s : PersistentSecurityState} {n : NetworkSecurityState} {t t' : TrustCenterLinkKeyState}

open CommissioningSecurityPersistence

theorem reserveNetworkSecurity_done {p : CommissioningSecurityPersistence}
    (hr : reserveFrom (max n.outgoingFrameCounter p.state.globalCounterLimit) = .ok r) :
    p.reserveNetworkSecurity .done n = p.reserve .done (p.state.withNetworkSecurity n r) r := by
  unfold reserveNetworkSecurity
  split
  · rename_i e he
    rw [hr] at he
    cases he
  · rename_i r' hr'
    rw [hr] at hr'
    cases hr'
    rfl

/-- An operating network as a record in commission. -/
theorem joined_valid (hn : n.InRange) (hr : r.limit ≠ 0) {s' : PersistentSecurityState} (hs' : s'.Valid)
    (hchannel : s'.channel = n.channel) (hpan : s'.panId = n.panId) (hshort : s'.shortAddress = n.shortAddress)
    (hieee : s'.ieeeAddress = n.ieeeAddress) (hlimit : s'.globalCounterLimit = r.limit)
    (hkey : s'.isFormedNetwork = false → s'.nodeJoinLinkKeyType.isDistributed = false → s'.tclkPresent = true) :
    s'.withCommissioned.Valid := by
  apply withCommissioned_valid hs' _ _ _ _ _ hkey
  · rw [hchannel]; exact hn.channel
  · rw [hpan]; exact hn.panId
  · rw [hshort]; exact hn.shortAddress
  · rw [hieee]; exact hn.ieeeAddress
  · rw [hlimit]; exact hr

theorem joinDistributed_iff (hs : s.Valid) (hn : n.InRange)
    (hcounter : (max n.outgoingFrameCounter s.globalCounterLimit).toNat + 0x400 < 2 ^ 32)
    (hd : n.nodeJoinLinkKeyType.isDistributed = true) :
    joinDistributed s n = .ok () ↔ s.Settled ∧ n.Coherent := by
  obtain ⟨r, hr⟩ := reserveFrom_isOk hcounter
  rw [← withNetworkSecurity_valid_iff (r := r) hs]
  have hreserve := reserveNetworkSecurity_done (p := .new (some s)) (n := n) hr
  simp only [joinDistributed, hreserve, new_state]
  by_cases hv : (s.withNetworkSecurity n r).Valid
  · have hc : (s.withNetworkSecurity n r).withCommissioned.Valid := by
      apply joined_valid hn (reserveFrom_limit_ne_zero hr) hv rfl rfl rfl rfl rfl
      intro _ hd'
      rw [show n.nodeJoinLinkKeyType.isDistributed = false from hd'] at hd
      cases hd
    have hdist := hv.distributed hd
    refine iff_of_true ?_ hv
    rw [reserve_done_of_valid hv]
    simp [commitDistributedNetwork, commitValidated, hdist.1, hdist.2.1, hdist.2.2.1,
      show (s.withNetworkSecurity n r).nodeJoinLinkKeyType.isDistributed = true from hd,
      validate_ok_iff.mpr hc, persist_done_of_valid, hc, Except.bind]
  · refine iff_of_false ?_ hv
    simp [reserve_done_of_not_valid hv, Except.bind]

/-- The Trust Center link key over a reserved network. -/
theorem reserveTrustCenterLinkKey_done {p : CommissioningSecurityPersistence}
    (hd : p.state.nodeJoinLinkKeyType.isDistributed = false) (ht : t.keyType = .trustCenterLinkKey)
    (hr : reserveFrom (max t.outgoingFrameCounter p.state.tclkCounterLimit) = .ok r) :
    p.reserveTrustCenterLinkKey .done t = p.reserve .done (p.state.withTrustCenterLinkKey t r) r := by
  unfold reserveTrustCenterLinkKey
  rw [if_neg (by simp [hd, ht])]
  split
  · rename_i e he
    rw [hr] at he
    cases he
  · rename_i r' hr'
    rw [hr] at hr'
    cases hr'
    rfl

theorem joinCentralized_iff (hs : s.Valid) (hn : n.InRange)
    (hcounter : (max n.outgoingFrameCounter s.globalCounterLimit).toNat + 0x400 < 2 ^ 32)
    (hd : n.nodeJoinLinkKeyType.isDistributed = false)
    (htclk : (max t.outgoingFrameCounter s.tclkCounterLimit).toNat + 0x400 < 2 ^ 32) :
    joinCentralized s n t t' = .ok () ↔
      s.Settled ∧ n.Coherent ∧ n.isFormed = false ∧ t.Issued ∧
        t.Continues t' (max t.outgoingFrameCounter s.tclkCounterLimit + FRAME_COUNTER_RESERVATION_SIZE) := by
  obtain ⟨r, hr⟩ := reserveFrom_isOk hcounter
  rw [← and_assoc, ← withNetworkSecurity_valid_iff (r := r) hs]
  have hreserve := reserveNetworkSecurity_done (p := .new (some s)) (n := n) hr
  simp only [joinCentralized, hreserve, new_state]
  by_cases hv : (s.withNetworkSecurity n r).Valid
  swap
  · refine iff_of_false ?_ fun h => hv h.1
    simp [reserve_done_of_not_valid hv, Except.bind]
  rw [reserve_done_of_valid hv]
  obtain ⟨r', hr'⟩ := reserveFrom_isOk htclk
  have htclk' : reserveFrom (max t.outgoingFrameCounter (s.withNetworkSecurity n r).tclkCounterLimit) =
      .ok r' := by
    simpa [withNetworkSecurity, hd] using hr'
  have hlimit : r'.limit = max t.outgoingFrameCounter s.tclkCounterLimit + FRAME_COUNTER_RESERVATION_SIZE := by
    simp only [reserveFrom] at hr'
    split at hr' <;> cases hr'
    rfl
  by_cases hkey : t.keyType = .trustCenterLinkKey
  swap
  · refine iff_of_false ?_ fun h => hkey h.2.2.1.keyType
    simp [reserveTrustCenterLinkKey, hkey, Except.bind]
  have hsecond := reserveTrustCenterLinkKey_done (p := .new (some (s.withNetworkSecurity n r))) hd hkey htclk'
  simp only [hsecond, new_state]
  by_cases hv' : ((s.withNetworkSecurity n r).withTrustCenterLinkKey t r').Valid
  swap
  · refine iff_of_false ?_ fun h => hv' ?_
    · simp [reserve_done_of_not_valid hv', Except.bind]
    · exact (withTrustCenterLinkKey_valid_iff hv hd (reserveFrom_limit_ne_zero hr')).mpr
        ⟨h.2.1, h.2.2.1.ne_zero, h.2.2.1.ne_ones⟩
  rw [reserve_done_of_valid hv']
  obtain ⟨hformed, hzero, hones⟩ :=
    (withTrustCenterLinkKey_valid_iff hv hd (reserveFrom_limit_ne_zero hr')).mp hv'
  simp only [Except.bind, commitNetwork_done_iff, new_state]
  -- the record of the commit is that of a key with the newer incoming counter
  have hc : (((s.withNetworkSecurity n r).withTrustCenterLinkKey t r').withIncomingCounter t').withCommissioned.Valid := by
    have hkey' := (withTrustCenterLinkKey_valid_iff (t := { t with
      incomingFrameCounter := t'.incomingFrameCounter
      incomingFrameCounterValid := t'.incomingFrameCounterValid }) hv hd (reserveFrom_limit_ne_zero hr')).mpr
        ⟨hformed, hzero, hones⟩
    exact joined_valid hn (reserveFrom_limit_ne_zero hr) hkey' rfl rfl rfl rfl rfl fun _ _ => rfl
  constructor
  · rintro ⟨⟨-, -, haddress, hk, hout⟩, -⟩
    exact ⟨hv, hformed, ⟨hkey, hzero, hones⟩, haddress.symm, hk.symm, le_of_le_of_eq hout hlimit⟩
  · rintro ⟨-, -, -, haddress, hk, hout⟩
    exact ⟨⟨hd, rfl, haddress.symm, hk.symm, le_of_le_of_eq hout hlimit.symm⟩, hc⟩

end

/-- **Which records a new network may be commissioned over.**  For every consistent stored record and
    every network state in range, with room for one more reservation: all writes of a centralised, or
    of a distributed, join are accepted exactly when the record is settled, and the network state and
    the link key are what their fields promise.  And accepted is what the journal accepts. -/
theorem recommissioning_accepted_iff {s : PersistentSecurityState} (hs : s.validate = .ok ())
    {n : NetworkSecurityState} (hn : n.InRange)
    (hcounter : (max n.outgoingFrameCounter s.globalCounterLimit).toNat + 0x400 < 2 ^ 32) :
    (n.nodeJoinLinkKeyType.isDistributed = false → ∀ t t' : TrustCenterLinkKeyState,
      (max t.outgoingFrameCounter s.tclkCounterLimit).toNat + 0x400 < 2 ^ 32 →
      (joinCentralized s n t t' = .ok () ↔
        s.Settled ∧ n.Coherent ∧ n.isFormed = false ∧ t.Issued ∧
          t.Continues t' (max t.outgoingFrameCounter s.tclkCounterLimit + FRAME_COUNTER_RESERVATION_SIZE))) ∧
    (n.nodeJoinLinkKeyType.isDistributed = true →
      (joinDistributed s n = .ok () ↔ s.Settled ∧ n.Coherent)) ∧
    ∀ {cfg : SecurityJournal.Geometry} {m : SecurityJournal.Machine} {v : SecurityJournal.View},
      m.Shows cfg v → v.Fits cfg →
      (∀ l, v.cur = some l → SecurityJournal.nextGeneration l.generation ≠ none) →
      ∀ w : PersistentSecurityState, (m.exec cfg (.store w) []).1 = .ok ↔ w.validate = .ok () := by
  have hs' := validate_ok_iff.mp hs
  refine ⟨fun hd t t' htclk => ?_, fun hd => ?_, fun h hfit hnext w => ?_⟩
  · exact joinCentralized_iff hs' hn hcounter hd htclk
  · exact joinDistributed_iff hs' hn hcounter hd
  · exact journal_accepts_iff h hfit hnext w

/-- A node of a centralised network at rest. -/
def memberState : PersistentSecurityState :=
  { PersistentSecurityState.empty with
    commissioned := true
    panId := 0x1A62
    shortAddress := 0x4F2C
    ieeeAddress := Vector.replicate 8 0x11
    channel := 15
    depth := 1
    updateIdValid := true
    globalCounterLimit := 0x400
    tclkPresent := true
    trustCenterAddress := Vector.replicate 8 0x22
    tclkCounterLimit := 0x400 }

/-- The network that the node is to join next, and the link key it gets there. -/
def nextNetwork : NetworkSecurityState where
  extendedPanId := Vector.replicate 8 0x33
  panId := 0x2B73
  shortAddress := 0x5E01
  ieeeAddress := Vector.replicate 8 0x11
  channel := 20
  depth := 1
  parentAddress := 0
  updateId := 0
  updateIdValid := true
  networkKey := Vector.replicate 16 0x44
  keySequence := 0
  outgoingFrameCounter := 0
  trustCenterAddress := Vector.replicate 8 0x33
  nodeJoinLinkKeyType := .defaultGlobalTrustCenterLinkKey

def nextKey : TrustCenterLinkKeyState where
  partnerAddress := Vector.replicate 8 0x33
  key := Vector.replicate 16 0x55
  keyType := .trustCenterLinkKey
  outgoingFrameCounter := 0
  incomingFrameCounter := 0
  incomingFrameCounterValid := false

theorem nextNetwork_inRange : nextNetwork.InRange := by constructor <;> decide

theorem nextNetwork_coherent : nextNetwork.Coherent := by constructor <;> decide

theorem member_moves : joinCentralized memberState nextNetwork nextKey nextKey = .ok () :=
  ((recommissioning_accepted_iff (s := memberState) (by decide) nextNetwork_inRange (by decide)).1
      (by decide) nextKey nextKey (by decide)).mpr
    ⟨⟨rfl, rfl, rfl⟩, nextNetwork_coherent, by decide, ⟨rfl, by decide, by decide⟩, rfl, rfl, by decide⟩

/-- The same node with its announcement after a rejoin still to be sent: the new network is refused. -/
theorem announcing_member_refused :
    ({ memberState with deviceAnnouncePending := true } : PersistentSecurityState).validate = .ok () ∧
      nextNetwork.InRange ∧ nextNetwork.Coherent ∧
      joinCentralized { memberState with deviceAnnouncePending := true } nextNetwork nextKey nextKey =
        .error .storage := by
  refine ⟨by decide, nextNetwork_inRange, nextNetwork_coherent, by decide⟩

end Zigbee.Runtime
