import Zigbee.Aps.Security
import Zigbee.Lib.Returns
import Zigbee.Runtime.Commissioning

/-!
# The other writers of the security record

Model of the functions of `zigbee-runtime/src/lib.rs` that write a `PersistentSecurityState` outside a
commissioning: the restores after a boot, the rejoins, the refresh of counters and the resets.  Each
reads the stored record and gives the record it asks the store to keep, `none` when it asks for
nothing.

`Rewrite.apply_limits`: none of them lowers a counter limit.
-/

namespace Zigbee.Runtime

open Aps (ApsSecurity)
open PersistentSecurityState

/-- What the rewrites read of the NIB. -/
structure NibSnapshot where
  ieeeAddress : IeeeAddress
  extendedPanId : IeeeAddress
  panId : UInt16
  networkAddress : UInt16
  logicalChannel : UInt8
  depth : UInt8
  parentAddress : UInt16
  /-- `nwk_update_id()`, `none` while it is not known. -/
  nwkUpdateId : Option UInt8
  activeKeySeqNumber : UInt8
  outgoingFrameCounter : UInt32
  outgoingFrameCounterLimit : UInt32
  parentInformation : UInt8
  parentInformationValid : Bool
  endDeviceTimeout : UInt8
  deviceAnnouncePending : Bool
  parentLinkProvisional : Bool

/-- "ZigBeeAlliance09". -/
def DEFAULT_TC_LINK_KEY : AesKey :=
  #v[0x5A, 0x69, 0x67, 0x42, 0x65, 0x65, 0x41, 0x6C, 0x6C, 0x69, 0x61, 0x6E, 0x63, 0x65, 0x30, 0x39]

/-- `limit.checked_add(FRAME_COUNTER_RESERVATION_SIZE)`. -/
def reserveEnd (current : UInt32) : Except SecurityStoreError UInt32 :=
  if current.toNat + FRAME_COUNTER_RESERVATION_SIZE.toNat < 2 ^ 32 then
    .ok (current + FRAME_COUNTER_RESERVATION_SIZE)
  else .error .counterExhausted

def loadValidSecurityState (stored : Option PersistentSecurityState) :
    Except SecurityStoreError PersistentSecurityState := do
  match stored with
  | none => throw .notFound
  | some s =>
    s.validate
    return s

def loadCommissionedSecurityState (stored : Option PersistentSecurityState) :
    Except SecurityStoreError (Option PersistentSecurityState) := do
  match stored with
  | none => return none
  | some s =>
    s.validate
    return if s.commissioned then some s else none

def checkRestoredIeee (configuredIeee : IeeeAddress) (s : PersistentSecurityState) :
    Except SecurityStoreError Unit :=
  if configuredIeee != zeroAddress && configuredIeee != s.ieeeAddress then .error .corrupt else .ok ()

/-! ## Restores -/

/-- `distributedSecurity` is the build feature of that name. -/
def restoreSteeringSecurityState (distributedSecurity deviceIsCoordinator : Bool) (configuredIeee : IeeeAddress)
    (stored : Option PersistentSecurityState) : Except SecurityStoreError (Option PersistentSecurityState) := do
  match ← loadCommissionedSecurityState stored with
  | none => return none
  | some s =>
    if deviceIsCoordinator || s.isFormedNetwork then throw .corrupt
    if !distributedSecurity && s.nodeJoinLinkKeyType.isDistributed then throw .corrupt
    checkRestoredIeee configuredIeee s
    let globalLimit ← reserveEnd s.globalCounterLimit
    if !distributedSecurity || s.tclkPresent || s.legacyDefaultTclk then
      let tclkLimit ← reserveEnd s.tclkCounterLimit
      return some { s with globalCounterLimit := globalLimit, tclkCounterLimit := tclkLimit }
    else
      return some { s with globalCounterLimit := globalLimit }

/-- The restores of a formed network: `owned` tells the coordinator's from the distributed one's. -/
def restoreFormedSecurityState (device owned : Bool) (configuredIeee : IeeeAddress)
    (s : PersistentSecurityState) : Except SecurityStoreError (Option PersistentSecurityState) := do
  if !device || !owned then throw .corrupt
  checkRestoredIeee configuredIeee s
  let globalLimit ← reserveEnd s.globalCounterLimit
  return some { s with globalCounterLimit := globalLimit }

def restoreCoordinatorSecurityState (deviceIsCoordinator : Bool) (configuredIeee : IeeeAddress)
    (stored : Option PersistentSecurityState) : Except SecurityStoreError (Option PersistentSecurityState) := do
  match ← loadCommissionedSecurityState stored with
  | none => return none
  | some s => restoreFormedSecurityState deviceIsCoordinator s.isCoordinatorNetwork configuredIeee s

def restoreDistributedNetworkSecurityState (deviceIsRouter : Bool) (configuredIeee : IeeeAddress)
    (stored : Option PersistentSecurityState) : Except SecurityStoreError (Option PersistentSecurityState) := do
  match ← loadCommissionedSecurityState stored with
  | none => return none
  | some s =>
    restoreFormedSecurityState deviceIsRouter (s.isFormedNetwork && s.nodeJoinLinkKeyType.isDistributed)
      configuredIeee s

/-! ## Rejoins -/

/-- The network position that a rejoin selected. -/
def copyRejoinedLocation (s : PersistentSecurityState) (nib : NibSnapshot) : PersistentSecurityState :=
  { s with
    extendedPanId := nib.extendedPanId
    panId := nib.panId
    shortAddress := nib.networkAddress
    channel := nib.logicalChannel
    depth := nib.depth
    parentAddress := nib.parentAddress
    updateId := nib.nwkUpdateId.getD 0
    updateIdValid := nib.nwkUpdateId.isSome
    parentInformation := nib.parentInformation
    parentInformationValid := nib.parentInformationValid
    endDeviceTimeout := nib.endDeviceTimeout }

def persistRejoinPending (pending : Bool) (stored : Option PersistentSecurityState) :
    Except SecurityStoreError (Option PersistentSecurityState) := do
  let s ← loadValidSecurityState stored
  if !s.commissioned then throw .corrupt
  return if s.rejoinPending != pending then some { s with rejoinPending := pending } else none

/-- The checkpoint of `secure_rejoin_with_security_store`. -/
def persistSecureRejoin (nib : NibSnapshot) (stored : Option PersistentSecurityState) :
    Except SecurityStoreError (Option PersistentSecurityState) := do
  let s ← loadValidSecurityState stored
  return some { copyRejoinedLocation s nib with
    rejoinPending := false
    deviceAnnouncePending := true
    parentLinkProvisional := false }

/-- `classify_rejoin_fallback` gives `TrustCenterRejoin`. -/
def isTrustCenterRejoinable (s : PersistentSecurityState) : Bool :=
  s.commissioned && !s.isFormedNetwork && !s.nodeJoinLinkKeyType.isDistributed

/-- The link-key part of a Trust Center rejoin: the new incoming floor of the unique key, or the
    adoption of the default key by a network that had none. -/
def rejoinedTrustCenterLinkKey (trustCenterAddress : IeeeAddress) (keys : ApsSecurity) (replay : ApsReplayCounter)
    (s : PersistentSecurityState) : Except SecurityStoreError PersistentSecurityState := do
  if s.tclkPresent then
    match keys.findKey s.trustCenterAddress .trustCenterLinkKey with
    | none => throw .corrupt
    | some tclk =>
      if tclk.key != s.trustCenterLinkKey || tclk.outgoingFrameCounter > s.tclkCounterLimit then throw .corrupt
      if replay.origin != .keyPair s.trustCenterAddress .trustCenterLinkKey then throw .corrupt
      return { s with
        tclkIncomingCounter := max tclk.incomingFrameCounter replay.counter
        tclkIncomingCounterValid := true }
  else
    if !s.legacyDefaultTclk || trustCenterAddress == zeroAddress || trustCenterAddress == onesAddress ||
        replay.origin != .preconfiguredGlobal trustCenterAddress then throw .corrupt
    let tclkLimit ← reserveEnd s.tclkCounterLimit
    return { s with
      tclkPresent := true
      legacyDefaultTclk := false
      trustCenterAddress
      trustCenterLinkKey := DEFAULT_TC_LINK_KEY
      tclkCounterLimit := tclkLimit
      tclkIncomingCounter := replay.counter
      tclkIncomingCounterValid := true }

def persistTrustCenterRejoinNetwork (nib : NibSnapshot) (activeKey : Option (AesKey × UInt8))
    (trustCenterAddress : IeeeAddress) (keys : ApsSecurity) (replay : ApsReplayCounter)
    (stored : Option PersistentSecurityState) : Except SecurityStoreError (Option PersistentSecurityState) := do
  let s ← loadValidSecurityState stored
  if !isTrustCenterRejoinable s || (!s.tclkPresent && !s.legacyDefaultTclk) then throw .corrupt
  match activeKey with
  | none => throw .corrupt
  | some (networkKey, keySequence) =>
    let limit ← reserveEnd (max nib.outgoingFrameCounter s.globalCounterLimit)
    let s' ← rejoinedTrustCenterLinkKey trustCenterAddress keys replay { copyRejoinedLocation s nib with
      ieeeAddress := nib.ieeeAddress
      networkKey
      keySequence
      stagedNetworkKeyPresent := false
      stagedNetworkKey := zeroKey
      stagedKeySequence := 0
      secondaryNetworkKeyIsPrevious := false
      networkKeyForwardingPending := false
      globalCounterLimit := limit
      rejoinPending := true
      deviceAnnouncePending := true
      parentLinkProvisional := true }
    s'.validate
    if !s.tclkPresent && keys.maxKeyTableEntries ≤ keys.keyTable.length then throw .full
    return some s'

/-! ## The refresh -/

/-- `NetworkKeyForwardingIntent`. -/
inductive NetworkKeyForwardingIntent where
  | stop
  | forward (sequence : UInt8)

/-- The live security state that a refresh compares with the record.  `isParent` and `intent` are of a
    router build. -/
structure LiveSecurity where
  deviceIsCoordinator : Bool
  distributedSecurity : Bool
  isParent : Bool
  nib : NibSnapshot
  activeKey : Option (AesKey × UInt8)
  stagedKey : Option (AesKey × UInt8)
  secondaryKey : Option (AesKey × UInt8)
  forwardingIntent : Option NetworkKeyForwardingIntent
  pendingPanIdUpdate : Option UInt16
  panIdUpdateBroadcastPending : Bool
  keys : ApsSecurity

namespace LiveSecurity

variable (live : LiveSecurity)

/-- The inactive key that a record with a forwarding intent was written for is still the target. -/
def sameForwardingTarget (s : PersistentSecurityState) (active : AesKey × UInt8) : Bool :=
  if s.secondaryNetworkKeyIsPrevious then
    live.stagedKey.isNone && s.networkKey == active.1 && s.keySequence == active.2
  else (live.stagedKey.getD active) == (s.stagedNetworkKey, s.stagedKeySequence)

/-- Network keys and the forwarding intent. -/
def adoptKeys (s : PersistentSecurityState) (active : AesKey × UInt8) : PersistentSecurityState :=
  { s with
    networkKeyForwardingPending :=
      match live.forwardingIntent with
      | some .stop => false
      | some (.forward sequence) => live.isParent && live.stagedKey.map (·.2) == some sequence
      | none =>
        s.networkKeyForwardingPending && live.sameForwardingTarget s active && live.secondaryKey.isSome &&
          live.isParent
    networkKey := active.1
    keySequence := active.2
    stagedNetworkKeyPresent := live.secondaryKey.isSome
    stagedNetworkKey := (live.secondaryKey.map (·.1)).getD zeroKey
    stagedKeySequence := (live.secondaryKey.map (·.2)).getD 0
    secondaryNetworkKeyIsPrevious :=
      live.secondaryKey.isSome && live.stagedKey.map (·.2) != live.secondaryKey.map (·.2) }

/-- Addresses, lifecycle and the End Device Timeout negotiation. -/
def adoptNib (s : PersistentSecurityState) : PersistentSecurityState :=
  { s with
    updateId := live.nib.nwkUpdateId.getD s.updateId
    updateIdValid := live.nib.nwkUpdateId.isSome || s.updateIdValid
    pendingPanId := live.pendingPanIdUpdate
    pendingPanIdBroadcast := live.panIdUpdateBroadcastPending
    deviceAnnouncePending := live.nib.deviceAnnouncePending
    parentLinkProvisional := live.nib.parentLinkProvisional
    parentInformation := live.nib.parentInformation
    parentInformationValid := live.nib.parentInformationValid
    endDeviceTimeout := live.nib.endDeviceTimeout
    panId := live.nib.panId
    -- an address of the reserved range is not adopted
    shortAddress := if live.nib.networkAddress < 0xFFF8 then live.nib.networkAddress else s.shortAddress }

/-- The counters of the installed unique Trust Center link key. -/
structure TclkCounters where
  outgoing : UInt32
  limit : UInt32
  incoming : UInt32
  incomingValid : Bool

/-- A transported key, taken over with a reservation of its own. -/
def adoptTclk (s : PersistentSecurityState) (tclk : Aps.ApsLinkKeyEntry) :
    Except SecurityStoreError (PersistentSecurityState × Option TclkCounters) := do
  let current := max tclk.outgoingFrameCounter s.tclkCounterLimit
  let limit ← reserveEnd current
  return ({ s with
      trustCenterLinkKey := tclk.key
      tclkCounterLimit := limit
      tclkIncomingCounter := tclk.incomingFrameCounter
      tclkIncomingCounterValid := tclk.incomingFrameCounterValid },
    some ⟨current, limit, tclk.incomingFrameCounter, tclk.incomingFrameCounterValid⟩)

/-- The unique Trust Center link key, and its counters when there is one. -/
def refreshTclk (coordinator : Bool) (s : PersistentSecurityState) :
    Except SecurityStoreError (PersistentSecurityState × Option TclkCounters) := do
  if coordinator then return (s, none)
  if s.tclkPresent then
    match live.keys.findKey s.trustCenterAddress .trustCenterLinkKey with
    | none => throw .corrupt
    | some tclk =>
      if tclk.key != s.trustCenterLinkKey then adoptTclk s tclk
      else
        if tclk.outgoingFrameCounter > tclk.outgoingFrameCounterLimit ||
            tclk.outgoingFrameCounterLimit != s.tclkCounterLimit then throw .corrupt
        return (s, some ⟨tclk.outgoingFrameCounter, tclk.outgoingFrameCounterLimit, tclk.incomingFrameCounter,
          tclk.incomingFrameCounterValid⟩)
  else if live.distributedSecurity && s.nodeJoinLinkKeyType.isDistributed then return (s, none)
  else
    match live.keys.keyTable.find? (·.keyType == .trustCenterLinkKey) with
    | none => return (s, none)
    | some tclk =>
      let adopted ← adoptTclk
        { s with tclkPresent := true, legacyDefaultTclk := false, trustCenterAddress := tclk.partnerAddress } tclk
      adopted.1.validate
      return adopted

/-- The end of a reservation of which at most 32 counters are left moves on. -/
def extendLow (current limit : UInt32) : Except SecurityStoreError UInt32 :=
  if limit.toNat - current.toNat ≤ 32 then reserveEnd limit else .ok limit

/-- The counters of the record, as far as their reservations are used up. -/
def refreshCounters (s : PersistentSecurityState) (tclk : Option TclkCounters) :
    Except SecurityStoreError PersistentSecurityState := do
  let globalLimit ← extendLow live.nib.outgoingFrameCounter live.nib.outgoingFrameCounterLimit
  match tclk with
  | none => return { s with globalCounterLimit := globalLimit }
  | some t =>
    let tclkLimit ← extendLow t.outgoing t.limit
    return { s with
      globalCounterLimit := globalLimit
      tclkCounterLimit := tclkLimit
      tclkIncomingCounter := t.incoming
      tclkIncomingCounterValid := t.incomingValid }

end LiveSecurity

/-- The record is written when more than an incoming floor changed. -/
def refreshSecurityState (live : LiveSecurity) (stored : Option PersistentSecurityState) :
    Except SecurityStoreError (Option PersistentSecurityState) := do
  match ← loadCommissionedSecurityState stored with
  | none => return none
  | some s =>
    if s.isCoordinatorNetwork != live.deviceIsCoordinator then throw .corrupt
    match live.activeKey with
    | none => throw .corrupt
    | some active =>
      if live.nib.ieeeAddress != s.ieeeAddress || live.nib.extendedPanId != s.extendedPanId ||
          live.nib.outgoingFrameCounter > live.nib.outgoingFrameCounterLimit ||
          live.nib.outgoingFrameCounterLimit != s.globalCounterLimit ||
          live.nib.activeKeySeqNumber != active.2 then throw .corrupt
      let (s', tclk) ← live.refreshTclk s.isCoordinatorNetwork (live.adoptNib (live.adoptKeys s active))
      let s'' ← live.refreshCounters s' tclk
      return if { s'' with
          tclkIncomingCounter := s.tclkIncomingCounter
          tclkIncomingCounterValid := s.tclkIncomingCounterValid } = s then none else some s''

/-! ## Resets -/

/-- Clear the commissioned state and keep the outgoing counter bounds. -/
def factoryResetSecurityState (stored : Option PersistentSecurityState) : PersistentSecurityState :=
  { PersistentSecurityState.empty with
    globalCounterLimit := (stored.map (·.globalCounterLimit)).getD 0
    tclkCounterLimit := (stored.map (·.tclkCounterLimit)).getD 0 }

def resetSecurityStateIfIdentityChanged (configuredIeee : IeeeAddress) (stored : Option PersistentSecurityState) :
    Option PersistentSecurityState :=
  stored.bind fun s =>
    if s.ieeeAddress == zeroAddress || s.ieeeAddress == configuredIeee then none
    else some (factoryResetSecurityState stored)

/-! ## All of them -/

inductive Rewrite where
  | restoreSteering (distributedSecurity deviceIsCoordinator : Bool) (configuredIeee : IeeeAddress)
  | restoreCoordinator (deviceIsCoordinator : Bool) (configuredIeee : IeeeAddress)
  | restoreDistributedNetwork (deviceIsRouter : Bool) (configuredIeee : IeeeAddress)
  | rejoinPending (pending : Bool)
  | secureRejoin (nib : NibSnapshot)
  | trustCenterRejoin (nib : NibSnapshot) (activeKey : Option (AesKey × UInt8)) (trustCenterAddress : IeeeAddress)
      (keys : ApsSecurity) (replay : ApsReplayCounter)
  | refresh (live : LiveSecurity)
  | factoryReset
  | identityChange (configuredIeee : IeeeAddress)
  /-- The journal's own, when it opens a record of another role. -/
  | selectRoleTag

/-- The record that the store is asked to keep. -/
def Rewrite.apply (stored : Option PersistentSecurityState) :
    Rewrite → Except SecurityStoreError (Option PersistentSecurityState)
  | .restoreSteering distributed coordinator ieee =>
    restoreSteeringSecurityState distributed coordinator ieee stored
  | .restoreCoordinator coordinator ieee => restoreCoordinatorSecurityState coordinator ieee stored
  | .restoreDistributedNetwork router ieee => restoreDistributedNetworkSecurityState router ieee stored
  | .rejoinPending pending => persistRejoinPending pending stored
  | .secureRejoin nib => persistSecureRejoin nib stored
  | .trustCenterRejoin nib activeKey trustCenter keys replay =>
    persistTrustCenterRejoinNetwork nib activeKey trustCenter keys replay stored
  | .refresh live => refreshSecurityState live stored
  | .factoryReset => .ok (some (factoryResetSecurityState stored))
  | .identityChange ieee => .ok (resetSecurityStateIfIdentityChanged ieee stored)
  | .selectRoleTag => .ok (stored.map SecurityJournal.clearedState)

/-- No counter limit of `s` is above that of `s'`. -/
structure PersistentSecurityState.LimitsLe (s s' : PersistentSecurityState) : Prop where
  global : s.globalCounterLimit.toNat ≤ s'.globalCounterLimit.toNat
  tclk : s.tclkCounterLimit.toNat ≤ s'.tclkCounterLimit.toNat

theorem PersistentSecurityState.LimitsLe.of_eq {s s' : PersistentSecurityState}
    (hglobal : s.globalCounterLimit = s'.globalCounterLimit) (htclk : s.tclkCounterLimit = s'.tclkCounterLimit) :
    s.LimitsLe s' :=
  ⟨(congrArg UInt32.toNat hglobal).le, (congrArg UInt32.toNat htclk).le⟩

/-- A record to write, if any, is above the stored one. -/
def Raises (stored written : Option PersistentSecurityState) : Prop :=
  ∀ s', written = some s' → ∀ s, stored = some s → s.LimitsLe s'

theorem raises_none {stored : Option PersistentSecurityState} : Raises stored none := by
  intro s' hs'
  cases hs'

theorem raises_some {s s' : PersistentSecurityState} (h : s.LimitsLe s') : Raises (some s) (some s') := by
  intro t' ht' t ht
  cases ht'
  cases ht
  exact h

theorem toNat_max (a b : UInt32) : (max a b).toNat = max a.toNat b.toNat := by
  simp only [max, UInt32.le_iff_toNat_le]
  split <;> rfl

theorem le_toNat_max_right (a b : UInt32) : b.toNat ≤ (max a b).toNat := by
  rw [toNat_max]
  exact le_max_right _ _

theorem reserveEnd_returns (c : UInt32) : Returns (reserveEnd c) fun limit => c.toNat ≤ limit.toNat := by
  unfold reserveEnd
  refine returns_ite (fun h => returns_ok ?_) fun _ => returns_error _
  rw [UInt32.toNat_add, Nat.mod_eq_of_lt h]
  exact Nat.le_add_right _ _

theorem extendLow_returns (current limit : UInt32) :
    Returns (LiveSecurity.extendLow current limit) fun limit' => limit.toNat ≤ limit'.toNat := by
  unfold LiveSecurity.extendLow
  exact returns_ite (fun _ => reserveEnd_returns limit) fun _ => returns_ok (le_rfl)

theorem loadValidSecurityState_returns (stored : Option PersistentSecurityState) :
    Returns (loadValidSecurityState stored) (stored = some ·) := by
  cases stored with
  | none => exact returns_throw _
  | some s => exact returns_check fun _ => returns_pure rfl

theorem loadCommissionedSecurityState_returns (stored : Option PersistentSecurityState) :
    Returns (loadCommissionedSecurityState stored) fun loaded => ∀ s, loaded = some s → stored = some s := by
  cases stored with
  | none => exact returns_pure (by simp)
  | some s =>
    refine returns_check fun _ => returns_pure fun s' hs' => ?_
    split at hs'
    · exact hs'
    · cases hs'

/-- What runs on the commissioned record, if there is one. -/
theorem commissioned_returns {stored : Option PersistentSecurityState}
    {k : Option PersistentSecurityState → Except SecurityStoreError (Option PersistentSecurityState)} (hnone : k none = .ok none)
    (hsome : ∀ s, Returns (k (some s)) (Raises (some s))) : Returns (loadCommissionedSecurityState stored >>= k) (Raises stored) := by
  refine returns_bind (loadCommissionedSecurityState_returns stored) fun loaded hloaded => ?_
  cases loaded with
  | none => exact hnone ▸ returns_pure raises_none
  | some s =>
    rw [hloaded s rfl]
    exact hsome s

theorem restoreFormedSecurityState_returns (device owned : Bool) (ieee : IeeeAddress) (s : PersistentSecurityState) :
    Returns (restoreFormedSecurityState device owned ieee s) (Raises (some s)) := by
  unfold restoreFormedSecurityState
  refine returns_guard fun _ => returns_check fun _ => ?_
  refine returns_bind (reserveEnd_returns _) fun limit hlimit => returns_pure (raises_some ?_)
  exact ⟨hlimit, le_rfl⟩

theorem restoreSteeringSecurityState_returns (distributed coordinator : Bool) (ieee : IeeeAddress)
    (stored : Option PersistentSecurityState) :
    Returns (restoreSteeringSecurityState distributed coordinator ieee stored) (Raises stored) := by
  unfold restoreSteeringSecurityState
  refine commissioned_returns rfl fun s => ?_
  refine returns_guard fun _ => returns_guard fun _ => returns_check fun _ => ?_
  refine returns_bind (reserveEnd_returns _) fun globalLimit hglobal => returns_ite (fun _ => ?_) fun _ => ?_
  · refine returns_bind (reserveEnd_returns _) fun tclkLimit htclk => returns_pure (raises_some ?_)
    exact ⟨hglobal, htclk⟩
  · exact returns_pure (raises_some ⟨hglobal, le_rfl⟩)

theorem restoreCoordinatorSecurityState_returns (coordinator : Bool) (ieee : IeeeAddress)
    (stored : Option PersistentSecurityState) :
    Returns (restoreCoordinatorSecurityState coordinator ieee stored) (Raises stored) := by
  unfold restoreCoordinatorSecurityState
  exact commissioned_returns rfl fun s => restoreFormedSecurityState_returns _ _ _ s

theorem restoreDistributedNetworkSecurityState_returns (router : Bool) (ieee : IeeeAddress)
    (stored : Option PersistentSecurityState) :
    Returns (restoreDistributedNetworkSecurityState router ieee stored) (Raises stored) := by
  unfold restoreDistributedNetworkSecurityState
  exact commissioned_returns rfl fun s => restoreFormedSecurityState_returns _ _ _ s

theorem persistRejoinPending_returns (pending : Bool) (stored : Option PersistentSecurityState) :
    Returns (persistRejoinPending pending stored) (Raises stored) := by
  unfold persistRejoinPending
  refine returns_bind (loadValidSecurityState_returns stored) fun s hs => ?_
  subst hs
  refine returns_guard fun _ => returns_pure ?_
  split
  · exact raises_some (.of_eq rfl rfl)
  · exact raises_none

theorem persistSecureRejoin_returns (nib : NibSnapshot) (stored : Option PersistentSecurityState) :
    Returns (persistSecureRejoin nib stored) (Raises stored) := by
  unfold persistSecureRejoin
  refine returns_bind (loadValidSecurityState_returns stored) fun s hs => ?_
  subst hs
  exact returns_pure (raises_some (.of_eq rfl rfl))

theorem rejoinedTrustCenterLinkKey_returns (trustCenter : IeeeAddress) (keys : ApsSecurity)
    (replay : ApsReplayCounter) (s : PersistentSecurityState) :
    Returns (rejoinedTrustCenterLinkKey trustCenter keys replay s) s.LimitsLe := by
  unfold rejoinedTrustCenterLinkKey
  refine returns_ite (fun _ => ?_) fun _ => ?_
  · split
    · exact returns_throw _
    · exact returns_guard fun _ => returns_guard fun _ => returns_pure (.of_eq rfl rfl)
  · refine returns_guard fun _ => returns_bind (reserveEnd_returns _) fun limit hlimit => returns_pure ?_
    exact ⟨le_rfl, hlimit⟩

theorem persistTrustCenterRejoinNetwork_returns (nib : NibSnapshot) (activeKey : Option (AesKey × UInt8))
    (trustCenter : IeeeAddress) (keys : ApsSecurity) (replay : ApsReplayCounter)
    (stored : Option PersistentSecurityState) :
    Returns (persistTrustCenterRejoinNetwork nib activeKey trustCenter keys replay stored) (Raises stored) := by
  unfold persistTrustCenterRejoinNetwork
  refine returns_bind (loadValidSecurityState_returns stored) fun s hs => ?_
  subst hs
  refine returns_guard fun _ => ?_
  split
  · exact returns_throw _
  · refine returns_bind (reserveEnd_returns _) fun limit hlimit => ?_
    refine returns_bind (rejoinedTrustCenterLinkKey_returns _ _ _ _) fun s' hs' => ?_
    refine returns_check fun _ => returns_guard fun _ => returns_pure (raises_some ?_)
    exact ⟨((le_toNat_max_right _ _).trans hlimit).trans hs'.global, hs'.tclk⟩

namespace LiveSecurity

variable (live : LiveSecurity)

/-- The record and the counters after the link key of `s` was looked up: the limit of the counters, where
    there are any, is the one of the record. -/
structure Adopts (s : PersistentSecurityState) (r : PersistentSecurityState × Option TclkCounters) : Prop where
  global : r.1.globalCounterLimit = s.globalCounterLimit
  tclk : s.tclkCounterLimit.toNat ≤ r.1.tclkCounterLimit.toNat
  carries : ∀ t, r.2 = some t → t.limit = r.1.tclkCounterLimit

theorem adopts_none (s : PersistentSecurityState) : Adopts s (s, none) :=
  ⟨rfl, le_rfl, by simp⟩

theorem adoptTclk_returns (s : PersistentSecurityState) (tclk : Aps.ApsLinkKeyEntry) :
    Returns (adoptTclk s tclk) (Adopts s) := by
  unfold adoptTclk
  refine returns_bind (reserveEnd_returns _) fun limit hlimit => returns_pure ?_
  refine ⟨rfl, (le_toNat_max_right _ _).trans hlimit, fun t ht => ?_⟩
  cases ht
  rfl

theorem refreshTclk_returns (coordinator : Bool) (s : PersistentSecurityState) :
    Returns (live.refreshTclk coordinator s) (Adopts s) := by
  unfold refreshTclk
  refine returns_ite (fun _ => returns_pure (adopts_none s)) fun _ => returns_ite (fun _ => ?_) fun _ => ?_
  · split
    · exact returns_throw _
    · refine returns_ite (fun _ => adoptTclk_returns s _) fun _ => returns_guard fun hc => ?_
      refine returns_pure ⟨rfl, le_rfl, fun t ht => ?_⟩
      cases ht
      simp only [Bool.or_eq_true, bne_iff_ne, not_or, ne_eq, not_not] at hc
      exact hc.2
  · refine returns_ite (fun _ => returns_pure (adopts_none s)) fun _ => ?_
    split
    · exact returns_pure (adopts_none s)
    · refine returns_bind (adoptTclk_returns _ _) fun r hr => returns_check fun _ => returns_pure ?_
      exact ⟨hr.global, hr.tclk, hr.carries⟩

theorem refreshCounters_returns {s : PersistentSecurityState} {r : PersistentSecurityState × Option TclkCounters}
    (h : Adopts s r) (hlimit : live.nib.outgoingFrameCounterLimit = s.globalCounterLimit) :
    Returns (live.refreshCounters r.1 r.2) s.LimitsLe := by
  unfold refreshCounters
  refine returns_bind (extendLow_returns _ _) fun globalLimit hglobal => ?_
  rw [hlimit] at hglobal
  split
  · exact returns_pure ⟨hglobal, h.tclk⟩
  · rename_i t ht
    refine returns_bind (extendLow_returns _ _) fun tclkLimit htclk => returns_pure ⟨hglobal, ?_⟩
    rw [h.carries t ht] at htclk
    exact h.tclk.trans htclk

end LiveSecurity

theorem refreshSecurityState_returns (live : LiveSecurity) (stored : Option PersistentSecurityState) :
    Returns (refreshSecurityState live stored) (Raises stored) := by
  unfold refreshSecurityState
  refine commissioned_returns rfl fun s => ?_
  refine returns_guard fun _ => ?_
  split
  · exact returns_throw _
  · refine returns_guard fun hc => ?_
    have hlimit : live.nib.outgoingFrameCounterLimit = s.globalCounterLimit := by
      simp only [Bool.or_eq_true, bne_iff_ne, not_or, ne_eq, not_not] at hc
      exact hc.1.2
    -- the keys and the NIB leave both limits alone
    refine returns_bind (live.refreshTclk_returns _ _) fun r hr => ?_
    have hr' : LiveSecurity.Adopts s r := ⟨hr.global, hr.tclk, hr.carries⟩
    refine returns_bind (live.refreshCounters_returns hr' hlimit) fun s' hs' => returns_pure ?_
    split
    · exact raises_none
    · exact raises_some hs'

/-- **No rewrite lowers a counter limit.** -/
theorem Rewrite.apply_limits (w : Rewrite) (stored : Option PersistentSecurityState) :
    Returns (w.apply stored) (Raises stored) := by
  cases w with
  | restoreSteering distributed coordinator ieee => exact restoreSteeringSecurityState_returns _ _ _ stored
  | restoreCoordinator coordinator ieee => exact restoreCoordinatorSecurityState_returns _ _ stored
  | restoreDistributedNetwork router ieee => exact restoreDistributedNetworkSecurityState_returns _ _ stored
  | rejoinPending pending => exact persistRejoinPending_returns _ stored
  | secureRejoin nib => exact persistSecureRejoin_returns _ stored
  | trustCenterRejoin nib activeKey trustCenter keys replay =>
    exact persistTrustCenterRejoinNetwork_returns _ _ _ _ _ stored
  | refresh live => exact refreshSecurityState_returns live stored
  | factoryReset =>
    refine returns_ok ?_
    cases stored with
    | none => intro _ _ s hs; cases hs
    | some s => exact raises_some (.of_eq rfl rfl)
  | identityChange ieee =>
    refine returns_ok ?_
    cases stored with
    | none => exact raises_none
    | some s =>
      simp only [resetSecurityStateIfIdentityChanged, Option.bind_some]
      split
      · exact raises_none
      · exact raises_some (.of_eq rfl rfl)
  | selectRoleTag =>
    refine returns_ok ?_
    cases stored with
    | none => exact raises_none
    | some s => exact raises_some (.of_eq rfl rfl)

end Zigbee.Runtime
