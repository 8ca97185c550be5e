import Zigbee.Lib.BitSet
import Zigbee.Runtime.Lifecycle
import Zigbee.Runtime.TrustCenterState

/-!
# The Trust Center's device table

Model of `TrustCenterTable` of `zigbee-bdb` (`trust_center.rs`): the devices, the replacement keys that
wait for Verify-Key, and the operations under a policy.

* `lookup` — what the table holds for an address.
* `Inv` — active addresses are distinct, and a replacement key waits only for an active device.
* `WritesSlot.write`, `WritesSlot.deactivate` — what the two kinds of writes do to every address.
-/

namespace Zigbee.Runtime

/-! ## Policy, indications and answers -/

inductive TrustCenterInstallCodePolicy where
  | unsupported
  | supported
  | required
  deriving DecidableEq, Repr

inductive TrustCenterLinkKeyRequestPolicy where
  | never
  | anyDevice
  | provisionalOnly
  deriving DecidableEq, Repr

inductive ApplicationLinkKeyRequestPolicy where
  | never
  | anyPair
  | allowListOnly
  deriving DecidableEq, Repr

structure TrustCenterPolicy where
  allowJoins : Bool
  useWhitelist : Bool
  installCodes : TrustCenterInstallCodePolicy
  requireLinkKeyUpdate : Bool
  allowRejoins : Bool
  linkKeyRequests : TrustCenterLinkKeyRequestPolicy
  applicationKeyRequests : ApplicationLinkKeyRequestPolicy
  joinTimeoutSecs : UInt8
  deriving DecidableEq

inductive ApsUpdateDeviceStatus where
  | standardDeviceSecuredRejoin
  | standardDeviceUnsecuredJoin
  | deviceLeft
  | standardDeviceTrustCenterRejoin
  deriving DecidableEq, Repr

structure ApsmeUpdateDeviceIndication where
  sourceAddress : IeeeAddress
  deviceAddress : IeeeAddress
  deviceShortAddress : ShortAddress
  status : ApsUpdateDeviceStatus
  deriving DecidableEq

inductive ApsRequestKeyType where
  | applicationLink
  | trustCenterLink
  deriving DecidableEq, Repr

structure ApsmeRequestKeyIndication where
  sourceAddress : IeeeAddress
  keyType : ApsRequestKeyType
  partnerAddress : Option IeeeAddress
  deriving DecidableEq

structure ApsmeVerifyKeyIndication where
  sourceAddress : IeeeAddress
  hash : AesKey
  deriving DecidableEq

inductive TrustCenterAction where
  | none
  | transportNetworkKey (parentAddress deviceAddress : IeeeAddress) (deviceShortAddress : ShortAddress) (linkKey : AesKey)
      (requireLinkKeyUpdate : Bool)
  | generateTrustCenterLinkKey (deviceAddress : IeeeAddress)
  | generateApplicationLinkKey (initiatorAddress responderAddress : IeeeAddress)
  | confirmKey (deviceAddress : IeeeAddress) (status : UInt8)
  | removeDevice (parentAddress deviceAddress : IeeeAddress) (deviceShortAddress : ShortAddress)
  | revokeDevice (deviceAddress : IeeeAddress)
  | rejectedWithoutCommand (deviceAddress : IeeeAddress)
  deriving DecidableEq

inductive InstallCodeError where
  | invalidLength
  | invalidCrc
  | cipherFailure
  deriving DecidableEq, Repr

inductive TrustCenterError where
  | invalidAddress
  | invalidInstallCode (e : InstallCodeError)
  | deviceTableFull
  | deviceNotFound
  | requestNotPermitted
  deriving DecidableEq, Repr

def validateDeviceAddress (address : IeeeAddress) : Bool :=
  !(address == Vector.replicate 8 0 || address == Vector.replicate 8 0xFF)

/-- `constant_time_eq` -/
def constantTimeEq (left right : AesKey) : Bool :=
  (List.zipWith (· ^^^ ·) left.toList right.toList).foldl (· ||| ·) 0 == 0

/-! ## A device -/

namespace TrustCenterDevice

def provisioned (ieeeAddress : IeeeAddress) (linkKey : AesKey) (keyOrigin : TrustCenterKeyOrigin) : TrustCenterDevice where
  ieeeAddress := ieeeAddress
  parentAddress := Vector.replicate 8 0
  shortAddress := 0xFFFF
  linkKey := linkKey
  keyOrigin := keyOrigin
  keyAttributes := .provisional
  joinTimeoutRemainingSecs := 0
  active := true

variable (d : TrustCenterDevice)

def hasVerifiedReplacementKey : Bool := d.keyOrigin == .generatedUnique && d.keyAttributes == .verified

/-- The device is where an Update-Device has reported it. -/
def located : Bool :=
  d.parentAddress != Vector.replicate 8 0 && d.parentAddress != Vector.replicate 8 0xFF && d.shortAddress ≤ 0xFFF7

def hasCompletedAdmission : Bool := d.joinTimeoutRemainingSecs == 0 && d.located

/-- `update_location` -/
def updateLocation (indication : ApsmeUpdateDeviceIndication) (timeout : UInt8) : TrustCenterDevice :=
  { d with
    parentAddress := indication.sourceAddress
    shortAddress := indication.deviceShortAddress
    joinTimeoutRemainingSecs := timeout
    active := true }

/-- The provisioning of a device that the table knows. -/
def reprovisioned (key : AesKey) (origin : TrustCenterKeyOrigin) : TrustCenterDevice :=
  { d with linkKey := key, keyOrigin := origin, keyAttributes := .provisional, joinTimeoutRemainingSecs := 0 }

/-- The commit of a replacement key. -/
def committed (key : AesKey) : TrustCenterDevice :=
  { d with linkKey := key, keyOrigin := .generatedUnique, keyAttributes := .verified, joinTimeoutRemainingSecs := 0 }

def withTimeout (timeout : UInt8) : TrustCenterDevice := { d with joinTimeoutRemainingSecs := timeout }

def deactivated : TrustCenterDevice := { d with active := false }

end TrustCenterDevice

/-! ## The table -/

structure TrustCenterTable where
  devices : Vector (Option TrustCenterDevice) MAX_TRUST_CENTER_DEVICES
  /-- The replacement keys that wait for Verify-Key, indexed with `devices`. -/
  pendingLinkKeys : Vector AesKey MAX_TRUST_CENTER_DEVICES
  pendingLinkKeyMask : BitVec MAX_TRUST_CENTER_DEVICES
  deriving DecidableEq

variable {address : IeeeAddress}

namespace TrustCenterTable

def new : TrustCenterTable := ⟨Vector.replicate _ none, Vector.replicate _ (Vector.replicate 16 0), 0#_⟩

variable (t : TrustCenterTable)

def slot (i : Nat) : Option TrustCenterDevice := t.devices[i]?.join

def setDevice (i : Nat) (d : TrustCenterDevice) : TrustCenterTable := { t with devices := t.devices.setIfInBounds i (some d) }

def hasPendingLinkKey (i : Nat) : Bool := t.pendingLinkKeyMask.getLsbD i

def pendingLinkKey (i : Nat) : Option AesKey := if t.hasPendingLinkKey i then t.pendingLinkKeys[i]? else none

def setPendingLinkKey (i : Nat) (key : AesKey) : TrustCenterTable :=
  { t with
    pendingLinkKeys := t.pendingLinkKeys.setIfInBounds i key
    pendingLinkKeyMask := BitSet.insert t.pendingLinkKeyMask i }

def clearPendingLinkKey (i : Nat) : TrustCenterTable :=
  { t with
    pendingLinkKeys := t.pendingLinkKeys.setIfInBounds i (Vector.replicate 16 0)
    pendingLinkKeyMask := BitSet.erase t.pendingLinkKeyMask i }

def isActiveAt (address : IeeeAddress) (i : Nat) : Bool :=
  (t.slot i).any fun d => d.active && d.ieeeAddress == address

def deviceIndex (address : IeeeAddress) : Option Nat :=
  (List.range MAX_TRUST_CENTER_DEVICES).find? (t.isActiveAt address)

def device (address : IeeeAddress) : Option TrustCenterDevice := (t.deviceIndex address).bind t.slot

/-- The first slot that is empty or inactive. -/
def freeIndex : Option Nat :=
  (List.range MAX_TRUST_CENTER_DEVICES).find? fun i => (t.slot i).all fun d => !d.active

/-! ## The operations -/

def provisionLinkKey (address : IeeeAddress) (key : AesKey) (origin : TrustCenterKeyOrigin) :
    TrustCenterTable × Except TrustCenterError Unit :=
  if !validateDeviceAddress address then (t, .error .invalidAddress)
  else
    match t.deviceIndex address with
    | some index =>
      match t.slot index with
      | none => (t, .error .deviceNotFound)
      | some device => ((t.setDevice index (device.reprovisioned key origin)).clearPendingLinkKey index, .ok ())
    | none =>
      match t.freeIndex with
      | none => (t, .error .deviceTableFull)
      | some index =>
        ((t.setDevice index (TrustCenterDevice.provisioned address key origin)).clearPendingLinkKey index, .ok ())

/-- `derive` is `derive_install_code_key`. -/
def provisionInstallCode (derive : Bytes.Buf → Except InstallCodeError AesKey) (address : IeeeAddress)
    (installCode : Bytes.Buf) : TrustCenterTable × Except TrustCenterError AesKey :=
  if installCode.length ≠ 18 then (t, .error (.invalidInstallCode .invalidLength))
  else
    match derive installCode with
    | .error e => (t, .error (.invalidInstallCode e))
    | .ok key =>
      match t.provisionLinkKey address key .installCode with
      | (t, .error e) => (t, .error e)
      | (t, .ok ()) => (t, .ok key)

def ensureDefaultDeviceIndex (address : IeeeAddress) : TrustCenterTable × Except TrustCenterError Nat :=
  let (t, result) :=
    if (t.deviceIndex address).isNone then t.provisionLinkKey address DEFAULT_TC_LINK_KEY .defaultGlobal else (t, .ok ())
  match result with
  | .error e => (t, .error e)
  | .ok () =>
    match t.deviceIndex address with
    | some index => (t, .ok index)
    | none => (t, .error .deviceTableFull)

def installCodePolicyAllowsAdmission (policy : TrustCenterPolicy) (address : IeeeAddress) : Bool :=
  policy.installCodes != .required ||
    (t.device address).any fun d => d.keyOrigin == .installCode || d.hasVerifiedReplacementKey

def admitWithNetworkKey (policy : TrustCenterPolicy) (indication : ApsmeUpdateDeviceIndication) :
    TrustCenterTable × Except TrustCenterError TrustCenterAction :=
  match t.ensureDefaultDeviceIndex indication.deviceAddress with
  | (t, .error e) => (t, .error e)
  | (t, .ok index) =>
    match t.slot index with
    | none => (t, .error .deviceNotFound)
    | some device =>
      let requireLinkKeyUpdate :=
        t.hasPendingLinkKey index || (policy.requireLinkKeyUpdate && !device.hasVerifiedReplacementKey)
      let timeout := if requireLinkKeyUpdate then max policy.joinTimeoutSecs 1 else 0
      (t.setDevice index (device.updateLocation indication timeout),
        .ok (.transportNetworkKey indication.sourceAddress indication.deviceAddress indication.deviceShortAddress
          device.linkKey requireLinkKeyUpdate))

/-- A secured rejoin: an exchange that runs goes on, and a device that is not admitted starts one. -/
def securedRejoin (policy : TrustCenterPolicy) (indication : ApsmeUpdateDeviceIndication) :
    TrustCenterTable × Except TrustCenterError TrustCenterAction :=
  let admitted := (t.device indication.deviceAddress).any (·.hasCompletedAdmission)
  if !(t.installCodePolicyAllowsAdmission policy indication.deviceAddress && (admitted || policy.allowRejoins)) then
    (t, .ok (.removeDevice indication.sourceAddress indication.deviceAddress indication.deviceShortAddress))
  else
    match t.ensureDefaultDeviceIndex indication.deviceAddress with
    | (t, .error e) => (t, .error e)
    | (t, .ok index) =>
      match t.slot index with
      | none => (t, .error .deviceNotFound)
      | some device =>
        let timeout :=
          if device.joinTimeoutRemainingSecs ≠ 0 then device.joinTimeoutRemainingSecs
          else if !admitted && policy.requireLinkKeyUpdate && !device.hasVerifiedReplacementKey then
            max policy.joinTimeoutSecs 1
          else 0
        (t.setDevice index (device.updateLocation indication timeout), .ok .none)

def handleUpdateDevice (policy : TrustCenterPolicy) (indication : ApsmeUpdateDeviceIndication) :
    TrustCenterTable × Except TrustCenterError TrustCenterAction :=
  if !validateDeviceAddress indication.deviceAddress then (t, .error .invalidAddress)
  else if !validateDeviceAddress indication.sourceAddress then (t, .error .invalidAddress)
  else
    match indication.status with
    | .deviceLeft => (t, .ok (.revokeDevice indication.deviceAddress))
    | .standardDeviceSecuredRejoin => t.securedRejoin policy indication
    | .standardDeviceUnsecuredJoin =>
      if !policy.allowJoins || (policy.useWhitelist && (t.device indication.deviceAddress).isNone) ||
          !t.installCodePolicyAllowsAdmission policy indication.deviceAddress then
        (t, .ok (.rejectedWithoutCommand indication.deviceAddress))
      else t.admitWithNetworkKey policy indication
    | .standardDeviceTrustCenterRejoin =>
      let knownAdmitted := (t.device indication.deviceAddress).any (·.hasCompletedAdmission)
      if !t.installCodePolicyAllowsAdmission policy indication.deviceAddress || (!knownAdmitted && !policy.allowRejoins) then
        (t, .ok (.rejectedWithoutCommand indication.deviceAddress))
      else t.admitWithNetworkKey policy indication

def handleRequestKey (policy : TrustCenterPolicy) (indication : ApsmeRequestKeyIndication)
    (trustCenterAddress : IeeeAddress) : Except TrustCenterError TrustCenterAction :=
  match t.device indication.sourceAddress with
  | none => .error .deviceNotFound
  | some device =>
    match indication.keyType with
    | .trustCenterLink =>
      let allowed :=
        match policy.linkKeyRequests with
        | .never => false
        | .anyDevice => true
        | .provisionalOnly => device.keyAttributes == .provisional
      if !allowed then .error .requestNotPermitted
      else .ok (.generateTrustCenterLinkKey indication.sourceAddress)
    | .applicationLink =>
      match indication.partnerAddress with
      | none => .error .invalidAddress
      | some responder =>
        if responder == trustCenterAddress || (t.device responder).isNone || policy.applicationKeyRequests != .anyPair then
          .error .requestNotPermitted
        else .ok (.generateApplicationLinkKey indication.sourceAddress responder)

def installGeneratedTrustCenterLinkKey (address : IeeeAddress) (key : AesKey) (joinTimeoutSecs : UInt8) :
    TrustCenterTable × Except TrustCenterError Unit :=
  match t.deviceIndex address with
  | none => (t, .error .deviceNotFound)
  | some index =>
    let t := t.setPendingLinkKey index key
    match t.slot index with
    | none => (t, .error .deviceNotFound)
    | some device => (t.setDevice index (device.withTimeout (max joinTimeoutSecs 1)), .ok ())

/-- The key that Verify-Key is about, and whether it is a replacement. -/
def keyToVerify (index : Nat) : Except TrustCenterError (AesKey × Bool) :=
  match t.pendingLinkKey index with
  | some pending => .ok (pending, true)
  | none =>
    match t.slot index with
    | none => .error .deviceNotFound
    | some device =>
      if !device.hasVerifiedReplacementKey then .error .requestNotPermitted else .ok (device.linkKey, false)

/-- `hash` is `derive_verify_key_hash`. -/
def handleVerifyKey (hash : AesKey → AesKey) (indication : ApsmeVerifyKeyIndication) :
    TrustCenterTable × Except TrustCenterError TrustCenterAction :=
  match t.deviceIndex indication.sourceAddress with
  | none => (t, .error .deviceNotFound)
  | some index =>
    match t.keyToVerify index with
    | .error e => (t, .error e)
    | .ok (key, commitsReplacement) =>
      let success := constantTimeEq (hash key) indication.hash
      let action := TrustCenterAction.confirmKey indication.sourceAddress (if success then 0x00 else 0xAD)
      if success && commitsReplacement then
        match t.slot index with
        | none => (t, .error .deviceNotFound)
        | some device => ((t.setDevice index (device.committed key)).clearPendingLinkKey index, .ok action)
      else (t, .ok action)

/-- One slot of `tick`; an action ends the loop. -/
def tickSlot (elapsedSecs : UInt8) (i : Nat) : TrustCenterTable × Option TrustCenterAction :=
  match (t.slot i).filter (·.active) with
  | none => (t, none)
  | some device =>
    let initialExchangePending := device.joinTimeoutRemainingSecs != 0 && device.keyAttributes == .provisional
    if !initialExchangePending && !t.hasPendingLinkKey i then (t, none)
    else
      let remaining := device.joinTimeoutRemainingSecs - min elapsedSecs device.joinTimeoutRemainingSecs
      let device := device.withTimeout remaining
      if remaining ≠ 0 then (t.setDevice i device, none)
      else if device.hasVerifiedReplacementKey then ((t.setDevice i device).clearPendingLinkKey i, none)
      else
        ((t.setDevice i device.deactivated).clearPendingLinkKey i,
          some (.removeDevice device.parentAddress device.ieeeAddress device.shortAddress))

def tickSlots (elapsedSecs : UInt8) : List Nat → TrustCenterTable → TrustCenterTable × TrustCenterAction
  | [], t => (t, .none)
  | i :: is, t =>
    match t.tickSlot elapsedSecs i with
    | (t, some action) => (t, action)
    | (t, none) => tickSlots elapsedSecs is t

def tick (elapsedSecs : UInt8) : TrustCenterTable × TrustCenterAction :=
  if elapsedSecs = 0 then (t, .none) else tickSlots elapsedSecs (List.range MAX_TRUST_CENTER_DEVICES) t

def revoke (address : IeeeAddress) : TrustCenterTable × Bool :=
  match t.deviceIndex address with
  | none => (t, false)
  | some index =>
    match t.slot index with
    | none => (t, false)
    | some device => ((t.setDevice index (device.withTimeout 0).deactivated).clearPendingLinkKey index, true)

/-! ## Slots -/

section
variable {t : TrustCenterTable} {i j : Nat} {d : TrustCenterDevice} {key : AesKey}

theorem slot_lt (h : t.slot i = some d) : i < MAX_TRUST_CENTER_DEVICES := by
  unfold slot at h
  by_contra hge
  rw [Vector.getElem?_eq_none (by omega)] at h
  cases h

@[simp] theorem slot_setDevice (hi : i < MAX_TRUST_CENTER_DEVICES) :
    (t.setDevice i d).slot j = if j = i then some d else t.slot j := by
  unfold slot setDevice
  rw [Vector.getElem?_setIfInBounds]
  by_cases h : i = j
  · subst h
    rw [if_pos rfl, if_pos hi, if_pos rfl]
    rfl
  · rw [if_neg h, if_neg fun h' => h h'.symm]

@[simp] theorem slot_clearPendingLinkKey : (t.clearPendingLinkKey i).slot j = t.slot j := rfl

@[simp] theorem slot_setPendingLinkKey : (t.setPendingLinkKey i key).slot j = t.slot j := rfl

@[simp] theorem pendingLinkKey_setDevice : (t.setDevice i d).pendingLinkKey j = t.pendingLinkKey j := rfl

@[simp] theorem pendingLinkKey_clearPendingLinkKey :
    (t.clearPendingLinkKey i).pendingLinkKey j = if j = i then none else t.pendingLinkKey j := by
  unfold pendingLinkKey hasPendingLinkKey clearPendingLinkKey
  rw [BitSet.getLsbD_erase, Vector.getElem?_setIfInBounds]
  by_cases h : i = j
  · subst h
    simp
  · have h' : ¬ j = i := fun h' => h h'.symm
    simp [h, h']

@[simp] theorem pendingLinkKey_setPendingLinkKey (hi : i < MAX_TRUST_CENTER_DEVICES) :
    (t.setPendingLinkKey i key).pendingLinkKey j = if j = i then some key else t.pendingLinkKey j := by
  unfold pendingLinkKey hasPendingLinkKey setPendingLinkKey
  rw [BitSet.getLsbD_insert _ hi, Vector.getElem?_setIfInBounds]
  by_cases h : i = j
  · subst h
    simp [hi]
  · have h' : ¬ j = i := fun h' => h h'.symm
    simp [h, h']

theorem pendingLinkKey_isSome (hi : i < MAX_TRUST_CENTER_DEVICES) :
    (t.pendingLinkKey i).isSome = t.hasPendingLinkKey i := by
  unfold pendingLinkKey
  cases t.hasPendingLinkKey i with
  | false => rfl
  | true => rw [if_pos rfl, Vector.getElem?_eq_getElem hi, Option.isSome_some]

/-- The table holds an active device in this slot. -/
def Holds (t : TrustCenterTable) (i : Nat) (d : TrustCenterDevice) : Prop := t.slot i = some d ∧ d.active = true

theorem isActiveAt_iff : t.isActiveAt address i = true ↔ ∃ d, t.Holds i d ∧ d.ieeeAddress = address := by
  unfold isActiveAt Holds
  cases t.slot i with
  | none => simp
  | some d => simp

/-- Active addresses are valid and distinct, and a replacement key waits only for an active device. -/
structure Inv (t : TrustCenterTable) : Prop where
  distinct : ∀ i j d e, t.Holds i d → t.Holds j e → d.ieeeAddress = e.ieeeAddress → i = j
  valid : ∀ i d, t.Holds i d → validateDeviceAddress d.ieeeAddress = true
  pending : ∀ i, t.hasPendingLinkKey i = true → ∃ d, t.Holds i d

theorem deviceIndex_eq_some (h : t.deviceIndex address = some i) :
    ∃ d, t.Holds i d ∧ d.ieeeAddress = address := isActiveAt_iff.mp (List.find?_some h)

theorem deviceIndex_of_holds (hinv : t.Inv) (h : t.Holds i d) : t.deviceIndex d.ieeeAddress = some i := by
  cases hfind : t.deviceIndex d.ieeeAddress with
  | none =>
    have hnone := List.find?_eq_none.mp hfind i (List.mem_range.mpr (slot_lt h.1))
    exact absurd (isActiveAt_iff.mpr ⟨d, h, rfl⟩) hnone
  | some j =>
    obtain ⟨e, he, heq⟩ := deviceIndex_eq_some hfind
    rw [hinv.distinct j i e d he h heq]

theorem deviceIndex_eq_none (h : t.deviceIndex address = none) : ∀ i d, t.Holds i d → d.ieeeAddress ≠ address := by
  intro i d hd heq
  exact List.find?_eq_none.mp h i (List.mem_range.mpr (slot_lt hd.1)) (isActiveAt_iff.mpr ⟨d, hd, heq⟩)

theorem freeIndex_eq_some (h : t.freeIndex = some i) :
    i < MAX_TRUST_CENTER_DEVICES ∧ ∀ d, ¬ t.Holds i d := by
  refine ⟨List.mem_range.mp (List.mem_of_find?_eq_some h), fun d hd => ?_⟩
  have hfree := List.find?_some h
  rw [hd.1] at hfree
  simp [hd.2] at hfree

/-! ## What the table holds for an address -/

/-- A device and its replacement key. -/
abbrev Entry := TrustCenterDevice × Option AesKey

def lookup (t : TrustCenterTable) (address : IeeeAddress) : Option Entry :=
  (t.deviceIndex address).bind fun i => (t.slot i).map fun d => (d, t.pendingLinkKey i)

theorem lookup_eq_some {d : TrustCenterDevice} {p : Option AesKey} (h : t.lookup address = some (d, p)) :
    ∃ i, t.deviceIndex address = some i ∧ t.Holds i d ∧ d.ieeeAddress = address ∧ p = t.pendingLinkKey i := by
  unfold lookup at h
  obtain ⟨i, hindex, hslot⟩ := Option.bind_eq_some_iff.mp h
  obtain ⟨e, he, hpair⟩ := Option.map_eq_some_iff.mp hslot
  obtain ⟨rfl, rfl⟩ := Prod.mk.inj hpair
  obtain ⟨d', hd', haddress⟩ := deviceIndex_eq_some hindex
  obtain rfl := Option.some.inj (he.symm.trans hd'.1)
  exact ⟨i, hindex, hd', haddress, rfl⟩

theorem lookup_of_holds (hinv : t.Inv) (h : t.Holds i d) : t.lookup d.ieeeAddress = some (d, t.pendingLinkKey i) := by
  unfold lookup
  rw [deviceIndex_of_holds hinv h]
  simp only [Option.bind_some, h.1, Option.map_some]

theorem lookup_eq_none : t.lookup address = none ↔ t.deviceIndex address = none := by
  unfold lookup
  cases h : t.deviceIndex address with
  | none => simp
  | some i =>
    obtain ⟨d, hd, -⟩ := deviceIndex_eq_some h
    simp [hd.1]

theorem device_eq_lookup (address : IeeeAddress) : t.device address = (t.lookup address).map Prod.fst := by
  unfold device lookup
  cases t.deviceIndex address with
  | none => rfl
  | some i =>
    simp only [Option.bind_some, Option.map_map]
    cases t.slot i with
    | none => rfl
    | some d => rfl

/-- Two tables with the same slots and the same waiting keys, one slot apart. -/
structure WritesSlot (t t' : TrustCenterTable) (i : Nat) (d : TrustCenterDevice) (p : Option AesKey) : Prop where
  slot : ∀ j, t'.slot j = if j = i then some d else t.slot j
  pending : ∀ j, t'.pendingLinkKey j = if j = i then p else t.pendingLinkKey j

section
variable {t' : TrustCenterTable} {p : Option AesKey}

theorem WritesSlot.holds_self (h : WritesSlot t t' i d p) (hd : d.active = true) : t'.Holds i d :=
  ⟨by rw [h.slot, if_pos rfl], hd⟩

theorem WritesSlot.holds_other (h : WritesSlot t t' i d p) {e : TrustCenterDevice} (hj : j ≠ i) :
    t'.Holds j e ↔ t.Holds j e := by
  unfold Holds
  rw [h.slot, if_neg hj]

theorem WritesSlot.pending_other (h : WritesSlot t t' i d p) (hj : j ≠ i) :
    t'.hasPendingLinkKey j = true → t.hasPendingLinkKey j = true := by
  by_cases hlt : j < MAX_TRUST_CENTER_DEVICES
  · rw [← pendingLinkKey_isSome hlt, ← pendingLinkKey_isSome hlt, h.pending, if_neg hj]
    exact id
  · intro hbit
    exact absurd (BitVec.lt_of_getLsbD hbit) hlt

/-- The slot was free, or the device in it has this address. -/
def Ours (t : TrustCenterTable) (i : Nat) (address : IeeeAddress) : Prop :=
  (∀ e, t.Holds i e → e.ieeeAddress = address) ∧ ∀ j e, t.Holds j e → e.ieeeAddress = address → j = i

theorem Inv.ours (hinv : t.Inv) (h : t.Holds i d) : Ours t i d.ieeeAddress := by
  refine ⟨fun e he => ?_, fun j e he heq => hinv.distinct j i e d he h heq⟩
  rw [Option.some.inj (h.1.symm.trans he.1)]

theorem ours_of_free (hfree : ∀ e, ¬ t.Holds i e) (hnone : t.deviceIndex address = none) : Ours t i address :=
  ⟨fun e he => absurd he (hfree e), fun j e he heq => absurd heq (deviceIndex_eq_none hnone j e he)⟩

/-- **The write of an active device** changes what the table holds for its address, and nothing else. -/
theorem WritesSlot.write (h : WritesSlot t t' i d p) (hinv : t.Inv) (hi : i < MAX_TRUST_CENTER_DEVICES)
    (hd : d.active = true) (hours : Ours t i d.ieeeAddress) (hvalid : validateDeviceAddress d.ieeeAddress = true) :
    t'.Inv ∧ ∀ b, t'.lookup b = if b = d.ieeeAddress then some (d, p) else t.lookup b := by
  have hself := h.holds_self hd
  have hunique : ∀ e, t'.Holds i e → e = d := fun e he => Option.some.inj (he.1.symm.trans hself.1)
  have hinv' : t'.Inv := by
    refine ⟨fun j k e f he hf heq => ?_, fun j e he => ?_, fun j hj => ?_⟩
    · by_cases hji : j = i
      · subst hji
        by_cases hkj : k = j
        · exact hkj.symm
        · rw [hunique e he] at heq
          exact (hours.2 k f ((h.holds_other hkj).mp hf) heq.symm).symm
      · by_cases hki : k = i
        · subst hki
          rw [hunique f hf] at heq
          exact hours.2 j e ((h.holds_other hji).mp he) heq
        · exact hinv.distinct j k e f ((h.holds_other hji).mp he) ((h.holds_other hki).mp hf) heq
    · by_cases hji : j = i
      · subst hji
        rw [hunique e he]
        exact hvalid
      · exact hinv.valid j e ((h.holds_other hji).mp he)
    · by_cases hji : j = i
      · subst hji
        exact ⟨d, hself⟩
      · obtain ⟨e, he⟩ := hinv.pending j (h.pending_other hji hj)
        exact ⟨e, (h.holds_other hji).mpr he⟩
  refine ⟨hinv', fun b => ?_⟩
  by_cases hb : b = d.ieeeAddress
  · rw [if_pos hb, hb, lookup_of_holds hinv' hself, h.pending, if_pos rfl]
  · rw [if_neg hb]
    cases hlookup : t.lookup b with
    | none =>
      rw [lookup_eq_none]
      cases hindex : t'.deviceIndex b with
      | none => rfl
      | some j =>
        obtain ⟨e, he, rfl⟩ := deviceIndex_eq_some hindex
        have hji : j ≠ i := by
          rintro rfl
          exact hb (by rw [hunique e he])
        exact absurd rfl (deviceIndex_eq_none (lookup_eq_none.mp hlookup) j e ((h.holds_other hji).mp he))
    | some entry =>
      obtain ⟨e, q⟩ := entry
      obtain ⟨j, -, he, rfl, rfl⟩ := lookup_eq_some hlookup
      have hji : j ≠ i := by
        rintro rfl
        exact hb (hours.1 e he)
      rw [lookup_of_holds hinv' ((h.holds_other hji).mpr he), h.pending, if_neg hji]

/-- **The deactivation of a device** removes its address. -/
theorem WritesSlot.deactivate (h : WritesSlot t t' i d none) (hinv : t.Inv) (hd : d.active = false) {e : TrustCenterDevice}
    (he : t.Holds i e) : t'.Inv ∧ ∀ b, t'.lookup b = if b = e.ieeeAddress then none else t.lookup b := by
  have hgone : ∀ f, ¬ t'.Holds i f := by
    intro f hf
    have hslot := hf.1
    rw [h.slot, if_pos rfl] at hslot
    rw [← Option.some.inj hslot] at hf
    exact Bool.false_ne_true (hd.symm.trans hf.2)
  have hother : ∀ j f, t'.Holds j f → j ≠ i ∧ t.Holds j f := by
    intro j f hf
    have hji : j ≠ i := by
      rintro rfl
      exact hgone f hf
    exact ⟨hji, (h.holds_other hji).mp hf⟩
  have hinv' : t'.Inv := by
    refine ⟨fun j k f g hf hg heq => ?_, fun j f hf => hinv.valid j f (hother j f hf).2, fun j hj => ?_⟩
    · exact hinv.distinct j k f g (hother j f hf).2 (hother k g hg).2 heq
    · have hji : j ≠ i := by
        rintro rfl
        rw [← pendingLinkKey_isSome (slot_lt he.1), h.pending, if_pos rfl] at hj
        cases hj
      obtain ⟨f, hf⟩ := hinv.pending j (h.pending_other hji hj)
      exact ⟨f, (h.holds_other hji).mpr hf⟩
  refine ⟨hinv', fun b => ?_⟩
  by_cases hb : b = e.ieeeAddress
  · rw [if_pos hb, lookup_eq_none]
    cases hindex : t'.deviceIndex b with
    | none => rfl
    | some j =>
      obtain ⟨f, hf, rfl⟩ := deviceIndex_eq_some hindex
      obtain ⟨hji, hf'⟩ := hother j f hf
      exact absurd (hinv.distinct j i f e hf' he hb) hji
  · rw [if_neg hb]
    cases hlookup : t.lookup b with
    | none =>
      rw [lookup_eq_none]
      cases hindex : t'.deviceIndex b with
      | none => rfl
      | some j =>
        obtain ⟨f, hf, rfl⟩ := deviceIndex_eq_some hindex
        exact absurd rfl (deviceIndex_eq_none (lookup_eq_none.mp hlookup) j f (hother j f hf).2)
    | some entry =>
      obtain ⟨f, q⟩ := entry
      obtain ⟨j, -, hf, rfl, rfl⟩ := lookup_eq_some hlookup
      have hji : j ≠ i := by
        rintro rfl
        exact hb (by rw [Option.some.inj (he.1.symm.trans hf.1)])
      rw [lookup_of_holds hinv' ((h.holds_other hji).mpr hf), h.pending, if_neg hji]

theorem writesSlot_clear (hi : i < MAX_TRUST_CENTER_DEVICES) :
    WritesSlot t ((t.setDevice i d).clearPendingLinkKey i) i d none :=
  ⟨fun j => by rw [slot_clearPendingLinkKey, slot_setDevice hi],
    fun j => by rw [pendingLinkKey_clearPendingLinkKey, pendingLinkKey_setDevice]⟩

theorem writesSlot_keep (hi : i < MAX_TRUST_CENTER_DEVICES) : WritesSlot t (t.setDevice i d) i d (t.pendingLinkKey i) := by
  refine ⟨fun j => by rw [slot_setDevice hi], fun j => ?_⟩
  rw [pendingLinkKey_setDevice]
  split
  · rename_i hj
    rw [hj]
  · rfl

theorem writesSlot_set (hi : i < MAX_TRUST_CENTER_DEVICES) :
    WritesSlot t ((t.setPendingLinkKey i key).setDevice i d) i d (some key) :=
  ⟨fun j => by rw [slot_setDevice hi, slot_setPendingLinkKey],
    fun j => by rw [pendingLinkKey_setDevice, pendingLinkKey_setPendingLinkKey hi]⟩

end

/-- A timeout of zero seconds is one of one second. -/
theorem max_one_ne_zero (timeout : UInt8) : max timeout 1 ≠ 0 := by
  by_cases hle : timeout ≤ 1
  · have hmax : max timeout 1 = 1 := if_pos hle
    rw [hmax]
    decide
  · have hmax : max timeout 1 = timeout := if_neg hle
    rw [hmax]
    rintro rfl
    exact hle UInt8.zero_le

theorem not_holds_new (i : Nat) (d : TrustCenterDevice) : ¬ new.Holds i d := by
  rintro ⟨hslot, -⟩
  unfold slot new at hslot
  rw [Vector.getElem?_replicate] at hslot
  split at hslot
  · cases hslot
  · cases hslot

theorem new_inv : new.Inv := by
  refine ⟨fun i j d e h => absurd h (not_holds_new i d), fun i d h => absurd h (not_holds_new i d), fun i h => ?_⟩
  unfold hasPendingLinkKey new at h
  simp at h

theorem lookup_new (address : IeeeAddress) : new.lookup address = none := by
  cases h : new.lookup address with
  | none => rfl
  | some entry =>
    obtain ⟨i, -, hd, -⟩ := lookup_eq_some h
    exact absurd hd (not_holds_new i _)

end

end TrustCenterTable

end Zigbee.Runtime
