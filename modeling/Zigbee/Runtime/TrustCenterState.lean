import Zigbee.Lib.Returns
import Zigbee.Lib.Records
import Zigbee.Types

/-!
# Persistent state of the Trust Center

Model of `PersistentTrustCenterState` of `zigbee-runtime` (`trust_center_store.rs`) and of its
encoding: versions 1 to 4 are read, version 4 is written.

* `validate` — the checks of the state, also across its lists.
* `encode`, `decodeVersion` — the writer, and the reader of every version.
* `codec_exact` — the encoding loses nothing of a valid state, and only valid states are read.
-/

namespace Zigbee.Runtime

open Bytes Records

/-! ## Types of `zigbee-bdb` -/

inductive TrustCenterKeyOrigin where
  | defaultGlobal
  | installCode
  | applicationProvisioned
  | generatedUnique
  deriving DecidableEq, Repr

inductive TrustCenterKeyAttributes where
  | provisional
  | unverified
  | verified
  deriving DecidableEq, Repr

def TrustCenterKeyAttributes.toU8 : TrustCenterKeyAttributes → UInt8
  | .provisional => 0x00
  | .unverified => 0x01
  | .verified => 0x02

structure TrustCenterDevice where
  ieeeAddress : IeeeAddress
  parentAddress : IeeeAddress
  shortAddress : ShortAddress
  linkKey : AesKey
  keyOrigin : TrustCenterKeyOrigin
  keyAttributes : TrustCenterKeyAttributes
  joinTimeoutRemainingSecs : UInt8
  active : Bool
  deriving DecidableEq

inductive NetworkKeyUpdateMethod where
  | broadcast
  | unicast
  deriving DecidableEq, Repr

def NetworkKeyUpdateMethod.toU8 : NetworkKeyUpdateMethod → UInt8
  | .broadcast => 0x00
  | .unicast => 0x01

def NetworkKeyUpdateMethod.fromU8 (v : UInt8) : Option NetworkKeyUpdateMethod :=
  if v = 0x00 then some .broadcast else if v = 0x01 then some .unicast else none

/-! ## The state -/

def MAX_TRUST_CENTER_DEVICES : Nat := 32
def MAX_APPLICATION_KEY_REQUESTS : Nat := 8

inductive TrustCenterStoreError where
  | corrupt
  | full
  | hardware
  | generationExhausted
  | foreignNetwork
  | counterExhausted
  deriving DecidableEq, Repr

inductive NetworkKeyRotationPhase where
  | distributing
  | switching
  | activating
  | waitingForPropagation
  deriving DecidableEq, Repr

def NetworkKeyRotationPhase.toU8 : NetworkKeyRotationPhase → UInt8
  | .distributing => 1
  | .switching => 2
  | .activating => 3
  | .waitingForPropagation => 4

def NetworkKeyRotationPhase.fromU8 (v : UInt8) : Option NetworkKeyRotationPhase :=
  if v = 1 then some .distributing
  else if v = 2 then some .switching
  else if v = 3 then some .activating
  else if v = 4 then some .waitingForPropagation
  else none

structure NetworkKeyRotation where
  targetSequence : UInt8
  phase : NetworkKeyRotationPhase
  method : NetworkKeyUpdateMethod
  deriving DecidableEq

/-- A Trust Center link key that is stored before it is transported. -/
structure PendingTrustCenterLinkKey where
  key : AesKey
  outgoingFrameCounter : UInt32
  outgoingFrameCounterLimit : UInt32
  transported : Bool
  deriving DecidableEq

structure PersistentTrustCenterDevice where
  device : TrustCenterDevice
  outgoingFrameCounter : UInt32
  outgoingFrameCounterLimit : UInt32
  incomingFrameCounter : UInt32
  incomingFrameCounterValid : Bool
  networkKeyPending : Bool
  /-- Status of a Confirm-Key that is still to be recorded. -/
  confirmKeyPending : Option UInt8
  removalPending : Bool
  newNetworkKeyDelivered : Bool
  isRouter : Option Bool
  pendingLinkKey : Option PendingTrustCenterLinkKey
  deriving DecidableEq

structure PendingApplicationLinkKey where
  initiatorAddress : IeeeAddress
  responderAddress : IeeeAddress
  key : AesKey
  deliveredToInitiator : Bool
  deliveredToResponder : Bool
  deriving DecidableEq

structure ApplicationKeyRequestEntry where
  initiatorAddress : IeeeAddress
  responderAddress : IeeeAddress
  deriving DecidableEq

/-- The removal of a device that was never admitted. -/
structure PendingUnknownRemoval where
  parentAddress : IeeeAddress
  deviceAddress : IeeeAddress
  deriving DecidableEq

structure PersistentTrustCenterState where
  extendedPanId : IeeeAddress
  pendingApplicationKey : Option PendingApplicationLinkKey
  rotation : Option NetworkKeyRotation
  applicationKeyRequests : Bounded ApplicationKeyRequestEntry MAX_APPLICATION_KEY_REQUESTS
  devices : Bounded PersistentTrustCenterDevice MAX_TRUST_CENTER_DEVICES
  pendingUnknownRemovals : Bounded PendingUnknownRemoval MAX_TRUST_CENTER_DEVICES
  deriving DecidableEq

/-- An address that no device has. -/
def unusable (address : IeeeAddress) : Bool := address == Vector.replicate 8 0 || address == Vector.replicate 8 0xFF

/-- No item of the list conflicts with one that follows it. -/
def noneRepeated {α : Type} (conflict : α → α → Bool) : List α → Bool
  | [] => true
  | a :: rest => !rest.any (conflict a) && noneRepeated conflict rest

variable {s : PersistentTrustCenterState}

namespace PersistentTrustCenterState

def device (s : PersistentTrustCenterState) (address : IeeeAddress) : Option PersistentTrustCenterDevice :=
  s.devices.items.find? (·.device.ieeeAddress == address)

/-- The checks of one device, those across the list apart. -/
def validateDevice (stored : PersistentTrustCenterDevice) : Bool :=
  let device := stored.device
  let provisioned := device.parentAddress == Vector.replicate 8 0 && device.shortAddress == 0xFFFF
  let joined := !unusable device.parentAddress && device.shortAddress ≤ 0xFFF7
  device.active && !unusable device.ieeeAddress && stored.outgoingFrameCounter < stored.outgoingFrameCounterLimit &&
    stored.pendingLinkKey.all (fun p => p.outgoingFrameCounter < p.outgoingFrameCounterLimit) &&
    stored.confirmKeyPending.all (fun status => status == 0x00 || status == 0xAD) && (provisioned || joined)

def validate (s : PersistentTrustCenterState) : Except TrustCenterStoreError Unit :=
  if unusable s.extendedPanId then .error .corrupt
  else if !(s.pendingUnknownRemovals.items.all fun p =>
      !unusable p.parentAddress && !unusable p.deviceAddress && (s.device p.deviceAddress).isNone) ||
      !noneRepeated (fun p other => other.deviceAddress == p.deviceAddress) s.pendingUnknownRemovals.items then
    .error .corrupt
  else if s.pendingApplicationKey.any fun p =>
      unusable p.initiatorAddress || unusable p.responderAddress || p.initiatorAddress == p.responderAddress ||
        (s.device p.initiatorAddress).isNone || (s.device p.responderAddress).isNone then
    .error .corrupt
  else if s.rotation.isNone && s.devices.items.any (·.newNetworkKeyDelivered) then .error .corrupt
  else if !(s.applicationKeyRequests.items.all fun e =>
      !unusable e.initiatorAddress && !unusable e.responderAddress && e.initiatorAddress != e.responderAddress) ||
      !noneRepeated (fun e other => other == e) s.applicationKeyRequests.items then
    .error .corrupt
  else if !s.devices.items.all validateDevice ||
      !noneRepeated (fun d other => other.device.ieeeAddress == d.device.ieeeAddress) s.devices.items then
    .error .corrupt
  else .ok ()

/-- What the decoder needs of a valid device. -/
theorem device_of_validate (h : s.validate = .ok ()) {stored : PersistentTrustCenterDevice} (hd : stored ∈ s.devices.items) :
    stored.device.active = true ∧ ∀ status, stored.confirmKeyPending = some status → status = 0x00 ∨ status = 0xAD := by
  simp only [validate, check_eq_ok] at h
  obtain ⟨-, -, -, -, -, h, -⟩ := h
  simp only [Bool.or_eq_true, Bool.not_eq_true', not_or, Bool.not_eq_false] at h
  have hdevice := List.all_eq_true.mp h.1 stored hd
  simp only [validateDevice, Bool.and_eq_true] at hdevice
  obtain ⟨⟨⟨⟨⟨hactive, -⟩, -⟩, -⟩, hconfirm⟩, -⟩ := hdevice
  refine ⟨hactive, fun status hs => ?_⟩
  rw [hs] at hconfirm
  simpa using hconfirm

end PersistentTrustCenterState

/-! ## Encoding -/

def DEVICE_ENCODED_LEN : Nat := 75
def STATE_HEADER_LEN : Nat := 43
def APPLICATION_KEY_REQUEST_ENTRY_LEN : Nat := 16
def ROTATION_TRAILER_LEN : Nat := 3
def UNKNOWN_REMOVAL_ENTRY_LEN : Nat := 16
def UNKNOWN_REMOVAL_HEADER_LEN : Nat := 1
def MAX_ENCODED_TRUST_CENTER_STATE_LEN : Nat :=
  STATE_HEADER_LEN + MAX_TRUST_CENTER_DEVICES * DEVICE_ENCODED_LEN + 1 +
    MAX_APPLICATION_KEY_REQUESTS * APPLICATION_KEY_REQUEST_ENTRY_LEN + ROTATION_TRAILER_LEN + UNKNOWN_REMOVAL_HEADER_LEN +
    MAX_TRUST_CENTER_DEVICES * UNKNOWN_REMOVAL_ENTRY_LEN

def encodeOrigin : TrustCenterKeyOrigin → UInt8
  | .defaultGlobal => 0
  | .installCode => 1
  | .applicationProvisioned => 2
  | .generatedUnique => 3

def decodeOrigin (v : UInt8) : Except TrustCenterStoreError TrustCenterKeyOrigin :=
  if v = 0 then .ok .defaultGlobal
  else if v = 1 then .ok .installCode
  else if v = 2 then .ok .applicationProvisioned
  else if v = 3 then .ok .generatedUnique
  else .error .corrupt

def decodeAttributes (v : UInt8) : Except TrustCenterStoreError TrustCenterKeyAttributes :=
  if v = 0 then .ok .provisional
  else if v = 1 then .ok .unverified
  else if v = 2 then .ok .verified
  else .error .corrupt

/-- `u8::from(b) << k`. -/
def bit (b : Bool) (k : UInt8) : UInt8 := (if b then 1 else 0) <<< k

variable (d : PersistentTrustCenterDevice)

namespace PersistentTrustCenterDevice

/-- Byte 37 of a device. -/
def encodeFlags (d : PersistentTrustCenterDevice) : UInt8 :=
  bit d.incomingFrameCounterValid 0 ||| bit d.pendingLinkKey.isSome 1 ||| bit d.networkKeyPending 2 |||
    bit d.confirmKeyPending.isSome 3 ||| bit d.removalPending 4 ||| bit (d.pendingLinkKey.any (·.transported)) 5 |||
    bit d.newNetworkKeyDelivered 6 ||| bit d.isRouter.isSome 7

def encodePendingLinkKey : Option PendingTrustCenterLinkKey → Buf
  | none => List.replicate 24 0
  | some p => p.key.toList ++ (le32 p.outgoingFrameCounter ++ le32 p.outgoingFrameCounterLimit)

/-- Byte 74: the router bit stands beside the confirm status. -/
def encodeStatus (d : PersistentTrustCenterDevice) : UInt8 :=
  d.confirmKeyPending.getD 0 ||| bit (d.isRouter == some true) 6

def encode (d : PersistentTrustCenterDevice) : Buf :=
  d.device.ieeeAddress.toList ++ (d.device.parentAddress.toList ++ (le16 d.device.shortAddress ++
    (d.device.linkKey.toList ++ ([encodeOrigin d.device.keyOrigin, d.device.keyAttributes.toU8,
      d.device.joinTimeoutRemainingSecs, d.encodeFlags] ++ (le32 d.outgoingFrameCounter ++
        (le32 d.outgoingFrameCounterLimit ++ (le32 d.incomingFrameCounter ++
          (encodePendingLinkKey d.pendingLinkKey ++ [d.encodeStatus]))))))))

def decodePendingLinkKey (encoded : Buf) (flags : UInt8) : Except TrustCenterStoreError (Option PendingTrustCenterLinkKey) :=
  if flags &&& 0x02 ≠ 0 then
    .ok (some {
      key := arrayAt 16 encoded 50
      outgoingFrameCounter := u32At encoded 66
      outgoingFrameCounterLimit := u32At encoded 70
      transported := flags &&& 0x20 != 0 })
  else if (slice encoded 50 74).any (· != 0) then .error .corrupt
  else .ok none

def decodeIsRouter (hasRouterCapability : Bool) (flags status : UInt8) : Except TrustCenterStoreError (Option Bool) :=
  if hasRouterCapability ∧ flags &&& 0x80 ≠ 0 then .ok (some (status &&& 0x40 != 0))
  else if status &&& 0x40 ≠ 0 then .error .corrupt
  else .ok none

def decodeConfirmKeyPending (flags status : UInt8) : Except TrustCenterStoreError (Option UInt8) :=
  if flags &&& 0x08 ≠ 0 then .ok (some status)
  else if status ≠ 0 then .error .corrupt
  else .ok none

def allowedFlags (hasRotation hasRouterCapability : Bool) : UInt8 :=
  if hasRouterCapability then 0xFF else if hasRotation then 0x7F else 0x3F

def decode (hasRotation hasRouterCapability : Bool) (encoded : Buf) :
    Except TrustCenterStoreError PersistentTrustCenterDevice := do
  let keyOrigin ← decodeOrigin (u8At encoded 34)
  let keyAttributes ← decodeAttributes (u8At encoded 35)
  let flags := u8At encoded 37
  if flags &&& ~~~(allowedFlags hasRotation hasRouterCapability) ≠ 0 ∨ (flags &&& 0x20 ≠ 0 ∧ flags &&& 0x02 = 0) then
    .error .corrupt
  else
    let pendingLinkKey ← decodePendingLinkKey encoded flags
    let isRouter ← decodeIsRouter hasRouterCapability flags (u8At encoded 74)
    let confirmKeyPending ← decodeConfirmKeyPending flags (u8At encoded 74 &&& ~~~0x40)
    return {
      device := {
        ieeeAddress := arrayAt 8 encoded 0
        parentAddress := arrayAt 8 encoded 8
        shortAddress := u16At encoded 16
        linkKey := arrayAt 16 encoded 18
        keyOrigin
        keyAttributes
        joinTimeoutRemainingSecs := u8At encoded 36
        active := true }
      outgoingFrameCounter := u32At encoded 38
      outgoingFrameCounterLimit := u32At encoded 42
      incomingFrameCounter := u32At encoded 46
      incomingFrameCounterValid := flags &&& 0x01 != 0
      networkKeyPending := flags &&& 0x04 != 0
      confirmKeyPending
      removalPending := flags &&& 0x10 != 0
      newNetworkKeyDelivered := hasRotation && (flags &&& 0x40 != 0)
      isRouter
      pendingLinkKey }

/-! ### Round trip -/

@[simp] theorem encodePendingLinkKey_length (p : Option PendingTrustCenterLinkKey) : (encodePendingLinkKey p).length = 24 := by
  cases p <;> simp [encodePendingLinkKey]

@[simp] theorem encode_length : d.encode.length = DEVICE_ENCODED_LEN := by
  simp [encode, DEVICE_ENCODED_LEN]

theorem decodeOrigin_encodeOrigin (o : TrustCenterKeyOrigin) : decodeOrigin (encodeOrigin o) = .ok o := by
  cases o <;> rfl

theorem decodeAttributes_toU8 (a : TrustCenterKeyAttributes) : decodeAttributes a.toU8 = .ok a := by
  cases a <;> rfl

/-- The flags byte of eight flags. -/
theorem flags_roundTrip (valid pending network confirm removal transported delivered router : Bool) :
    let flags := bit valid 0 ||| bit pending 1 ||| bit network 2 ||| bit confirm 3 ||| bit removal 4 ||| bit transported 5 |||
      bit delivered 6 ||| bit router 7
    flags &&& ~~~allowedFlags true true = 0 ∧ (flags &&& 0x01 != 0) = valid ∧ (flags &&& 0x02 ≠ 0 ↔ pending = true) ∧
      (flags &&& 0x04 != 0) = network ∧ (flags &&& 0x08 ≠ 0 ↔ confirm = true) ∧ (flags &&& 0x10 != 0) = removal ∧
      (flags &&& 0x20 != 0) = transported ∧ (flags &&& 0x40 != 0) = delivered ∧ (flags &&& 0x80 ≠ 0 ↔ router = true) := by
  revert valid pending network confirm removal transported delivered router
  decide +kernel

/-- Every field the decoder reads of an encoded device, its pending key apart. -/
theorem encode_fields :
    arrayAt 8 d.encode 0 = d.device.ieeeAddress ∧ arrayAt 8 d.encode 8 = d.device.parentAddress ∧
      u16At d.encode 16 = d.device.shortAddress ∧ arrayAt 16 d.encode 18 = d.device.linkKey ∧
      u8At d.encode 34 = encodeOrigin d.device.keyOrigin ∧ u8At d.encode 35 = d.device.keyAttributes.toU8 ∧
      u8At d.encode 36 = d.device.joinTimeoutRemainingSecs ∧ u8At d.encode 37 = d.encodeFlags ∧
      u32At d.encode 38 = d.outgoingFrameCounter ∧ u32At d.encode 42 = d.outgoingFrameCounterLimit ∧
      u32At d.encode 46 = d.incomingFrameCounter ∧ u8At d.encode 74 = d.encodeStatus := by
  unfold encode
  simp (disch := simp) only [u8At_append_right, u8At_append_left, u16At_append_right, u32At_append_right,
    arrayAt_append_right, le16_length, le32_length, Vector.length_toList, List.length_cons, List.length_nil,
    encodePendingLinkKey_length, Nat.reduceAdd, Nat.reduceSub, u16At_le16, u32At_le32, arrayAt_toList]
  simp only [u8At, List.getD_cons_zero, List.getD_cons_succ, and_self]

theorem encode_pendingLinkKey :
    slice d.encode 50 74 = encodePendingLinkKey d.pendingLinkKey ∧
      ∀ p, d.pendingLinkKey = some p → arrayAt 16 d.encode 50 = p.key ∧ u32At d.encode 66 = p.outgoingFrameCounter ∧
        u32At d.encode 70 = p.outgoingFrameCounterLimit := by
  constructor
  · unfold encode
    simp (disch := simp) only [slice_append_right, le16_length, le32_length, Vector.length_toList, List.length_cons,
      List.length_nil, Nat.reduceAdd, Nat.reduceSub]
    exact slice_init (by simp)
  · intro p hp
    unfold encode
    simp (disch := simp) only [hp, encodePendingLinkKey, u32At_append_right, arrayAt_append_right, le16_length, le32_length,
      Vector.length_toList, List.length_cons, List.length_nil, Nat.reduceAdd, Nat.reduceSub, List.append_assoc, u32At_le32,
      arrayAt_toList, and_self]

theorem decodePendingLinkKey_encode {flags : UInt8} (hpending : flags &&& 0x02 ≠ 0 ↔ d.pendingLinkKey.isSome = true)
    (htransported : (flags &&& 0x20 != 0) = d.pendingLinkKey.any (·.transported)) :
    decodePendingLinkKey d.encode flags = .ok d.pendingLinkKey := by
  obtain ⟨hslice, hfields⟩ := d.encode_pendingLinkKey
  unfold decodePendingLinkKey
  cases hp : d.pendingLinkKey with
  | none =>
    rw [hp] at hpending hslice
    rw [if_neg (by simpa using hpending), hslice]
    rfl
  | some p =>
    rw [hp] at hpending htransported
    obtain ⟨h1, h2, h3⟩ := hfields p hp
    rw [if_pos (hpending.mpr rfl), h1, h2, h3, htransported]
    rfl

theorem status_roundTrip (status : UInt8) (hs : status = 0x00 ∨ status = 0xAD) (router : Bool) :
    ((status ||| bit router 6) &&& 0x40 != 0) = router ∧ (status ||| bit router 6) &&& ~~~0x40 = status := by
  rcases hs with rfl | rfl <;> revert router <;> decide +kernel

theorem decode_encode {d : PersistentTrustCenterDevice} (hactive : d.device.active = true)
    (hconfirm : ∀ status, d.confirmKeyPending = some status → status = 0x00 ∨ status = 0xAD) :
    decode true true d.encode = .ok d := by
  obtain ⟨h1, h2, h3, h4, h5, h6, h7, h8, h9, h10, h11, h12⟩ := d.encode_fields
  obtain ⟨f0, f1, f2, f3, f4, f5, f6, f7, f8⟩ := flags_roundTrip d.incomingFrameCounterValid d.pendingLinkKey.isSome
    d.networkKeyPending d.confirmKeyPending.isSome d.removalPending (d.pendingLinkKey.any (·.transported))
    d.newNetworkKeyDelivered d.isRouter.isSome
  change d.encodeFlags &&& _ = 0 at f0
  change (d.encodeFlags &&& _ != 0) = _ at f1 f3 f5 f6 f7
  change d.encodeFlags &&& _ ≠ 0 ↔ _ at f2 f4 f8
  have hstatus : d.confirmKeyPending.getD 0 = 0x00 ∨ d.confirmKeyPending.getD 0 = 0xAD := by
    cases hc : d.confirmKeyPending with
    | none => exact Or.inl rfl
    | some status => exact hconfirm status hc
  obtain ⟨s1, s2⟩ := status_roundTrip _ hstatus (d.isRouter == some true)
  have hpending := d.decodePendingLinkKey_encode f2 f6
  have hrouter : decodeIsRouter true d.encodeFlags d.encodeStatus = .ok d.isRouter := by
    unfold decodeIsRouter encodeStatus
    rw [s1]
    cases hr : d.isRouter with
    | none =>
      rw [hr] at f8 s1
      rw [if_neg (by simpa using f8), if_neg (by simpa using s1)]
    | some router =>
      rw [hr] at f8
      rw [if_pos ⟨rfl, f8.mpr rfl⟩]
      cases router <;> rfl
  have hconfirmed : decodeConfirmKeyPending d.encodeFlags (d.encodeStatus &&& ~~~0x40) = .ok d.confirmKeyPending := by
    unfold decodeConfirmKeyPending encodeStatus
    rw [s2]
    cases hc : d.confirmKeyPending with
    | none =>
      rw [hc] at f4
      rw [if_neg (by simpa using f4)]
      rfl
    | some status =>
      rw [hc] at f4
      rw [if_pos (f4.mpr rfl)]
      rfl
  have hflags : ¬ (d.encodeFlags &&& ~~~(allowedFlags true true) ≠ 0 ∨
      (d.encodeFlags &&& 0x20 ≠ 0 ∧ d.encodeFlags &&& 0x02 = 0)) := by
    rintro (h | ⟨h20, h02⟩)
    · exact h f0
    · have htransported : d.pendingLinkKey.any (·.transported) = true := by
        rw [← f6]
        simpa using h20
      cases hp : d.pendingLinkKey with
      | none =>
        rw [hp] at htransported
        cases htransported
      | some p =>
        rw [hp] at f2
        exact f2.mpr rfl h02
  unfold decode
  simp only [h1, h2, h3, h4, h5, h6, h7, h8, h9, h10, h11, h12, decodeOrigin_encodeOrigin, decodeAttributes_toU8, hflags,
    if_false, hpending, hrouter, hconfirmed, f1, f3, f5, f7, Bool.true_and]
  simp only [bind, Except.bind, pure, Except.pure, ← hactive]

end PersistentTrustCenterDevice

def ApplicationKeyRequestEntry.encode (e : ApplicationKeyRequestEntry) : Buf :=
  e.initiatorAddress.toList ++ e.responderAddress.toList

def ApplicationKeyRequestEntry.decode (bytes : Buf) : Except TrustCenterStoreError ApplicationKeyRequestEntry :=
  .ok ⟨arrayAt 8 bytes 0, arrayAt 8 bytes 8⟩

def PendingUnknownRemoval.encode (p : PendingUnknownRemoval) : Buf := p.parentAddress.toList ++ p.deviceAddress.toList

def PendingUnknownRemoval.decode (bytes : Buf) : Except TrustCenterStoreError PendingUnknownRemoval :=
  .ok ⟨arrayAt 8 bytes 0, arrayAt 8 bytes 8⟩

@[simp] theorem ApplicationKeyRequestEntry.encode_length (e : ApplicationKeyRequestEntry) :
    e.encode.length = APPLICATION_KEY_REQUEST_ENTRY_LEN := by
  simp [encode, APPLICATION_KEY_REQUEST_ENTRY_LEN]

@[simp] theorem PendingUnknownRemoval.encode_length (p : PendingUnknownRemoval) :
    p.encode.length = UNKNOWN_REMOVAL_ENTRY_LEN := by
  simp [encode, UNKNOWN_REMOVAL_ENTRY_LEN]

/-- Two addresses, one behind the other. -/
theorem addresses_roundTrip (a b : IeeeAddress) :
    arrayAt 8 (a.toList ++ b.toList) 0 = a ∧ arrayAt 8 (a.toList ++ b.toList) 8 = b := by
  refine ⟨arrayAt_toList _ _, ?_⟩
  rw [arrayAt_append_right (by simp)]
  simpa using arrayAt_toList b []

theorem ApplicationKeyRequestEntry.decode_encode (e : ApplicationKeyRequestEntry) : decode e.encode = .ok e := by
  obtain ⟨h1, h2⟩ := addresses_roundTrip e.initiatorAddress e.responderAddress
  unfold decode encode
  rw [h1, h2]

theorem PendingUnknownRemoval.decode_encode (p : PendingUnknownRemoval) : decode p.encode = .ok p := by
  obtain ⟨h1, h2⟩ := addresses_roundTrip p.parentAddress p.deviceAddress
  unfold decode encode
  rw [h1, h2]

variable {bytes : Buf}

namespace PersistentTrustCenterState

/-- Bytes 9 to 42. -/
def encodePendingApplicationKey : Option PendingApplicationLinkKey → Buf
  | none => List.replicate 34 0
  | some p =>
    [1] ++ (p.initiatorAddress.toList ++ (p.responderAddress.toList ++ (p.key.toList ++
      [bit p.deliveredToInitiator 0 ||| bit p.deliveredToResponder 1])))

def encodeRotation : Option NetworkKeyRotation → Buf
  | none => List.replicate 3 0
  | some r => [r.phase.toU8, r.targetSequence, r.method.toU8]

def encodeHeader (s : PersistentTrustCenterState) : Buf :=
  s.extendedPanId.toList ++ ([UInt8.ofNat s.devices.items.length] ++ encodePendingApplicationKey s.pendingApplicationKey)

def encode (s : PersistentTrustCenterState) : Buf :=
  s.encodeHeader ++ (s.devices.items.flatMap PersistentTrustCenterDevice.encode ++
    ([UInt8.ofNat s.applicationKeyRequests.items.length] ++
      (s.applicationKeyRequests.items.flatMap ApplicationKeyRequestEntry.encode ++ (encodeRotation s.rotation ++
        ([UInt8.ofNat s.pendingUnknownRemovals.items.length] ++
          s.pendingUnknownRemovals.items.flatMap PendingUnknownRemoval.encode)))))

def decodePendingApplicationKey (bytes : Buf) : Except TrustCenterStoreError (Option PendingApplicationLinkKey) :=
  if u8At bytes 9 = 0 then
    if (slice bytes 10 43).any (· != 0) then .error .corrupt else .ok none
  else if u8At bytes 9 = 1 then
    if u8At bytes 42 &&& ~~~0x03 ≠ 0 then .error .corrupt
    else
      .ok (some {
        initiatorAddress := arrayAt 8 bytes 10
        responderAddress := arrayAt 8 bytes 18
        key := arrayAt 16 bytes 26
        deliveredToInitiator := u8At bytes 42 &&& 0x01 != 0
        deliveredToResponder := u8At bytes 42 &&& 0x02 != 0 })
  else .error .corrupt

def decodeRotation (bytes : Buf) (rotationOffset : Nat) : Except TrustCenterStoreError (Option NetworkKeyRotation) :=
  if u8At bytes rotationOffset = 0 then
    if u8At bytes (rotationOffset + 1) ≠ 0 ∨ u8At bytes (rotationOffset + 2) ≠ 0 then .error .corrupt else .ok none
  else
    match NetworkKeyRotationPhase.fromU8 (u8At bytes rotationOffset),
      NetworkKeyUpdateMethod.fromU8 (u8At bytes (rotationOffset + 2)) with
    | some phase, some method => .ok (some { targetSequence := u8At bytes (rotationOffset + 1), phase, method })
    | _, _ => .error .corrupt

/-- `allow_count` requests from `offset` on. -/
def decodeRequests (bytes : Buf) (offset allowCount : Nat) :
    Except TrustCenterStoreError (Bounded ApplicationKeyRequestEntry MAX_APPLICATION_KEY_REQUESTS) :=
  (readVec APPLICATION_KEY_REQUEST_ENTRY_LEN ApplicationKeyRequestEntry.decode .full allowCount (bytes.drop offset)).map (·.1)

def decodeRemovals (bytes : Buf) (removalOffset : Nat) :
    Except TrustCenterStoreError (Bounded PendingUnknownRemoval MAX_TRUST_CENTER_DEVICES) :=
  if bytes.length ≤ removalOffset then .error .corrupt
  else
    let removalCount := (u8At bytes removalOffset).toNat
    if MAX_TRUST_CENTER_DEVICES < removalCount ∨
        bytes.length ≠ removalOffset + UNKNOWN_REMOVAL_HEADER_LEN + removalCount * UNKNOWN_REMOVAL_ENTRY_LEN then
      .error .corrupt
    else
      (readVec UNKNOWN_REMOVAL_ENTRY_LEN PendingUnknownRemoval.decode .full removalCount
        (bytes.drop (removalOffset + UNKNOWN_REMOVAL_HEADER_LEN))).map (·.1)

/-- What follows the devices. -/
structure Trailer where
  applicationKeyRequests : Bounded ApplicationKeyRequestEntry MAX_APPLICATION_KEY_REQUESTS
  rotation : Option NetworkKeyRotation
  pendingUnknownRemovals : Bounded PendingUnknownRemoval MAX_TRUST_CENTER_DEVICES

/-- Trailer of a record with a rotation, versions 2 to 4. -/
def decodeTrailer (bytes : Buf) (deviceBytesLen : Nat) (hasUnknownRemovals : Bool) : Except TrustCenterStoreError Trailer :=
  if bytes.length ≤ deviceBytesLen then .error .corrupt
  else
    let allowCount := (u8At bytes deviceBytesLen).toNat
    let rotationOffset := deviceBytesLen + 1 + allowCount * APPLICATION_KEY_REQUEST_ENTRY_LEN
    let removalOffset := rotationOffset + ROTATION_TRAILER_LEN
    if MAX_APPLICATION_KEY_REQUESTS < allowCount ∨ bytes.length < removalOffset ∨
        (hasUnknownRemovals = false ∧ bytes.length ≠ removalOffset) then
      .error .corrupt
    else do
      let applicationKeyRequests ← decodeRequests bytes (deviceBytesLen + 1) allowCount
      let rotation ← decodeRotation bytes rotationOffset
      let pendingUnknownRemovals ← if hasUnknownRemovals then decodeRemovals bytes removalOffset else .ok Bounded.empty
      return { applicationKeyRequests, rotation, pendingUnknownRemovals }

/-- Trailer of version 1, where also the requests can be missing. -/
def decodeTrailerV1 (bytes : Buf) (deviceBytesLen : Nat) : Except TrustCenterStoreError Trailer :=
  if bytes.length ≠ deviceBytesLen then
    let allowCount := (u8At bytes deviceBytesLen).toNat
    if bytes.length ≤ deviceBytesLen ∨ MAX_APPLICATION_KEY_REQUESTS < allowCount ∨
        bytes.length ≠ deviceBytesLen + 1 + allowCount * APPLICATION_KEY_REQUEST_ENTRY_LEN then
      .error .corrupt
    else do
      let applicationKeyRequests ← decodeRequests bytes (deviceBytesLen + 1) allowCount
      return { applicationKeyRequests, rotation := none, pendingUnknownRemovals := Bounded.empty }
  else .ok { applicationKeyRequests := Bounded.empty, rotation := none, pendingUnknownRemovals := Bounded.empty }

/-- The state, if it passes its checks. -/
def checked (s : PersistentTrustCenterState) : Except TrustCenterStoreError PersistentTrustCenterState :=
  match s.validate with
  | .error e => .error e
  | .ok () => .ok s

def decodeVersion (bytes : Buf) (hasRotation hasUnknownRemovals hasRouterCapability : Bool) :
    Except TrustCenterStoreError PersistentTrustCenterState :=
  if bytes.length ≤ 8 then .error .corrupt
  else
    let count := (u8At bytes 8).toNat
    let deviceBytesLen := STATE_HEADER_LEN + count * DEVICE_ENCODED_LEN
    if MAX_TRUST_CENTER_DEVICES < count ∨ bytes.length < deviceBytesLen then .error .corrupt
    else do
      let pendingApplicationKey ← decodePendingApplicationKey bytes
      let (devices, _) ← readVec DEVICE_ENCODED_LEN (PersistentTrustCenterDevice.decode hasRotation hasRouterCapability) .full
        count (bytes.drop STATE_HEADER_LEN)
      let trailer ← if hasRotation then decodeTrailer bytes deviceBytesLen hasUnknownRemovals
        else decodeTrailerV1 bytes deviceBytesLen
      checked {
        extendedPanId := arrayAt 8 bytes 0
        pendingApplicationKey
        rotation := trailer.rotation
        applicationKeyRequests := trailer.applicationKeyRequests
        devices
        pendingUnknownRemovals := trailer.pendingUnknownRemovals }

def decode (bytes : Buf) := decodeVersion bytes true true true
def decodeV3 (bytes : Buf) := decodeVersion bytes true true false
def decodeV2 (bytes : Buf) := decodeVersion bytes true false false
def decodeV1 (bytes : Buf) := decodeVersion bytes false false false

/-! ### Round trip -/

@[simp] theorem encodePendingApplicationKey_length (p : Option PendingApplicationLinkKey) :
    (encodePendingApplicationKey p).length = 34 := by
  cases p <;> simp [encodePendingApplicationKey]

@[simp] theorem encodeRotation_length (r : Option NetworkKeyRotation) : (encodeRotation r).length = ROTATION_TRAILER_LEN := by
  cases r <;> simp [encodeRotation, ROTATION_TRAILER_LEN]

@[simp] theorem encodeHeader_length (s : PersistentTrustCenterState) : s.encodeHeader.length = STATE_HEADER_LEN := by
  simp [encodeHeader, STATE_HEADER_LEN]

theorem encode_length (s : PersistentTrustCenterState) :
    s.encode.length = STATE_HEADER_LEN + s.devices.items.length * DEVICE_ENCODED_LEN + 1 +
      s.applicationKeyRequests.items.length * APPLICATION_KEY_REQUEST_ENTRY_LEN + ROTATION_TRAILER_LEN +
      UNKNOWN_REMOVAL_HEADER_LEN + s.pendingUnknownRemovals.items.length * UNKNOWN_REMOVAL_ENTRY_LEN := by
  unfold encode UNKNOWN_REMOVAL_HEADER_LEN
  simp only [List.length_append, encodeHeader_length, encodeRotation_length, List.length_singleton,
    length_flatMap_of_width PersistentTrustCenterDevice.encode_length,
    length_flatMap_of_width ApplicationKeyRequestEntry.encode_length, length_flatMap_of_width PendingUnknownRemoval.encode_length]
  omega

theorem encode_fits (s : PersistentTrustCenterState) : s.encode.length ≤ MAX_ENCODED_TRUST_CENTER_STATE_LEN := by
  have h1 := Nat.mul_le_mul_right DEVICE_ENCODED_LEN s.devices.bounded
  have h2 := Nat.mul_le_mul_right APPLICATION_KEY_REQUEST_ENTRY_LEN s.applicationKeyRequests.bounded
  have h3 := Nat.mul_le_mul_right UNKNOWN_REMOVAL_ENTRY_LEN s.pendingUnknownRemovals.bounded
  rw [encode_length]
  unfold MAX_ENCODED_TRUST_CENTER_STATE_LEN
  omega

theorem delivered_roundTrip (initiator responder : Bool) :
    let flags := bit initiator 0 ||| bit responder 1
    flags &&& ~~~0x03 = 0 ∧ (flags &&& 0x01 != 0) = initiator ∧ (flags &&& 0x02 != 0) = responder := by
  revert initiator responder
  decide +kernel

theorem decodePendingApplicationKey_encode {pre post : Buf} {p : Option PendingApplicationLinkKey}
    (h : bytes = pre ++ (encodePendingApplicationKey p ++ post)) (hpre : pre.length = 9) :
    decodePendingApplicationKey bytes = .ok p := by
  unfold decodePendingApplicationKey
  cases p with
  | none =>
    have h9 : u8At bytes 9 = 0 := u8At_of_eq h hpre.symm
    have hslice : slice bytes 10 43 = List.replicate 33 0 := by
      rw [h, slice_append_right (by omega), hpre]
      rfl
    rw [if_pos h9, hslice]
    rfl
  | some p =>
    simp only [encodePendingApplicationKey, List.append_assoc, List.cons_append] at h
    have h9 : u8At bytes 9 = 1 := u8At_of_eq h hpre.symm
    obtain ⟨f1, f2, f3⟩ := delivered_roundTrip p.deliveredToInitiator p.deliveredToResponder
    have h10 : bytes = (pre ++ [1]) ++ (p.initiatorAddress.toList ++ (p.responderAddress.toList ++ (p.key.toList ++
        (bit p.deliveredToInitiator 0 ||| bit p.deliveredToResponder 1) :: post))) := by
      rw [h]
      simp
    have hfields : arrayAt 8 bytes 10 = p.initiatorAddress ∧ arrayAt 8 bytes 18 = p.responderAddress ∧
        arrayAt 16 bytes 26 = p.key ∧
        u8At bytes 42 = bit p.deliveredToInitiator 0 ||| bit p.deliveredToResponder 1 := by
      rw [h10]
      simp (disch := simp [hpre]) only [arrayAt_append_right, u8At_append_right, arrayAt_toList, List.length_append,
        List.length_singleton, hpre, Vector.length_toList, Nat.reduceAdd, Nat.reduceSub, u8At_cons_zero, and_self]
    obtain ⟨g1, g2, g3, g4⟩ := hfields
    rw [if_neg (by rw [h9]; decide), if_pos h9, g1, g2, g3, g4, f1, f2, f3]
    rfl

theorem decodeRotation_encode {pre post : Buf} {r : Option NetworkKeyRotation} {offset : Nat}
    (h : bytes = pre ++ (encodeRotation r ++ post)) (hpre : offset = pre.length) : decodeRotation bytes offset = .ok r := by
  have h0 := u8At_of_eq h hpre
  have h1 := u8At_add_of_eq h hpre 1
  have h2 := u8At_add_of_eq h hpre 2
  unfold decodeRotation
  rw [h0, h1, h2]
  cases r with
  | none => rfl
  | some r =>
    obtain ⟨sequence, phase, method⟩ := r
    cases phase <;> cases method <;> rfl

theorem toNat_count {n : Nat} (h : n ≤ 32) : (UInt8.ofNat n).toNat = n := by
  rw [UInt8.toNat_ofNat']
  omega

theorem decodeRemovals_encode {pre : Buf} (v : Bounded PendingUnknownRemoval MAX_TRUST_CENTER_DEVICES) {offset : Nat}
    (h : bytes = pre ++ ([UInt8.ofNat v.items.length] ++ v.items.flatMap PendingUnknownRemoval.encode)) (hpre : offset = pre.length) :
    decodeRemovals bytes offset = .ok v := by
  have hcount : (u8At bytes offset).toNat = v.items.length := by
    rw [u8At_of_eq h hpre]
    exact toNat_count v.bounded
  have hlen : bytes.length = offset + 1 + v.items.length * UNKNOWN_REMOVAL_ENTRY_LEN := by
    rw [h, List.length_append, List.length_append, length_flatMap_of_width PendingUnknownRemoval.encode_length, hpre,
      List.length_singleton]
    omega
  have hdrop : bytes.drop (offset + 1) = v.items.flatMap PendingUnknownRemoval.encode ++ [] := by
    rw [← List.append_assoc] at h
    rw [List.append_nil]
    exact drop_of_eq h (by simp [hpre])
  unfold decodeRemovals UNKNOWN_REMOVAL_HEADER_LEN
  simp only [hcount]
  rw [if_neg (by omega), if_neg (by have := v.bounded; omega), hdrop,
    readVec_encoded _ _ _ v [] fun p _ => ⟨p.encode_length, p.decode_encode⟩]
  rfl

theorem decodeTrailer_encode {pre : Buf} (t : Trailer) {offset : Nat}
    (h : bytes = pre ++ ([UInt8.ofNat t.applicationKeyRequests.items.length] ++
      (t.applicationKeyRequests.items.flatMap ApplicationKeyRequestEntry.encode ++ (encodeRotation t.rotation ++
        ([UInt8.ofNat t.pendingUnknownRemovals.items.length] ++
          t.pendingUnknownRemovals.items.flatMap PendingUnknownRemoval.encode))))) (hpre : offset = pre.length) :
    decodeTrailer bytes offset true = .ok t := by
  have hrequests := t.applicationKeyRequests.bounded
  have hcount : (u8At bytes offset).toNat = t.applicationKeyRequests.items.length := by
    rw [u8At_of_eq h hpre]
    exact toNat_count (hrequests.trans (by decide))
  have h1 := h
  rw [← List.append_assoc] at h1
  have h2 := h1
  rw [← List.append_assoc] at h2
  have h3 := h2
  rw [← List.append_assoc] at h3
  have hreqLen := length_flatMap_of_width ApplicationKeyRequestEntry.encode_length t.applicationKeyRequests.items
  have hread : decodeRequests bytes (offset + 1) t.applicationKeyRequests.items.length = .ok t.applicationKeyRequests := by
    unfold decodeRequests
    rw [drop_of_eq h1 (by simp [hpre]), readVec_encoded _ _ _ t.applicationKeyRequests _ fun e _ => ⟨e.encode_length, e.decode_encode⟩]
    rfl
  have hrotation : decodeRotation bytes (offset + 1 + t.applicationKeyRequests.items.length * APPLICATION_KEY_REQUEST_ENTRY_LEN) =
      .ok t.rotation := by
    apply decodeRotation_encode h2
    simp only [List.length_append, List.length_singleton, hreqLen, hpre]
  have hremovals : decodeRemovals bytes (offset + 1 +
      t.applicationKeyRequests.items.length * APPLICATION_KEY_REQUEST_ENTRY_LEN + ROTATION_TRAILER_LEN) =
      .ok t.pendingUnknownRemovals := by
    apply decodeRemovals_encode t.pendingUnknownRemovals h3
    simp only [List.length_append, List.length_singleton, hreqLen, hpre, encodeRotation_length]
  have hlen : offset + 1 + t.applicationKeyRequests.items.length * APPLICATION_KEY_REQUEST_ENTRY_LEN + ROTATION_TRAILER_LEN <
      bytes.length := by
    rw [h3]
    simp only [List.length_append, List.length_singleton, hreqLen, hpre, encodeRotation_length]
    omega
  unfold decodeTrailer
  simp only [hcount]
  rw [if_neg (by omega), if_neg (by simp; omega), hread, hrotation]
  simp only [if_true, hremovals]
  rfl

theorem decode_encode (h : s.validate = .ok ()) : decode s.encode = .ok s := by
  have hcount : (u8At s.encode 8).toNat = s.devices.items.length := by
    have hheader : s.encode = s.extendedPanId.toList ++ (UInt8.ofNat s.devices.items.length :: (encodePendingApplicationKey
        s.pendingApplicationKey ++ s.encode.drop STATE_HEADER_LEN)) := by
      rw [show s.encode.drop STATE_HEADER_LEN = _ from drop_of_eq rfl s.encodeHeader_length.symm]
      simp [encode, encodeHeader]
    rw [u8At_of_eq hheader (by simp)]
    exact toNat_count s.devices.bounded
  have hpending : decodePendingApplicationKey s.encode = .ok s.pendingApplicationKey := by
    have hpre : (s.extendedPanId.toList ++ [UInt8.ofNat s.devices.items.length]).length = 9 := by simp
    refine decodePendingApplicationKey_encode (show _ = _ ++ (_ ++ s.encode.drop STATE_HEADER_LEN) from ?_) hpre
    rw [show s.encode.drop STATE_HEADER_LEN = _ from drop_of_eq rfl s.encodeHeader_length.symm]
    simp [encode, encodeHeader]
  have hepid : arrayAt 8 s.encode 0 = s.extendedPanId := by
    unfold encode encodeHeader
    rw [List.append_assoc]
    exact arrayAt_toList _ _
  have hdevices := readVec_encoded (PersistentTrustCenterDevice.decode true true) TrustCenterStoreError.full
    PersistentTrustCenterDevice.encode s.devices
    ([UInt8.ofNat s.applicationKeyRequests.items.length] ++
      (s.applicationKeyRequests.items.flatMap ApplicationKeyRequestEntry.encode ++ (encodeRotation s.rotation ++
        ([UInt8.ofNat s.pendingUnknownRemovals.items.length] ++
          s.pendingUnknownRemovals.items.flatMap PendingUnknownRemoval.encode))))
    fun d hd => ⟨d.encode_length, PersistentTrustCenterDevice.decode_encode (device_of_validate h hd).1
      (device_of_validate h hd).2⟩
  rw [← show s.encode.drop STATE_HEADER_LEN = _ from drop_of_eq rfl s.encodeHeader_length.symm] at hdevices
  have hsplit : s.encode = (s.encodeHeader ++ s.devices.items.flatMap PersistentTrustCenterDevice.encode) ++ _ :=
    (List.append_assoc _ _ _).symm
  have htrailer : decodeTrailer s.encode (STATE_HEADER_LEN + s.devices.items.length * DEVICE_ENCODED_LEN) true =
      .ok ⟨s.applicationKeyRequests, s.rotation, s.pendingUnknownRemovals⟩ := by
    apply decodeTrailer_encode ⟨s.applicationKeyRequests, s.rotation, s.pendingUnknownRemovals⟩ hsplit
    rw [List.length_append, encodeHeader_length, length_flatMap_of_width PersistentTrustCenterDevice.encode_length]
  have hlen := s.encode_length
  unfold decode decodeVersion
  simp only [hcount]
  rw [if_neg (by unfold STATE_HEADER_LEN at hlen; omega), if_neg (by have := s.devices.bounded; omega), hpending, hepid, hdevices]
  simp only [if_true, htrailer, bind, Except.bind, checked, h]

theorem decodeVersion_valid {hasRotation hasUnknownRemovals hasRouterCapability : Bool}
    (h : decodeVersion bytes hasRotation hasUnknownRemovals hasRouterCapability = .ok s) : s.validate = .ok () := by
  have hchecked : ∀ s : PersistentTrustCenterState, Returns s.checked fun s => s.validate = .ok () := by
    intro s s' hs
    unfold checked at hs
    split at hs
    · cases hs
    · cases hs
      assumption
  have hreturns : Returns (decodeVersion bytes hasRotation hasUnknownRemovals hasRouterCapability)
      fun s => s.validate = .ok () := by
    refine returns_ite (fun _ => returns_error _) fun _ => returns_ite (fun _ => returns_error _) fun _ => ?_
    refine returns_check fun _ => returns_check fun devices => ?_
    exact returns_ite (fun _ => returns_check fun _ => hchecked _) fun _ => returns_check fun _ => hchecked _
  exact hreturns s h

/-- **The Trust Center codec is exact.** -/
theorem codec_exact :
    ExactCodec (fun s => s.validate = .ok ()) encode MAX_ENCODED_TRUST_CENTER_STATE_LEN decode
      [decode, decodeV3, decodeV2, decodeV1] := by
  refine ExactCodec.of_roundTrip List.mem_cons_self (fun s h => decode_encode h) (fun s _ => encode_fits s) ?_
  intro d hd bytes s h
  simp only [List.mem_cons, List.not_mem_nil, or_false] at hd
  rcases hd with rfl | rfl | rfl | rfl
  · exact decodeVersion_valid h
  · exact decodeVersion_valid h
  · exact decodeVersion_valid h
  · exact decodeVersion_valid h

end PersistentTrustCenterState

end Zigbee.Runtime
