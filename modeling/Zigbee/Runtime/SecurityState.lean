import Zigbee.Types

/-!
# The persistent security state and its record encoding

Model of `PersistentSecurityState` of `zigbee-runtime/src/security_store.rs`: the state a node
needs for a secured rejoin, its consistency check and its encoding in the record versions 1 to 8.

* `encode` — the current (version 8) layout, 103 bytes.
* `decodeBytes` — one decoder for all versions; `StateFormat` says which bytes and flags a
  version may touch.
* `validate` — the consistency check every decoded state passes and every stored state must pass.

`decode_encode`: decoding an encoded state returns it exactly when it passes `validate`.
-/

namespace Zigbee.Runtime

open Bytes

/-- Errors of the security stores. -/
inductive SecurityStoreError where
  | notFound
  | corrupt
  | full
  | hardware
  | counterExhausted
  | generationExhausted
  deriving DecidableEq, Repr

def ED_TIMEOUT_ENUM_DEFAULT : UInt8 := 8
def ED_TIMEOUT_ENUM_MAX : UInt8 := 14
def PARENT_INFO_MASK : UInt8 := 0x03

def ENCODED_SECURITY_STATE_LEN : Nat := 103
def V6_ENCODED_SECURITY_STATE_LEN : Nat := 100
def V5_ENCODED_SECURITY_STATE_LEN : Nat := 99
def V4_ENCODED_SECURITY_STATE_LEN : Nat := 98
def V2_ENCODED_SECURITY_STATE_LEN : Nat := 97
def LEGACY_ENCODED_SECURITY_STATE_LEN : Nat := 80

def FLAG_COMMISSIONED : UInt8 := 0x01
def FLAG_TCLK_PRESENT : UInt8 := 0x02
def FLAG_TCLK_INCOMING_VALID : UInt8 := 0x04
def FLAG_REJOIN_PENDING : UInt8 := 0x08
def FLAG_LEGACY_DEFAULT_TCLK : UInt8 := 0x10
def FLAG_STAGED_NETWORK_KEY : UInt8 := 0x20
def FLAG_PARENT_INFORMATION_VALID : UInt8 := 0x40
def FLAG_UPDATE_ID_VALID : UInt8 := 0x80

def LIFECYCLE_PENDING_PAN_ID : UInt8 := 0x01
def LIFECYCLE_PENDING_PAN_ID_BROADCAST : UInt8 := 0x02
def LIFECYCLE_DEVICE_ANNOUNCE_PENDING : UInt8 := 0x04
def LIFECYCLE_PARENT_LINK_PROVISIONAL : UInt8 := 0x08
def LIFECYCLE_NETWORK_KEY_FORWARDING : UInt8 := 0x10
def LIFECYCLE_ALLOWED_FLAGS : UInt8 :=
  LIFECYCLE_PENDING_PAN_ID ||| LIFECYCLE_PENDING_PAN_ID_BROADCAST |||
    LIFECYCLE_DEVICE_ANNOUNCE_PENDING ||| LIFECYCLE_PARENT_LINK_PROVISIONAL

/-- Encoded record layout revision. -/
inductive StateFormat where
  | v1 | v2 | v3 | v4 | v5 | v6 | v7 | v8
  deriving DecidableEq, Repr

namespace StateFormat

def allowedFlags (f : StateFormat) : UInt8 :=
  let common := FLAG_COMMISSIONED ||| FLAG_TCLK_PRESENT ||| FLAG_TCLK_INCOMING_VALID |||
    FLAG_REJOIN_PENDING ||| FLAG_LEGACY_DEFAULT_TCLK
  match f with
  | .v1 => common
  | .v2 => common ||| FLAG_STAGED_NETWORK_KEY
  | .v3 => common ||| FLAG_STAGED_NETWORK_KEY ||| FLAG_PARENT_INFORMATION_VALID
  | .v4 | .v5 | .v6 | .v7 | .v8 =>
    common ||| FLAG_STAGED_NETWORK_KEY ||| FLAG_PARENT_INFORMATION_VALID ||| FLAG_UPDATE_ID_VALID

def hasStagedKey : StateFormat → Bool
  | .v1 => false
  | _ => true

def hasEndDeviceTimeout : StateFormat → Bool
  | .v3 | .v4 | .v5 | .v6 | .v7 | .v8 => true
  | _ => false

def hasUpdateIdValid : StateFormat → Bool
  | .v4 | .v5 | .v6 | .v7 | .v8 => true
  | _ => false

def hasNodeJoinLinkKeyType : StateFormat → Bool
  | .v5 | .v6 | .v7 | .v8 => true
  | _ => false

def hasSecondaryKeyRole : StateFormat → Bool
  | .v6 | .v7 | .v8 => true
  | _ => false

def hasNwkLifecycle : StateFormat → Bool
  | .v7 | .v8 => true
  | _ => false

end StateFormat

/-- Complete crash-safe state needed for a secured rejoin. -/
structure PersistentSecurityState where
  commissioned : Bool
  extendedPanId : IeeeAddress
  panId : UInt16
  shortAddress : UInt16
  ieeeAddress : IeeeAddress
  channel : UInt8
  depth : UInt8
  parentAddress : UInt16
  updateId : UInt8
  updateIdValid : Bool
  networkKey : AesKey
  keySequence : UInt8
  stagedNetworkKeyPresent : Bool
  stagedNetworkKey : AesKey
  stagedKeySequence : UInt8
  secondaryNetworkKeyIsPrevious : Bool
  networkKeyForwardingPending : Bool
  globalCounterLimit : UInt32
  tclkPresent : Bool
  legacyDefaultTclk : Bool
  trustCenterAddress : IeeeAddress
  trustCenterLinkKey : AesKey
  tclkCounterLimit : UInt32
  tclkIncomingCounter : UInt32
  tclkIncomingCounterValid : Bool
  rejoinPending : Bool
  parentInformation : UInt8
  parentInformationValid : Bool
  endDeviceTimeout : UInt8
  nodeJoinLinkKeyType : NodeJoinLinkKeyType
  pendingPanId : Option UInt16
  pendingPanIdBroadcast : Bool
  deviceAnnouncePending : Bool
  parentLinkProvisional : Bool
  deriving DecidableEq

def zeroAddress : IeeeAddress := Vector.replicate 8 0
def onesAddress : IeeeAddress := Vector.replicate 8 0xFF
def zeroKey : AesKey := Vector.replicate 16 0

variable (s : PersistentSecurityState)

namespace PersistentSecurityState

def empty : PersistentSecurityState where
  commissioned := false
  extendedPanId := zeroAddress
  panId := 0
  shortAddress := 0
  ieeeAddress := zeroAddress
  channel := 0
  depth := 0
  parentAddress := 0
  updateId := 0
  updateIdValid := false
  networkKey := zeroKey
  keySequence := 0
  stagedNetworkKeyPresent := false
  stagedNetworkKey := zeroKey
  stagedKeySequence := 0
  secondaryNetworkKeyIsPrevious := false
  networkKeyForwardingPending := false
  globalCounterLimit := 0
  tclkPresent := false
  legacyDefaultTclk := false
  trustCenterAddress := zeroAddress
  trustCenterLinkKey := zeroKey
  tclkCounterLimit := 0
  tclkIncomingCounter := 0
  tclkIncomingCounterValid := false
  rejoinPending := false
  parentInformation := 0
  parentInformationValid := false
  endDeviceTimeout := ED_TIMEOUT_ENUM_DEFAULT
  nodeJoinLinkKeyType := .defaultGlobalTrustCenterLinkKey
  pendingPanId := none
  pendingPanIdBroadcast := false
  deviceAnnouncePending := false
  parentLinkProvisional := false

/-- The node formed and owns the PAN. -/
def isFormedNetwork (s : PersistentSecurityState) : Bool :=
  s.shortAddress == 0x0000 && s.depth == 0 && s.parentAddress == 0xFFFF

/-- `mask` when `b` is set. -/
def flag (b : Bool) (mask : UInt8) : UInt8 := if b then mask else 0

def hasFlag (flags mask : UInt8) : Bool := flags &&& mask != 0

def encodeFlags (s : PersistentSecurityState) : UInt8 :=
  flag s.commissioned FLAG_COMMISSIONED ||| flag s.tclkPresent FLAG_TCLK_PRESENT |||
    flag s.tclkIncomingCounterValid FLAG_TCLK_INCOMING_VALID |||
    flag s.rejoinPending FLAG_REJOIN_PENDING ||| flag s.legacyDefaultTclk FLAG_LEGACY_DEFAULT_TCLK |||
    flag s.stagedNetworkKeyPresent FLAG_STAGED_NETWORK_KEY |||
    flag s.parentInformationValid FLAG_PARENT_INFORMATION_VALID |||
    flag s.updateIdValid FLAG_UPDATE_ID_VALID

def encodeLifecycle (s : PersistentSecurityState) : UInt8 :=
  flag s.pendingPanId.isSome LIFECYCLE_PENDING_PAN_ID |||
    flag s.pendingPanIdBroadcast LIFECYCLE_PENDING_PAN_ID_BROADCAST |||
    flag s.deviceAnnouncePending LIFECYCLE_DEVICE_ANNOUNCE_PENDING |||
    flag s.parentLinkProvisional LIFECYCLE_PARENT_LINK_PROVISIONAL |||
    flag s.networkKeyForwardingPending LIFECYCLE_NETWORK_KEY_FORWARDING

/-- The version 8 encoding; the offsets of the source are the running lengths. -/
def encode (s : PersistentSecurityState) : Buf :=
  [s.encodeFlags, s.channel, s.depth, s.updateId] ++ le16 s.panId ++ le16 s.shortAddress ++
    le16 s.parentAddress ++ [s.keySequence, s.parentInformation] ++ le32 s.globalCounterLimit ++
    s.extendedPanId.toList ++ s.ieeeAddress.toList ++ s.networkKey.toList ++
    s.trustCenterAddress.toList ++ s.trustCenterLinkKey.toList ++ le32 s.tclkCounterLimit ++
    le32 s.tclkIncomingCounter ++ [s.stagedKeySequence] ++ s.stagedNetworkKey.toList ++
    [s.endDeviceTimeout, s.nodeJoinLinkKeyType.toU8,
      if s.secondaryNetworkKeyIsPrevious then 1 else 0, s.encodeLifecycle] ++
    le16 (s.pendingPanId.getD 0)

/-- The consistency check of stored and decoded states. -/
def validate (s : PersistentSecurityState) : Except SecurityStoreError Unit := do
  let formedNetwork := s.isFormedNetwork
  let distributed := s.nodeJoinLinkKeyType.isDistributed
  if s.commissioned &&
      (!(11 ≤ s.channel && s.channel ≤ 26) || s.panId == 0xFFFF || s.shortAddress == 0xFFFF ||
        s.ieeeAddress == zeroAddress || s.globalCounterLimit == 0 ||
        !(formedNetwork || distributed || s.tclkPresent || s.legacyDefaultTclk)) then
    throw .corrupt
  if formedNetwork && !distributed &&
      (s.tclkPresent || s.legacyDefaultTclk || s.trustCenterAddress != zeroAddress ||
        s.trustCenterLinkKey != zeroKey || s.tclkIncomingCounter != 0 ||
        s.tclkIncomingCounterValid || s.rejoinPending || s.parentInformation != 0 ||
        s.parentInformationValid || s.endDeviceTimeout != ED_TIMEOUT_ENUM_DEFAULT) then
    throw .corrupt
  if distributed &&
      (s.trustCenterAddress != onesAddress || s.tclkPresent || s.legacyDefaultTclk ||
        s.trustCenterLinkKey != zeroKey || s.tclkCounterLimit != 0 || s.tclkIncomingCounter != 0 ||
        s.tclkIncomingCounterValid) then
    throw .corrupt
  if !distributed && s.trustCenterAddress == onesAddress then
    throw .corrupt
  if s.legacyDefaultTclk &&
      (!s.commissioned || s.tclkPresent || s.trustCenterAddress != zeroAddress ||
        s.trustCenterLinkKey != zeroKey || s.tclkCounterLimit == 0 || s.tclkIncomingCounter != 0 ||
        s.tclkIncomingCounterValid) then
    throw .corrupt
  if s.stagedNetworkKeyPresent then
    if !s.commissioned || s.stagedKeySequence == s.keySequence ||
        (s.secondaryNetworkKeyIsPrevious && s.stagedKeySequence != s.keySequence - 1) then
      throw .corrupt
  else if s.stagedKeySequence != 0 || s.stagedNetworkKey != zeroKey ||
      s.secondaryNetworkKeyIsPrevious then
    throw .corrupt
  if s.networkKeyForwardingPending &&
      (!s.commissioned || distributed || !s.stagedNetworkKeyPresent) then
    throw .corrupt
  if s.tclkPresent && (s.trustCenterAddress == zeroAddress || s.tclkCounterLimit == 0) then
    throw .corrupt
  if s.rejoinPending && !s.commissioned then
    throw .corrupt
  if s.endDeviceTimeout > ED_TIMEOUT_ENUM_MAX || s.parentInformation &&& ~~~PARENT_INFO_MASK != 0 ||
      (!s.parentInformationValid && s.parentInformation != 0) then
    throw .corrupt
  if !s.updateIdValid && s.updateId != 0 then
    throw .corrupt
  match s.pendingPanId with
  | some pendingPanId =>
    if !s.commissioned || !s.updateIdValid || pendingPanId == 0 || pendingPanId == 0xFFFF ||
        pendingPanId == s.panId then
      throw .corrupt
  | none =>
    if s.pendingPanIdBroadcast then
      throw .corrupt
  if s.deviceAnnouncePending && (!s.commissioned || formedNetwork) then
    throw .corrupt
  if s.parentLinkProvisional && (!s.commissioned || formedNetwork || distributed) then
    throw .corrupt

/-- Byte 98, or the migration default of the formats that predate it. -/
def decodeNodeJoinLinkKeyType (input : Buf) (format : StateFormat) (trustCenterAddress : IeeeAddress) :
    Except SecurityStoreError NodeJoinLinkKeyType :=
  if format.hasNodeJoinLinkKeyType then
    match NodeJoinLinkKeyType.fromU8 (u8At input 98) with
    | some t => .ok t
    | none => .error .corrupt
  else if trustCenterAddress == onesAddress then
    .ok .distributedSecurityGlobalLinkKey
  else
    .ok .defaultGlobalTrustCenterLinkKey

/-- Byte 99: the inactive key is the previous one. -/
def decodeSecondaryKeyRole (input : Buf) (format : StateFormat) : Except SecurityStoreError Bool :=
  if format.hasSecondaryKeyRole then
    if u8At input 99 = 0 then .ok false
    else if u8At input 99 = 1 then .ok true
    else .error .corrupt
  else .ok false

/-- The decoder of every record version; `format` selects what it may read. -/
def decodeBytes (input : Buf) (format : StateFormat) :
    Except SecurityStoreError PersistentSecurityState := do
  let flags := u8At input 0
  if flags &&& ~~~format.allowedFlags != 0 then
    throw .corrupt
  let trustCenterAddress : IeeeAddress := arrayAt 8 input 48
  let nodeJoinLinkKeyType ← decodeNodeJoinLinkKeyType input format trustCenterAddress
  let secondaryNetworkKeyIsPrevious ← decodeSecondaryKeyRole input format
  let lifecycle := if format.hasNwkLifecycle then u8At input 100 else 0
  let allowed := LIFECYCLE_ALLOWED_FLAGS |||
    if format = .v8 then LIFECYCLE_NETWORK_KEY_FORWARDING else 0
  if lifecycle &&& ~~~allowed != 0 then
    throw .corrupt
  let state : PersistentSecurityState := {
    commissioned := hasFlag flags FLAG_COMMISSIONED
    tclkPresent := hasFlag flags FLAG_TCLK_PRESENT
    tclkIncomingCounterValid := hasFlag flags FLAG_TCLK_INCOMING_VALID
    rejoinPending := hasFlag flags FLAG_REJOIN_PENDING
    legacyDefaultTclk := hasFlag flags FLAG_LEGACY_DEFAULT_TCLK
    channel := u8At input 1
    depth := u8At input 2
    updateId := u8At input 3
    updateIdValid := if format.hasUpdateIdValid then hasFlag flags FLAG_UPDATE_ID_VALID else true
    panId := u16At input 4
    shortAddress := u16At input 6
    parentAddress := u16At input 8
    keySequence := u8At input 10
    globalCounterLimit := u32At input 12
    extendedPanId := arrayAt 8 input 16
    ieeeAddress := arrayAt 8 input 24
    networkKey := arrayAt 16 input 32
    trustCenterAddress
    trustCenterLinkKey := arrayAt 16 input 56
    tclkCounterLimit := u32At input 72
    tclkIncomingCounter := u32At input 76
    stagedNetworkKeyPresent := format.hasStagedKey && hasFlag flags FLAG_STAGED_NETWORK_KEY
    stagedKeySequence := if format.hasStagedKey then u8At input 80 else 0
    stagedNetworkKey := if format.hasStagedKey then arrayAt 16 input 81 else zeroKey
    parentInformationValid :=
      format.hasEndDeviceTimeout && hasFlag flags FLAG_PARENT_INFORMATION_VALID
    parentInformation := if format.hasEndDeviceTimeout then u8At input 11 else 0
    endDeviceTimeout :=
      if format.hasEndDeviceTimeout then u8At input 97 else ED_TIMEOUT_ENUM_DEFAULT
    nodeJoinLinkKeyType
    secondaryNetworkKeyIsPrevious
    pendingPanId :=
      if hasFlag lifecycle LIFECYCLE_PENDING_PAN_ID then some (u16At input 101) else none
    pendingPanIdBroadcast := hasFlag lifecycle LIFECYCLE_PENDING_PAN_ID_BROADCAST
    deviceAnnouncePending := hasFlag lifecycle LIFECYCLE_DEVICE_ANNOUNCE_PENDING
    parentLinkProvisional := hasFlag lifecycle LIFECYCLE_PARENT_LINK_PROVISIONAL
    networkKeyForwardingPending := hasFlag lifecycle LIFECYCLE_NETWORK_KEY_FORWARDING }
  state.validate
  return state

/-! ## Round trip -/

@[simp] theorem encode_length : s.encode.length = 103 := by
  simp [encode]

/-- Every flag reads back from the flags byte, and version 8 allows all of them. -/
theorem encodeFlags_roundtrip :
    s.encodeFlags &&& ~~~StateFormat.v8.allowedFlags = 0 ∧
      hasFlag s.encodeFlags FLAG_COMMISSIONED = s.commissioned ∧
      hasFlag s.encodeFlags FLAG_TCLK_PRESENT = s.tclkPresent ∧
      hasFlag s.encodeFlags FLAG_TCLK_INCOMING_VALID = s.tclkIncomingCounterValid ∧
      hasFlag s.encodeFlags FLAG_REJOIN_PENDING = s.rejoinPending ∧
      hasFlag s.encodeFlags FLAG_LEGACY_DEFAULT_TCLK = s.legacyDefaultTclk ∧
      hasFlag s.encodeFlags FLAG_STAGED_NETWORK_KEY = s.stagedNetworkKeyPresent ∧
      hasFlag s.encodeFlags FLAG_PARENT_INFORMATION_VALID = s.parentInformationValid ∧
      hasFlag s.encodeFlags FLAG_UPDATE_ID_VALID = s.updateIdValid := by
  unfold encodeFlags
  generalize s.commissioned = a, s.tclkPresent = b, s.tclkIncomingCounterValid = c,
    s.rejoinPending = d, s.legacyDefaultTclk = e, s.stagedNetworkKeyPresent = f,
    s.parentInformationValid = g, s.updateIdValid = h
  revert a b c d e f g h
  decide +kernel

theorem encodeLifecycle_roundtrip :
    s.encodeLifecycle &&& ~~~(LIFECYCLE_ALLOWED_FLAGS ||| LIFECYCLE_NETWORK_KEY_FORWARDING) = 0 ∧
      hasFlag s.encodeLifecycle LIFECYCLE_PENDING_PAN_ID = s.pendingPanId.isSome ∧
      hasFlag s.encodeLifecycle LIFECYCLE_PENDING_PAN_ID_BROADCAST = s.pendingPanIdBroadcast ∧
      hasFlag s.encodeLifecycle LIFECYCLE_DEVICE_ANNOUNCE_PENDING = s.deviceAnnouncePending ∧
      hasFlag s.encodeLifecycle LIFECYCLE_PARENT_LINK_PROVISIONAL = s.parentLinkProvisional ∧
      hasFlag s.encodeLifecycle LIFECYCLE_NETWORK_KEY_FORWARDING = s.networkKeyForwardingPending := by
  unfold encodeLifecycle
  generalize s.pendingPanId.isSome = a, s.pendingPanIdBroadcast = b, s.deviceAnnouncePending = c,
    s.parentLinkProvisional = d, s.networkKeyForwardingPending = e
  revert a b c d e
  decide +kernel

/-- Every field the decoder reads, off the encoding. -/
theorem encode_fields :
    u8At s.encode 0 = s.encodeFlags ∧ u8At s.encode 1 = s.channel ∧ u8At s.encode 2 = s.depth ∧
    u8At s.encode 3 = s.updateId ∧ u16At s.encode 4 = s.panId ∧ u16At s.encode 6 = s.shortAddress ∧
    u16At s.encode 8 = s.parentAddress ∧ u8At s.encode 10 = s.keySequence ∧
    u8At s.encode 11 = s.parentInformation ∧ u32At s.encode 12 = s.globalCounterLimit ∧
    arrayAt 8 s.encode 16 = s.extendedPanId ∧ arrayAt 8 s.encode 24 = s.ieeeAddress ∧
    arrayAt 16 s.encode 32 = s.networkKey ∧ arrayAt 8 s.encode 48 = s.trustCenterAddress ∧
    arrayAt 16 s.encode 56 = s.trustCenterLinkKey ∧ u32At s.encode 72 = s.tclkCounterLimit ∧
    u32At s.encode 76 = s.tclkIncomingCounter ∧ u8At s.encode 80 = s.stagedKeySequence ∧
    arrayAt 16 s.encode 81 = s.stagedNetworkKey ∧ u8At s.encode 97 = s.endDeviceTimeout ∧
    u8At s.encode 98 = s.nodeJoinLinkKeyType.toU8 ∧
    u8At s.encode 99 = (if s.secondaryNetworkKeyIsPrevious then 1 else 0) ∧
    u8At s.encode 100 = s.encodeLifecycle ∧ u16At s.encode 101 = s.pendingPanId.getD 0 := by
  simp only [encode, List.append_assoc]
  simp (disch := simp) only [u8At_append_right, u8At_append_left, u16At_append_right,
    u32At_append_right, arrayAt_append_right, le16_length, le32_length, Vector.length_toList,
    List.length_cons, List.length_nil, Nat.reduceAdd, Nat.reduceSub, u16At_le16, u16At_le16_self,
    u32At_le32, arrayAt_toList]
  simp only [u8At, List.getD_cons_zero, List.getD_cons_succ, and_self]

/-- **The current record version loses nothing**: an encoded state decodes to itself, unless the
    decoder's consistency check refuses it. -/
theorem decode_encode : decodeBytes s.encode .v8 = (s.validate.map fun _ => s) := by
  obtain ⟨h0, h1, h2, h3, h4, h6, h8, h10, h11, h12, h16, h24, h32, h48, h56, h72, h76, h80, h81, h97,
    h98, h99, h100, h101⟩ := encode_fields s
  obtain ⟨f0, f1, f2, f3, f4, f5, f6, f7, f8⟩ := encodeFlags_roundtrip s
  obtain ⟨l0, l1, l2, l3, l4, l5⟩ := encodeLifecycle_roundtrip s
  have hjoin : decodeNodeJoinLinkKeyType s.encode .v8 s.trustCenterAddress =
      .ok s.nodeJoinLinkKeyType := by
    simp [decodeNodeJoinLinkKeyType, StateFormat.hasNodeJoinLinkKeyType, h98,
      NodeJoinLinkKeyType.fromU8_toU8]
  have hprev : decodeSecondaryKeyRole s.encode .v8 = .ok s.secondaryNetworkKeyIsPrevious := by
    simp only [decodeSecondaryKeyRole, StateFormat.hasSecondaryKeyRole, h99]
    cases s.secondaryNetworkKeyIsPrevious <;> rfl
  have hpan : (if s.pendingPanId.isSome then some (s.pendingPanId.getD 0) else none) =
      s.pendingPanId := by
    cases s.pendingPanId <;> rfl
  simp only [decodeBytes, h0, h1, h2, h3, h4, h6, h8, h10, h11, h12, h16, h24, h32, h48, h56, h72, h76,
    h80, h81, h97, h100, h101, f0, f1, f2, f3, f4, f5, f6, f7, f8, l0, l1, l2, l3, l4, l5,
    StateFormat.hasStagedKey, StateFormat.hasEndDeviceTimeout, StateFormat.hasUpdateIdValid,
    StateFormat.hasNwkLifecycle, hjoin, hprev, hpan, if_true, bne_self_eq_false, Bool.true_and,
    Bool.false_eq_true, if_false]
  cases hv : s.validate <;> simp [hv, bind, Except.bind, pure, Except.pure, Except.map]

end PersistentSecurityState

end Zigbee.Runtime
