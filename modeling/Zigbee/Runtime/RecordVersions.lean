import Zigbee.Runtime.SecurityState

/-!
# The versions of the security record

What the decoders of the record versions 1 to 8 share: what they accept is consistent, and none of
them looks at a byte or a flag that a later version introduced.

* `StateFormat.owns`, `allowedFlags`, `lifecycleMask` — the bytes, and the bits of the two flag bytes, that
  a version has.
* `record_codec` — the round trip of the current version, and the three facts for every version.
-/

namespace Zigbee.Runtime

open Bytes PersistentSecurityState

namespace StateFormat

/-- Length of an encoded record. -/
def encodedLen : StateFormat → Nat
  | .v1 => LEGACY_ENCODED_SECURITY_STATE_LEN
  | .v2 => V2_ENCODED_SECURITY_STATE_LEN
  | .v3 | .v4 => V4_ENCODED_SECURITY_STATE_LEN
  | .v5 => V5_ENCODED_SECURITY_STATE_LEN
  | .v6 => V6_ENCODED_SECURITY_STATE_LEN
  | .v7 | .v8 => ENCODED_SECURITY_STATE_LEN

/-- The bytes of a version.  Byte 11 was unused before version 3, and bytes 0 and 100 hold bits. -/
def owns (f : StateFormat) (i : Nat) : Bool :=
  i != 0 && i != 100 && (if i = 11 then f.hasEndDeviceTimeout else decide (i < f.encodedLen))

/-- The lifecycle bits of a version. -/
def lifecycleMask (f : StateFormat) : UInt8 :=
  if f.hasNwkLifecycle then LIFECYCLE_ALLOWED_FLAGS ||| if f = .v8 then LIFECYCLE_NETWORK_KEY_FORWARDING else 0 else 0

/-- No bit that the version does not have is set. -/
def OnlyOwnBits (f : StateFormat) (a : Buf) : Prop :=
  u8At a 0 &&& ~~~f.allowedFlags = 0 ∧ (f.hasNwkLifecycle = true → u8At a 100 &&& ~~~f.lifecycleMask = 0)

/-- Two records agree on what the version has. -/
structure Agree (f : StateFormat) (a b : Buf) : Prop where
  bytes : ∀ i, f.owns i = true → u8At a i = u8At b i
  flags : u8At a 0 &&& f.allowedFlags = u8At b 0 &&& f.allowedFlags
  lifecycle : u8At a 100 &&& f.lifecycleMask = u8At b 100 &&& f.lifecycleMask

/-- The values of the fields that a version predates. -/
structure Migrated (f : StateFormat) (s : PersistentSecurityState) : Prop where
  stagedKey : f.hasStagedKey = false →
    s.stagedNetworkKeyPresent = false ∧ s.stagedNetworkKey = zeroKey ∧ s.stagedKeySequence = 0
  endDeviceTimeout : f.hasEndDeviceTimeout = false →
    s.parentInformationValid = false ∧ s.parentInformation = 0 ∧ s.endDeviceTimeout = ED_TIMEOUT_ENUM_DEFAULT
  updateId : f.hasUpdateIdValid = false → s.updateIdValid = true
  joinKey : f.hasNodeJoinLinkKeyType = false →
    s.nodeJoinLinkKeyType = if s.trustCenterAddress == onesAddress then .distributedSecurityGlobalLinkKey
      else .defaultGlobalTrustCenterLinkKey
  secondaryKey : f.hasSecondaryKeyRole = false → s.secondaryNetworkKeyIsPrevious = false
  lifecycle : f.hasNwkLifecycle = false →
    s.pendingPanId = none ∧ s.pendingPanIdBroadcast = false ∧ s.deviceAnnouncePending = false ∧
      s.parentLinkProvisional = false
  forwarding : f ≠ .v8 → s.networkKeyForwardingPending = false

end StateFormat

theorem u16At_congr {a b : Buf} {i : Nat} (h0 : u8At a i = u8At b i) (h1 : u8At a (i + 1) = u8At b (i + 1)) :
    u16At a i = u16At b i := by
  rw [u16At, u16At, h0, h1]

theorem u32At_congr {a b : Buf} {i : Nat} (h : ∀ k, k < 4 → u8At a (i + k) = u8At b (i + k)) : u32At a i = u32At b i := by
  have h0 := h 0 (by omega)
  rw [Nat.add_zero] at h0
  rw [u32At, u32At, h0, h 1 (by omega), h 2 (by omega), h 3 (by omega)]

theorem arrayAt_congr {a b : Buf} {n i : Nat} (h : ∀ k, k < n → u8At a (i + k) = u8At b (i + k)) :
    arrayAt n a i = arrayAt n b i := by
  unfold arrayAt
  congr 1
  funext k
  exact h k k.isLt

section Decoder

variable {f : StateFormat} {a b : Buf} {s s' : PersistentSecurityState}

/-- The lifecycle byte, for the versions that have one. -/
def lifecycleOf (input : Buf) (f : StateFormat) : UInt8 := if f.hasNwkLifecycle then u8At input 100 else 0

/-- The fields of a record, before they are validated. -/
def fieldsOf (input : Buf) (f : StateFormat) (joinType : NodeJoinLinkKeyType) (isPrevious : Bool) : PersistentSecurityState where
  commissioned := hasFlag (u8At input 0) FLAG_COMMISSIONED
  extendedPanId := arrayAt 8 input 16
  panId := u16At input 4
  shortAddress := u16At input 6
  ieeeAddress := arrayAt 8 input 24
  channel := u8At input 1
  depth := u8At input 2
  parentAddress := u16At input 8
  updateId := u8At input 3
  updateIdValid := if f.hasUpdateIdValid then hasFlag (u8At input 0) FLAG_UPDATE_ID_VALID else true
  networkKey := arrayAt 16 input 32
  keySequence := u8At input 10
  stagedNetworkKeyPresent := f.hasStagedKey && hasFlag (u8At input 0) FLAG_STAGED_NETWORK_KEY
  stagedNetworkKey := if f.hasStagedKey then arrayAt 16 input 81 else zeroKey
  stagedKeySequence := if f.hasStagedKey then u8At input 80 else 0
  secondaryNetworkKeyIsPrevious := isPrevious
  networkKeyForwardingPending := hasFlag (lifecycleOf input f) LIFECYCLE_NETWORK_KEY_FORWARDING
  globalCounterLimit := u32At input 12
  tclkPresent := hasFlag (u8At input 0) FLAG_TCLK_PRESENT
  legacyDefaultTclk := hasFlag (u8At input 0) FLAG_LEGACY_DEFAULT_TCLK
  trustCenterAddress := arrayAt 8 input 48
  trustCenterLinkKey := arrayAt 16 input 56
  tclkCounterLimit := u32At input 72
  tclkIncomingCounter := u32At input 76
  tclkIncomingCounterValid := hasFlag (u8At input 0) FLAG_TCLK_INCOMING_VALID
  rejoinPending := hasFlag (u8At input 0) FLAG_REJOIN_PENDING
  parentInformation := if f.hasEndDeviceTimeout then u8At input 11 else 0
  parentInformationValid := f.hasEndDeviceTimeout && hasFlag (u8At input 0) FLAG_PARENT_INFORMATION_VALID
  endDeviceTimeout := if f.hasEndDeviceTimeout then u8At input 97 else ED_TIMEOUT_ENUM_DEFAULT
  nodeJoinLinkKeyType := joinType
  pendingPanId := if hasFlag (lifecycleOf input f) LIFECYCLE_PENDING_PAN_ID then some (u16At input 101) else none
  pendingPanIdBroadcast := hasFlag (lifecycleOf input f) LIFECYCLE_PENDING_PAN_ID_BROADCAST
  deviceAnnouncePending := hasFlag (lifecycleOf input f) LIFECYCLE_DEVICE_ANNOUNCE_PENDING
  parentLinkProvisional := hasFlag (lifecycleOf input f) LIFECYCLE_PARENT_LINK_PROVISIONAL

/-- The lifecycle bits that the decoder lets pass. -/
def lifecycleAllowed (f : StateFormat) : UInt8 :=
  LIFECYCLE_ALLOWED_FLAGS ||| if f = .v8 then LIFECYCLE_NETWORK_KEY_FORWARDING else 0

/-- The record passes every check of the decoder. -/
structure Accepted (f : StateFormat) (a : Buf) (s : PersistentSecurityState) : Prop where
  flags : u8At a 0 &&& ~~~f.allowedFlags = 0
  lifecycle : lifecycleOf a f &&& ~~~lifecycleAllowed f = 0
  fields : ∃ joinType isPrevious, decodeNodeJoinLinkKeyType a f (arrayAt 8 a 48) = .ok joinType ∧
    decodeSecondaryKeyRole a f = .ok isPrevious ∧ s = fieldsOf a f joinType isPrevious
  valid : s.validate = .ok ()

theorem accepted_of_decode (h : decodeBytes a f = .ok s) : Accepted f a s := by
  unfold decodeBytes at h
  dsimp only [bind, Except.bind, pure, Except.pure, throw, throwThe, MonadExceptOf.throw] at h
  by_cases hflags : (u8At a 0 &&& ~~~f.allowedFlags != 0) = true
  · rw [if_pos hflags] at h
    cases h
  · rw [if_neg hflags] at h
    cases hjoin : decodeNodeJoinLinkKeyType a f (arrayAt 8 a 48) with
    | error e =>
      rw [hjoin] at h
      cases h
    | ok joinType =>
      rw [hjoin] at h
      dsimp only at h
      cases hprevious : decodeSecondaryKeyRole a f with
      | error e =>
        rw [hprevious] at h
        cases h
      | ok isPrevious =>
        rw [hprevious] at h
        dsimp only at h
        by_cases hlifecycle : (lifecycleOf a f &&& ~~~lifecycleAllowed f != 0) = true
        · unfold lifecycleOf lifecycleAllowed at hlifecycle
          rw [if_pos hlifecycle] at h
          cases h
        · have hlifecycle' := hlifecycle
          unfold lifecycleOf lifecycleAllowed at hlifecycle'
          rw [if_neg hlifecycle'] at h
          cases hvalid : (fieldsOf a f joinType isPrevious).validate with
          | error e =>
            unfold fieldsOf lifecycleOf at hvalid
            rw [hvalid] at h
            cases h
          | ok u =>
            have hvalid' := hvalid
            unfold fieldsOf lifecycleOf at hvalid'
            rw [hvalid'] at h
            cases h
            exact ⟨by simpa using hflags, by simpa using hlifecycle, ⟨joinType, isPrevious, hjoin, hprevious, rfl⟩, hvalid⟩

theorem decode_of_accepted (h : Accepted f a s) : decodeBytes a f = .ok s := by
  obtain ⟨joinType, isPrevious, hjoin, hprevious, rfl⟩ := h.fields
  have hlifecycle := h.lifecycle
  have hvalid := h.valid
  unfold lifecycleOf lifecycleAllowed at hlifecycle
  unfold decodeBytes
  dsimp only [bind, Except.bind, pure, Except.pure, throw, throwThe, MonadExceptOf.throw]
  rw [if_neg (by rw [h.flags]; decide), hjoin]
  dsimp only
  rw [hprevious]
  dsimp only
  rw [if_neg (by rw [hlifecycle]; decide)]
  unfold fieldsOf lifecycleOf at hvalid ⊢
  rw [hvalid]

/-- A byte without bits outside of a mask is its part inside. -/
theorem and_mask {x m : UInt8} (h : x &&& ~~~m = 0) : x &&& m = x := by
  apply UInt8.eq_of_toBitVec_eq
  apply BitVec.eq_of_getLsbD_eq
  intro i hi
  have hbit := congrArg (fun v : UInt8 => v.toBitVec.getLsbD i) h
  simp only [UInt8.toBitVec_and, UInt8.toBitVec_not, BitVec.getLsbD_and, BitVec.getLsbD_not, hi, decide_true,
    Bool.true_and, UInt8.toBitVec_zero, BitVec.getLsbD_zero] at hbit
  rw [UInt8.toBitVec_and, BitVec.getLsbD_and]
  cases hx : x.toBitVec.getLsbD i with
  | false => rfl
  | true =>
    rw [hx, Bool.true_and] at hbit
    simpa using hbit

/-- A bit outside of the mask is not set. -/
theorem hasFlag_of_masked {x m bit : UInt8} (h : x &&& ~~~m = 0) (hbit : m &&& bit = 0) : hasFlag x bit = false := by
  rw [hasFlag, ← and_mask h, UInt8.and_assoc, hbit, UInt8.and_zero]
  rfl

theorem Accepted.migrated (h : Accepted f a s) : f.Migrated s := by
  obtain ⟨joinType, isPrevious, hjoin, hprevious, rfl⟩ := h.fields
  have hnone : f.hasNwkLifecycle = false → lifecycleOf a f = 0 := fun hf => by
    rw [lifecycleOf, hf]
    rfl
  have hzero : ∀ mask, hasFlag 0 mask = false := fun mask => by
    rw [hasFlag, UInt8.zero_and]
    rfl
  constructor
  case stagedKey => intro hf; simp [fieldsOf, hf]
  case endDeviceTimeout => intro hf; simp [fieldsOf, hf]
  case updateId => intro hf; simp [fieldsOf, hf]
  case joinKey =>
    intro hf
    rw [decodeNodeJoinLinkKeyType, hf, if_neg Bool.false_ne_true] at hjoin
    dsimp only [fieldsOf]
    split at hjoin <;> cases hjoin <;> simp_all
  case secondaryKey =>
    intro hf
    rw [decodeSecondaryKeyRole, hf, if_neg Bool.false_ne_true] at hprevious
    cases hprevious
    rfl
  case lifecycle =>
    intro hf
    simp only [fieldsOf, hnone hf, hzero, Bool.false_eq_true, if_false, and_self]
  case forwarding =>
    intro hf
    have hallowed : lifecycleAllowed f = LIFECYCLE_ALLOWED_FLAGS := by
      rw [lifecycleAllowed, if_neg hf]
      rfl
    have hl := h.lifecycle
    rw [hallowed] at hl
    exact hasFlag_of_masked hl rfl

namespace StateFormat.Agree

variable (h : f.Agree a b)
include h

/-- The bytes of every version. -/
theorem common {i : Nat} (h0 : i ≠ 0) (h11 : i ≠ 11) (hi : i < 80) : u8At a i = u8At b i := by
  apply h.bytes
  have hlen : i < f.encodedLen := by
    cases f <;> simp only [encodedLen, LEGACY_ENCODED_SECURITY_STATE_LEN, V2_ENCODED_SECURITY_STATE_LEN,
      V4_ENCODED_SECURITY_STATE_LEN, V5_ENCODED_SECURITY_STATE_LEN, V6_ENCODED_SECURITY_STATE_LEN,
      ENCODED_SECURITY_STATE_LEN] <;> omega
  rw [owns, if_neg h11, decide_eq_true hlen]
  simp [h0, show i ≠ 100 by omega]

theorem stagedKey (hf : f.hasStagedKey = true) {i : Nat} (hlo : 80 ≤ i) (hhi : i < 97) : u8At a i = u8At b i := by
  apply h.bytes
  have hlen : i < f.encodedLen := by
    cases f <;> simp only [encodedLen, V2_ENCODED_SECURITY_STATE_LEN, V4_ENCODED_SECURITY_STATE_LEN,
      V5_ENCODED_SECURITY_STATE_LEN, V6_ENCODED_SECURITY_STATE_LEN, ENCODED_SECURITY_STATE_LEN] <;> first | omega | cases hf
  rw [owns, if_neg (by omega), decide_eq_true hlen]
  simp [show i ≠ 0 by omega, show i ≠ 100 by omega]

theorem endDeviceTimeout (hf : f.hasEndDeviceTimeout = true) : u8At a 11 = u8At b 11 ∧ u8At a 97 = u8At b 97 := by
  constructor <;> apply h.bytes <;> cases f <;> first | rfl | cases hf

theorem joinKey (hf : f.hasNodeJoinLinkKeyType = true) : u8At a 98 = u8At b 98 := by
  apply h.bytes
  cases f <;> first | rfl | cases hf

theorem secondaryKey (hf : f.hasSecondaryKeyRole = true) : u8At a 99 = u8At b 99 := by
  apply h.bytes
  cases f <;> first | rfl | cases hf

theorem pendingPanId (hf : f.hasNwkLifecycle = true) : u16At a 101 = u16At b 101 := by
  apply u16At_congr <;> apply h.bytes <;> cases f <;> first | rfl | cases hf

end StateFormat.Agree

/-- The bits that are left of two records that agree are the same. -/
theorem lifecycle_eq (ha : lifecycleOf a f &&& ~~~lifecycleAllowed f = 0) (hb : lifecycleOf b f &&& ~~~lifecycleAllowed f = 0)
    (h : f.Agree a b) : lifecycleOf a f = lifecycleOf b f := by
  have hmask := h.lifecycle
  unfold StateFormat.lifecycleMask at hmask
  have hla := and_mask ha
  have hlb := and_mask hb
  unfold lifecycleOf lifecycleAllowed at hla hlb
  unfold lifecycleOf
  cases hf : f.hasNwkLifecycle with
  | false => rfl
  | true =>
    rw [hf] at hmask hla hlb
    simp only [if_true] at hmask hla hlb ⊢
    rw [← hla, hmask, hlb]

/-- The fields of two records that agree are the same. -/
theorem fieldsOf_congr (h : f.Agree a b) (hflags : u8At a 0 = u8At b 0) (hlifecycle : lifecycleOf a f = lifecycleOf b f)
    (joinType : NodeJoinLinkKeyType) (isPrevious : Bool) : fieldsOf a f joinType isPrevious = fieldsOf b f joinType isPrevious := by
  have hu16 : ∀ i, i ≠ 0 → i < 10 → u16At a i = u16At b i := fun i h0 hi =>
    u16At_congr (h.common h0 (by omega) (by omega)) (h.common (by omega) (by omega) (by omega))
  have hu32 : ∀ i, 12 ≤ i → i ≤ 76 → u32At a i = u32At b i := fun i hlo hhi =>
    u32At_congr fun k hk => h.common (by omega) (by omega) (by omega)
  have harray : ∀ n i, 12 ≤ i → i + n ≤ 80 → arrayAt n a i = arrayAt n b i := fun n i hlo hhi =>
    arrayAt_congr fun k hk => h.common (by omega) (by omega) (by omega)
  have hstagedKey : (if f.hasStagedKey then arrayAt 16 a 81 else zeroKey) = if f.hasStagedKey then arrayAt 16 b 81 else zeroKey := by
    split
    · rename_i hf
      exact arrayAt_congr fun k hk => h.stagedKey hf (by omega) (by omega)
    · rfl
  have hstagedSequence : (if f.hasStagedKey then u8At a 80 else 0) = if f.hasStagedKey then u8At b 80 else 0 := by
    split
    · rename_i hf
      exact h.stagedKey hf (by omega) (by omega)
    · rfl
  have hparent : (if f.hasEndDeviceTimeout then u8At a 11 else 0) = if f.hasEndDeviceTimeout then u8At b 11 else 0 := by
    split
    · rename_i hf
      exact (h.endDeviceTimeout hf).1
    · rfl
  have htimeout : (if f.hasEndDeviceTimeout then u8At a 97 else ED_TIMEOUT_ENUM_DEFAULT) =
      if f.hasEndDeviceTimeout then u8At b 97 else ED_TIMEOUT_ENUM_DEFAULT := by
    split
    · rename_i hf
      exact (h.endDeviceTimeout hf).2
    · rfl
  have hpending : (if hasFlag (lifecycleOf b f) LIFECYCLE_PENDING_PAN_ID then some (u16At a 101) else none) =
      if hasFlag (lifecycleOf b f) LIFECYCLE_PENDING_PAN_ID then some (u16At b 101) else none := by
    cases hf : f.hasNwkLifecycle with
    | true => rw [h.pendingPanId hf]
    | false =>
      have hzero : lifecycleOf b f = 0 := by
        rw [lifecycleOf, hf]
        rfl
      rw [hzero, if_neg (by decide), if_neg (by decide)]
  unfold fieldsOf
  rw [hflags, hlifecycle, hstagedKey, hstagedSequence, hparent, htimeout, hpending, harray 8 48 (by omega) (by omega),
    h.common (i := 1) (by omega) (by omega) (by omega), h.common (i := 2) (by omega) (by omega) (by omega),
    h.common (i := 3) (by omega) (by omega) (by omega), h.common (i := 10) (by omega) (by omega) (by omega),
    hu16 4 (by omega) (by omega), hu16 6 (by omega) (by omega), hu16 8 (by omega) (by omega),
    hu32 12 (by omega) (by omega), hu32 72 (by omega) (by omega), hu32 76 (by omega) (by omega),
    harray 8 16 (by omega) (by omega), harray 8 24 (by omega) (by omega), harray 16 32 (by omega) (by omega),
    harray 16 56 (by omega) (by omega)]

/-- A record that agrees with an accepted one is accepted unless it has bits that the version does not. -/
theorem Accepted.transfer (ha : Accepted f a s) (h : f.Agree a b) (hown : f.OnlyOwnBits b) : Accepted f b s := by
  have hb : lifecycleOf b f &&& ~~~lifecycleAllowed f = 0 := by
    have hl := hown.2
    unfold StateFormat.lifecycleMask at hl
    unfold lifecycleOf lifecycleAllowed
    cases hf : f.hasNwkLifecycle with
    | false => exact UInt8.zero_and
    | true => simpa [hf] using hl hf
  have hflags : u8At a 0 = u8At b 0 := by
    rw [← and_mask ha.flags, h.flags, and_mask hown.1]
  obtain ⟨joinType, isPrevious, hjoin, hprevious, hs⟩ := ha.fields
  have htrust : arrayAt 8 a 48 = arrayAt 8 b 48 :=
    arrayAt_congr fun k hk => h.common (by omega) (by omega) (by omega)
  refine ⟨hown.1, hb, ⟨joinType, isPrevious, ?_, ?_, ?_⟩, ha.valid⟩
  · rw [← hjoin, htrust]
    unfold decodeNodeJoinLinkKeyType
    cases hf : f.hasNodeJoinLinkKeyType with
    | false => rfl
    | true => rw [h.joinKey hf]
  · rw [← hprevious]
    unfold decodeSecondaryKeyRole
    cases hf : f.hasSecondaryKeyRole with
    | false => rfl
    | true => rw [h.secondaryKey hf]
  · rw [hs]
    exact fieldsOf_congr h hflags (lifecycle_eq ha.lifecycle hb h) joinType isPrevious

theorem Accepted.onlyOwnBits (h : Accepted f a s) : f.OnlyOwnBits a := by
  refine ⟨h.flags, fun hf => ?_⟩
  have hl := h.lifecycle
  unfold lifecycleOf lifecycleAllowed at hl
  unfold StateFormat.lifecycleMask
  rwa [hf, if_pos rfl] at hl ⊢

/-- **The record codec.**  A valid state survives its encoding.  What the decoder of any version accepts
    is valid, has the migration defaults in the fields that the version predates, and depends on nothing
    but the bytes and the bits of the version: a record that agrees on these decodes to the same state,
    or is refused because it sets a bit that the version does not have. -/
theorem record_codec :
    (∀ s : PersistentSecurityState, s.validate = .ok () → decodeBytes s.encode .v8 = .ok s) ∧
    ∀ (f : StateFormat) (a : Buf) (s : PersistentSecurityState), decodeBytes a f = .ok s →
      s.validate = .ok () ∧ f.Migrated s ∧ ∀ (b : Buf) (s' : PersistentSecurityState), f.Agree a b →
        (decodeBytes b f = .ok s' ↔ s' = s ∧ f.OnlyOwnBits b) := by
  refine ⟨fun s hs => ?_, fun f a s h => ?_⟩
  · rw [decode_encode, hs]
    rfl
  · have ha := accepted_of_decode h
    refine ⟨ha.valid, ha.migrated, fun b s' hagree => ⟨fun hb => ?_, ?_⟩⟩
    · have hown := (accepted_of_decode hb).onlyOwnBits
      have := decode_of_accepted (ha.transfer hagree hown)
      exact ⟨Except.ok.inj (hb.symm.trans this), hown⟩
    · rintro ⟨rfl, hown⟩
      exact decode_of_accepted (ha.transfer hagree hown)

/-- A member of a centralised network amid a change of the network key and of the PAN id. -/
def busyMember : PersistentSecurityState :=
  { empty with
    commissioned := true
    panId := 0x1A62
    shortAddress := 0x4F2C
    ieeeAddress := Vector.replicate 8 0x11
    channel := 15
    depth := 1
    updateId := 4
    updateIdValid := true
    networkKey := Vector.replicate 16 0x44
    keySequence := 2
    stagedNetworkKeyPresent := true
    stagedNetworkKey := Vector.replicate 16 0x45
    stagedKeySequence := 3
    networkKeyForwardingPending := true
    globalCounterLimit := 0x400
    tclkPresent := true
    trustCenterAddress := Vector.replicate 8 0x22
    trustCenterLinkKey := Vector.replicate 16 0x55
    tclkCounterLimit := 0x800
    tclkIncomingCounter := 9
    tclkIncomingCounterValid := true
    pendingPanId := some 0x2B73
    deviceAnnouncePending := true
    parentLinkProvisional := true }

/-- That member's record is read back, and a blank version 1 record also when byte 11, which it does not
    have, is set. -/
theorem member_records :
    decodeBytes busyMember.encode .v8 = .ok busyMember ∧
    decodeBytes (List.replicate 11 0 ++ [7] ++ List.replicate 68 0) .v1 = .ok { empty with updateIdValid := true } := by
  have hagree : StateFormat.v1.Agree (List.replicate 80 0) (List.replicate 11 0 ++ [7] ++ List.replicate 68 0) := by
    have hbytes : ∀ i < 80, StateFormat.v1.owns i = true →
        u8At (List.replicate 80 0) i = u8At (List.replicate 11 0 ++ [7] ++ List.replicate 68 0) i := by decide
    refine ⟨fun i hi => hbytes i ?_ hi, rfl, rfl⟩
    by_contra hlen
    have hnot : StateFormat.v1.owns i = false := by
      rw [StateFormat.owns, if_neg (by omega), decide_eq_false (by simpa [StateFormat.encodedLen,
        LEGACY_ENCODED_SECURITY_STATE_LEN] using hlen), Bool.and_false]
    rw [hnot] at hi
    cases hi
  exact ⟨record_codec.1 busyMember (by decide),
    ((record_codec.2 .v1 (List.replicate 80 0) _ rfl).2.2 _ _ hagree).mpr ⟨rfl, rfl, fun hf => by cases hf⟩⟩

end Decoder

end Zigbee.Runtime
