import Zigbee.Aps.Frames
import Zigbee.Nwk.HeaderCodec

/-!
# The bytes of the APS headers

* `ApsHeader.cursor`, `ApsSecurityHeader.cursor` — the parsers as the source has them, over a buffer and an
  offset; they compute `ApsHeader.parse` and `ApsSecurityHeader.parse`.
* `ApsHeader.roundTrip`, `ApsSecurityHeader.roundTrip` — parser and serializer are inverse.
* `header_codecs_inverse` — the four headers, alone and in pairs.
-/

namespace Zigbee.Aps

open Bytes Cursor Implements

/-! ## The frame control byte -/

variable {fc : ApsFrameControl}

namespace ApsFrameControl

structure WellFormed (fc : ApsFrameControl) : Prop where
  frameType : fc.frameType.toNat < 4
  deliveryMode : fc.deliveryMode.toNat < 4

theorem parse_serialize_fields : ∀ t d : Fin 4, ∀ ackFormat security ackRequest extended : Bool,
    parse (serialize ⟨UInt8.ofNat t, UInt8.ofNat d, ackFormat, security, ackRequest, extended⟩) =
      ⟨UInt8.ofNat t, UInt8.ofNat d, ackFormat, security, ackRequest, extended⟩ := by
  decide +kernel

theorem parse_serialize (h : fc.WellFormed) : parse fc.serialize = fc := by
  have hfields := parse_serialize_fields ⟨fc.frameType.toNat, h.frameType⟩ ⟨fc.deliveryMode.toNat, h.deliveryMode⟩
    fc.ackFormat fc.security fc.ackRequest fc.extendedHeader
  simpa only [UInt8.ofNat_toNat] using hfields

theorem and_three_lt (raw : UInt8) : (raw &&& 0x03).toNat < 4 := by
  have hle : (raw &&& 0x03).toNat ≤ 3 := by
    rw [UInt8.toNat_and]
    exact Nat.and_le_right
  omega

theorem parse_wellFormed (raw : UInt8) : (parse raw).WellFormed := ⟨and_three_lt raw, and_three_lt (raw >>> 2)⟩

/-- The eight bits are all used. -/
theorem serialize_parse_fin : ∀ n : Fin 256, serialize (parse (UInt8.ofNat n)) = UInt8.ofNat n := by decide +kernel

theorem serialize_parse (raw : UInt8) : serialize (parse raw) = raw := by
  simpa only [UInt8.ofNat_toNat] using serialize_parse_fin ⟨raw.toNat, raw.toNat_lt⟩

end ApsFrameControl

/-! ## The extended header -/

namespace ApsExtendedHeader

/-- `frameType`: the raw frame type of the header. -/
structure WellFormed (frameType : UInt8) (ext : ApsExtendedHeader) : Prop where
  fragmentation : ext.fragmentation.toNat < 3
  whole : ext.fragmentation = FRAG_NONE → ext.blockNumber = 0 ∧ ext.ackBitfield = none
  fragment : ext.fragmentation ≠ FRAG_NONE → ext.ackBitfield.isSome = (frameType == ApsFrameType.ack.toU8)

def cursor (frameType : ApsFrameType) : Cursor ApsExtendedHeader := do
  need 1
  let extFc ← u8
  let fragmentation := extFc &&& 0x03
  if fragmentation = FRAG_RESERVED then reject
  else if fragmentation = FRAG_NONE then pure ⟨fragmentation, 0, none⟩
  else
    need 1
    let blockNumber ← u8
    let ackBitfield ← ifPresent (frameType == .ack) (need 1 >>= fun _ => u8)
    pure ⟨fragmentation, blockNumber, ackBitfield⟩

theorem cursor_implements (frameType : ApsFrameType) : Implements 0 (cursor frameType) (parse frameType) := by
  unfold parse
  refine u8_implements.needBind readU8_fixedWidth.short fun extFc => ?_
  refine ite (fun _ => reject) fun _ => ?_
  refine ite (fun _ => pure _) fun _ => ?_
  refine u8_implements.needBind readU8_fixedWidth.short fun blockNumber => ?_
  exact (need_u8_implements.ifPresent _).bind fun ackBitfield => pure _

/-- The bytes behind the extended frame control. -/
def tail (frameType : UInt8) (ext : ApsExtendedHeader) : Buf :=
  if ext.fragmentation = FRAG_NONE then []
  else ext.blockNumber :: if frameType = ApsFrameType.ack.toU8 then [ext.ackBitfield.getD 0] else []

theorem serialize_eq (frameType : UInt8) (ext : ApsExtendedHeader) :
    serialize frameType ext = (ext.fragmentation &&& 0x03) :: tail frameType ext := rfl

theorem tail_fragment {frameType : ApsFrameType} {ext : ApsExtendedHeader} (h : ext.WellFormed frameType.toU8)
    (hfragment : ext.fragmentation ≠ FRAG_NONE) :
    tail frameType.toU8 ext = ext.blockNumber :: encIf (fun b => [b]) ext.ackBitfield := by
  have hsome := h.fragment hfragment
  unfold tail
  rw [if_neg hfragment]
  by_cases hack : frameType.toU8 = ApsFrameType.ack.toU8
  · rw [if_pos hack]
    rw [beq_iff_eq.mpr hack] at hsome
    obtain ⟨b, hb⟩ := Option.isSome_iff_exists.mp hsome
    rw [hb]
    rfl
  · rw [if_neg hack]
    rw [beq_eq_false_iff_ne.mpr hack, Option.isSome_eq_false_iff, Option.isNone_iff_eq_none] at hsome
    rw [hsome]
    rfl

theorem parse_eq_some {frameType : ApsFrameType} {d rest : Buf} {ext : ApsExtendedHeader} :
    parse frameType d = some (ext, rest) ↔
      ext.WellFormed frameType.toU8 ∧
        ∃ raw, raw &&& 0x03 = ext.fragmentation ∧ d = raw :: (tail frameType.toU8 ext ++ rest) := by
  simp only [parse, readU8_inverse.bind_eq_some]
  constructor
  · rintro ⟨raw, d, -, rfl, h⟩
    have hrange : (raw &&& 0x03).toNat < 4 := ApsFrameControl.and_three_lt raw
    split at h
    · cases h
    · rename_i hreserved
      have hlt : (raw &&& 0x03).toNat < 3 := by
        have hne : (raw &&& 0x03).toNat ≠ 3 := fun heq => hreserved (UInt8.toNat_inj.mp heq)
        omega
      split at h
      · rename_i hnone
        obtain ⟨rfl, rfl⟩ := Prod.mk.inj (Option.some.inj h)
        refine ⟨⟨hlt, fun _ => ⟨rfl, rfl⟩, fun hne => absurd hnone hne⟩, raw, rfl, ?_⟩
        simp only [tail, if_pos hnone, List.nil_append, List.singleton_append]
      · rename_i hfragment
        simp only [readU8_inverse.bind_eq_some, (readU8_inverse.readIf _).bind_eq_some] at h
        obtain ⟨blockNumber, d, -, rfl, ackBitfield, d, ⟨hsome, -⟩, rfl, heq⟩ := h
        obtain ⟨rfl, rfl⟩ := Prod.mk.inj (Option.some.inj heq)
        have hwf : WellFormed frameType.toU8 ⟨raw &&& 0x03, blockNumber, ackBitfield⟩ := by
          refine ⟨hlt, fun hnone => absurd hnone hfragment, fun _ => ?_⟩
          rw [hsome]
          cases frameType <;> rfl
        refine ⟨hwf, raw, rfl, ?_⟩
        rw [tail_fragment hwf hfragment]
        rfl
  · rintro ⟨hwf, raw, hraw, rfl⟩
    refine ⟨raw, _, trivial, rfl, ?_⟩
    have hreserved : ¬ ext.fragmentation = FRAG_RESERVED := by
      intro heq
      have hlt := hwf.fragmentation
      rw [heq] at hlt
      exact absurd hlt (by decide)
    rw [hraw, if_neg hreserved]
    by_cases hnone : ext.fragmentation = FRAG_NONE
    · obtain ⟨hblock, hack⟩ := hwf.whole hnone
      rw [if_pos hnone]
      simp only [tail, if_pos hnone]
      rw [← hblock, ← hack]
      rfl
    · rw [if_neg hnone]
      simp only [readU8_inverse.bind_eq_some, (readU8_inverse.readIf _).bind_eq_some]
      refine ⟨ext.blockNumber, _, trivial, by rw [tail_fragment hwf hnone]; rfl, ext.ackBitfield, rest, ⟨?_, fun _ _ => trivial⟩, rfl, rfl⟩
      rw [hwf.fragment hnone]
      cases frameType <;> rfl

end ApsExtendedHeader

/-! ## The header -/

namespace ApsHeader

def isAddressed (fc : ApsFrameControl) : Bool :=
  fc.frameType == ApsFrameType.data.toU8 || (fc.frameType == ApsFrameType.ack.toU8 && !fc.ackFormat)

def hasDstEndpoint (fc : ApsFrameControl) : Bool :=
  isAddressed fc &&
    (fc.deliveryMode == ApsDeliveryMode.unicast.toU8 || fc.deliveryMode == ApsDeliveryMode.broadcast.toU8)

def hasGroup (fc : ApsFrameControl) : Bool := fc.deliveryMode == ApsDeliveryMode.group.toU8

/-- Every optional field is there exactly if the frame control asks for it. -/
structure WellFormed (h : ApsHeader) : Prop where
  frameControl : h.frameControl.WellFormed
  dstEndpoint : h.dstEndpoint.isSome = hasDstEndpoint h.frameControl
  groupAddress : h.groupAddress.isSome = hasGroup h.frameControl
  clusterId : h.clusterId.isSome = isAddressed h.frameControl
  profileId : h.profileId.isSome = isAddressed h.frameControl
  srcEndpoint : h.srcEndpoint.isSome = isAddressed h.frameControl
  extendedHeader : h.extendedHeader.isSome = h.frameControl.extendedHeader
  extended : ∀ ext, h.extendedHeader = some ext → ext.WellFormed h.frameControl.frameType

/-- `ApsHeader::parse` -/
def cursor : Cursor ApsHeader := do
  need 1
  let raw ← u8
  let fc := ApsFrameControl.parse raw
  let frameType ← ofOption (ApsFrameType.fromU8 fc.frameType)
  let deliveryMode ← ofOption (ApsDeliveryMode.fromU8 fc.deliveryMode)
  let isAddressed := addressed frameType fc
  let dstEndpoint ← ifPresent (isAddressed && (deliveryMode == .unicast || deliveryMode == .broadcast))
    (need 1 >>= fun _ => u8)
  let groupAddress ← ifPresent (deliveryMode == .group) (need 2 >>= fun _ => u16)
  let clusterId ← ifPresent isAddressed (need 2 >>= fun _ => u16)
  let profileId ← ifPresent isAddressed (need 2 >>= fun _ => u16)
  let srcEndpoint ← ifPresent isAddressed (need 1 >>= fun _ => u8)
  need 1
  let apsCounter ← u8
  let extendedHeader ← ifPresent fc.extendedHeader (ApsExtendedHeader.cursor frameType)
  pure ⟨fc, dstEndpoint, groupAddress, clusterId, profileId, srcEndpoint, apsCounter, extendedHeader⟩

def parseAt (data : Buf) : Except ReadFault (ApsHeader × Nat) := Cursor.parse cursor data

theorem cursor_implements : Implements 0 cursor parse := by
  unfold parse
  refine u8_implements.needBind readU8_fixedWidth.short fun raw => ?_
  refine ofOption fun frameType _ => ofOption fun deliveryMode _ => ?_
  refine (need_u8_implements.ifPresent _).bind fun dstEndpoint => ?_
  refine (need_u16_implements.ifPresent _).bind fun groupAddress => ?_
  refine (need_u16_implements.ifPresent _).bind fun clusterId => ?_
  refine (need_u16_implements.ifPresent _).bind fun profileId => ?_
  refine (need_u8_implements.ifPresent _).bind fun srcEndpoint => ?_
  refine u8_implements.needBind readU8_fixedWidth.short fun apsCounter => ?_
  exact ((ApsExtendedHeader.cursor_implements frameType).ifPresent _).bind fun extendedHeader => pure _

theorem fromU8_toU8 {v : UInt8} {t : ApsFrameType} (h : ApsFrameType.fromU8 v = some t) : t.toU8 = v := by
  unfold ApsFrameType.fromU8 at h
  split at h <;> [skip; split at h <;> [skip; split at h <;> [skip; split at h <;> [skip; cases h]]]]
  all_goals
    obtain rfl := Option.some.inj h
    simp only [ApsFrameType.toU8, *]

theorem deliveryMode_toU8 {v : UInt8} {m : ApsDeliveryMode} (h : ApsDeliveryMode.fromU8 v = some m) : m.toU8 = v := by
  unfold ApsDeliveryMode.fromU8 at h
  split at h <;> [skip; split at h <;> [skip; split at h <;> [skip; split at h <;> [skip; cases h]]]]
  all_goals
    obtain rfl := Option.some.inj h
    simp only [ApsDeliveryMode.toU8, *]

theorem frameType_known : ∀ v : Fin 4, (ApsFrameType.fromU8 (UInt8.ofNat v)).isSome = true := by decide

theorem deliveryMode_known : ∀ v : Fin 4, (ApsDeliveryMode.fromU8 (UInt8.ofNat v)).isSome = true := by decide

/-- The presence conditions of the parser, on the enumerations, are those of the frame control. -/
theorem addressed_eq {t : ApsFrameType} (h : t.toU8 = fc.frameType) : addressed t fc = isAddressed fc := by
  unfold isAddressed
  rw [← h]
  cases t <;> simp [addressed, ApsFrameType.toU8]

theorem hasGroup_eq {m : ApsDeliveryMode} (h : m.toU8 = fc.deliveryMode) : (m == .group) = hasGroup fc := by
  unfold hasGroup
  rw [← h]
  cases m <;> rfl

theorem hasDstEndpoint_eq {m : ApsDeliveryMode} (hm : m.toU8 = fc.deliveryMode) :
    (isAddressed fc && (m == .unicast || m == .broadcast)) = hasDstEndpoint fc := by
  unfold hasDstEndpoint
  rw [← hm]
  cases m <;> rfl

/-- The header with the bytes of its extended header. -/
def serializeWith (h : ApsHeader) (ext : Buf) : Buf :=
  [h.frameControl.serialize] ++ encIf (fun b => [b]) h.dstEndpoint ++ encIf le16 h.groupAddress ++ encIf le16 h.clusterId ++
    encIf le16 h.profileId ++ encIf (fun b => [b]) h.srcEndpoint ++ [h.apsCounter] ++ ext

theorem serialize_eq (h : ApsHeader) :
    serialize h = serializeWith h (encIf (ApsExtendedHeader.serialize h.frameControl.frameType) h.extendedHeader) := by
  have hbyte : ∀ x : Option UInt8, x.toList = encIf (fun b => [b]) x := by rintro (_ | b) <;> rfl
  simp only [serialize, serializeWith, hbyte, encIf]

/-- The bytes of an extended header, whatever stands in the reserved bits. -/
def ExtendedBytes (h : ApsHeader) (bytes : Buf) : Prop :=
  match h.extendedHeader with
  | none => bytes = []
  | some ext => ∃ raw, raw &&& 0x03 = ext.fragmentation ∧ bytes = raw :: ApsExtendedHeader.tail h.frameControl.frameType ext

theorem extendedBytes_serialize {h : ApsHeader} (hwf : h.WellFormed) :
    h.ExtendedBytes (encIf (ApsExtendedHeader.serialize h.frameControl.frameType) h.extendedHeader) := by
  unfold ExtendedBytes
  cases hext : h.extendedHeader with
  | none => rfl
  | some ext =>
    have hlt := (hwf.extended ext hext).fragmentation
    have hmask : ext.fragmentation &&& 0x03 = ext.fragmentation := by
      apply UInt8.toNat_inj.mp
      rw [UInt8.toNat_and]
      exact Nat.and_two_pow_sub_one_of_lt_two_pow (n := 2) (by omega)
    exact ⟨ext.fragmentation &&& 0x03, by rw [hmask, hmask], ApsExtendedHeader.serialize_eq _ ext⟩

theorem extendedBytes_length {h : ApsHeader} {bytes : Buf} (hb : h.ExtendedBytes bytes) :
    bytes.length = (encIf (ApsExtendedHeader.serialize h.frameControl.frameType) h.extendedHeader).length := by
  unfold ExtendedBytes at hb
  cases hext : h.extendedHeader with
  | none =>
    rw [hext] at hb
    rw [hb]
    rfl
  | some ext =>
    rw [hext] at hb
    obtain ⟨raw, -, rfl⟩ := hb
    rw [encIf_some, ApsExtendedHeader.serialize_eq, List.length_cons, List.length_cons]

/-- **What the parser accepts**: a well-formed header, with any reserved bits in its extended frame control. -/
theorem parse_eq_some {d rest : Buf} {h : ApsHeader} :
    parse d = some (h, rest) ↔
      h.WellFormed ∧ ∃ bytes, h.ExtendedBytes bytes ∧ d = serializeWith h bytes ++ rest := by
  simp only [parse, readU8_inverse.bind_eq_some]
  constructor
  · rintro ⟨raw, d, -, rfl, hread⟩
    obtain ⟨t, ht, hmode⟩ := Option.bind_eq_some_iff.mp hread
    obtain ⟨m, hm, hfields⟩ := Option.bind_eq_some_iff.mp hmode
    have ht' := fromU8_toU8 ht
    have hm' := deliveryMode_toU8 hm
    simp only [(readU8_inverse.readIf _).bind_eq_some, (readU16_inverse.readIf _).bind_eq_some,
      readU8_inverse.bind_eq_some, hasDstEndpoint_eq hm', hasGroup_eq hm', addressed_eq ht'] at hfields
    obtain ⟨dst, d, ⟨hdst, -⟩, rfl, group, d, ⟨hgroup, -⟩, rfl, cluster, d, ⟨hcluster, -⟩, rfl, profile, d, ⟨hprofile, -⟩, rfl,
      src, d, ⟨hsrc, -⟩, rfl, counter, d, -, rfl, hlast⟩ := hfields
    obtain ⟨⟨x, rest'⟩, hext, heq⟩ := Option.bind_eq_some_iff.mp hlast
    obtain ⟨rfl, rfl⟩ := Prod.mk.inj (Option.some.inj heq)
    rcases readIf_eq_some.mp hext with ⟨habsent, rfl, rfl⟩ | ⟨hpresent, ext, rfl, hparse⟩
    · refine ⟨⟨ApsFrameControl.parse_wellFormed raw, hdst, hgroup, hcluster, hprofile, hsrc, habsent.symm,
        fun ext hx => by cases hx⟩, [], rfl, ?_⟩
      simp only [serializeWith, ApsFrameControl.serialize_parse, List.append_assoc, List.nil_append]
    · obtain ⟨hwf, raw', hraw', rfl⟩ := ApsExtendedHeader.parse_eq_some.mp hparse
      rw [ht'] at hwf
      refine ⟨⟨ApsFrameControl.parse_wellFormed raw, hdst, hgroup, hcluster, hprofile, hsrc, hpresent.symm,
        fun e hx => Option.some.inj hx ▸ hwf⟩, raw' :: ApsExtendedHeader.tail (ApsFrameControl.parse raw).frameType ext,
        ⟨raw', hraw', rfl⟩, ?_⟩
      rw [ht']
      simp only [serializeWith, ApsFrameControl.serialize_parse, List.append_assoc, List.cons_append]
  · rintro ⟨hwf, bytes, hbytes, rfl⟩
    obtain ⟨t, ht⟩ := Option.isSome_iff_exists.mp (frameType_known ⟨h.frameControl.frameType.toNat, hwf.frameControl.frameType⟩)
    obtain ⟨m, hm⟩ := Option.isSome_iff_exists.mp
      (deliveryMode_known ⟨h.frameControl.deliveryMode.toNat, hwf.frameControl.deliveryMode⟩)
    simp only [UInt8.ofNat_toNat] at ht hm
    have ht' := fromU8_toU8 ht
    have hm' := deliveryMode_toU8 hm
    refine ⟨h.frameControl.serialize, _, trivial, by simp only [serializeWith, List.append_assoc]; rfl, ?_⟩
    rw [ApsFrameControl.parse_serialize hwf.frameControl]
    refine Option.bind_eq_some_iff.mpr ⟨t, ht, Option.bind_eq_some_iff.mpr ⟨m, hm, ?_⟩⟩
    simp only [(readU8_inverse.readIf _).bind_eq_some, (readU16_inverse.readIf _).bind_eq_some,
      readU8_inverse.bind_eq_some, hasDstEndpoint_eq hm', hasGroup_eq hm', addressed_eq ht']
    refine ⟨h.dstEndpoint, _, ⟨hwf.dstEndpoint, fun _ _ => trivial⟩, rfl, h.groupAddress, _, ⟨hwf.groupAddress, fun _ _ => trivial⟩, rfl,
      h.clusterId, _, ⟨hwf.clusterId, fun _ _ => trivial⟩, rfl, h.profileId, _, ⟨hwf.profileId, fun _ _ => trivial⟩, rfl,
      h.srcEndpoint, _, ⟨hwf.srcEndpoint, fun _ _ => trivial⟩, rfl, h.apsCounter, _, trivial, rfl, ?_⟩
    refine Option.bind_eq_some_iff.mpr ⟨(h.extendedHeader, rest), readIf_eq_some.mpr ?_, rfl⟩
    have hsome := hwf.extendedHeader
    unfold ExtendedBytes at hbytes
    cases hext : h.extendedHeader with
    | none =>
      rw [hext] at hsome hbytes
      exact Or.inl ⟨hsome.symm, rfl, by rw [hbytes]; rfl⟩
    | some ext =>
      rw [hext] at hsome hbytes
      obtain ⟨raw, hraw, rfl⟩ := hbytes
      refine Or.inr ⟨hsome.symm, ext, rfl, ApsExtendedHeader.parse_eq_some.mpr ⟨?_, raw, hraw, ?_⟩⟩
      · rw [ht']
        exact hwf.extended ext hext
      · rw [ht']
        rfl

/-- **The APS header codec is inverse.** -/
theorem roundTrip : RoundTrip WellFormed serialize parseAt := by
  refine roundTrip_of_implements cursor_implements (fun h rest hwf => ?_) (fun d h rest hread => ?_)
  · exact parse_eq_some.mpr ⟨hwf, _, extendedBytes_serialize hwf, by rw [serialize_eq]⟩
  · obtain ⟨hwf, bytes, hbytes, rfl⟩ := parse_eq_some.mp hread
    refine ⟨hwf, ?_⟩
    rw [List.length_append, serialize_eq]
    simp only [serializeWith, List.length_append, extendedBytes_length hbytes]

/-- The acknowledgement of a fragment, in front of one byte of payload. -/
example : parseAt [0x82, 0x01, 0x06, 0x00, 0x04, 0x01, 0x0B, 0x2A, 0x02, 0x03, 0x07, 0xEE] =
    .ok (⟨⟨2, 0, false, false, false, true⟩, some 0x01, none, some 0x0006, some 0x0104, some 0x0B, 0x2A,
      some ⟨0x02, 0x03, some 0x07⟩⟩, 11) := by
  rfl

end ApsHeader

/-! ## The auxiliary security header -/

namespace ApsSecurityHeader

structure WellFormed (h : ApsSecurityHeader) : Prop where
  sourceAddress : h.sourceAddress.isSome = extendedNonce h.securityControl
  keySeqNumber : h.keySeqNumber.isSome = (keyIdentifier h.securityControl == KEY_ID_NETWORK_KEY)

/-- `ApsSecurityHeader::parse` -/
def cursor : Cursor ApsSecurityHeader := do
  need 5
  let securityControl ← u8
  let frameCounter ← u32
  let sourceAddress ← ifPresent (extendedNonce securityControl) (need 8 >>= fun _ => array 8)
  let keySeqNumber ← ifPresent (keyIdentifier securityControl == KEY_ID_NETWORK_KEY)
    (need 1 >>= fun _ => u8)
  pure ⟨securityControl, frameCounter, sourceAddress, keySeqNumber⟩

def parseAt (data : Buf) : Except ReadFault (ApsSecurityHeader × Nat) := Cursor.parse cursor data

/-- The chain of readers behind the length check. -/
def readFields (data : Buf) : Option (ApsSecurityHeader × Buf) := do
  let (securityControl, data) ← readU8 data
  let (frameCounter, data) ← readU32 data
  let (sourceAddress, data) ← readIf (extendedNonce securityControl) (readArray 8) data
  let (keySeqNumber, data) ← readIf (keyIdentifier securityControl == KEY_ID_NETWORK_KEY) readU8 data
  some (⟨securityControl, frameCounter, sourceAddress, keySeqNumber⟩, data)

theorem readFields_inverse : Inverse WellFormed readFields serialize := by
  have hserialize : ∀ h : ApsSecurityHeader, serialize h = [h.securityControl] ++ le32 h.frameCounter ++
      encIf Vector.toList h.sourceAddress ++ encIf (fun b => [b]) h.keySeqNumber := by
    rintro ⟨securityControl, frameCounter, sourceAddress, _ | keySeqNumber⟩
    · rfl
    · rfl
  have hiff : ∀ d h rest, readFields d = some (h, rest) ↔ h.WellFormed ∧ d = serialize h ++ rest := by
    intro d h rest
    simp only [readFields, readU8_inverse.bind_eq_some, readU32_inverse.bind_eq_some,
      ((readArray_inverse 8).readIf _).bind_eq_some, (readU8_inverse.readIf _).bind_eq_some]
    constructor
    · rintro ⟨securityControl, d, -, rfl, frameCounter, d, -, rfl, sourceAddress, d, ⟨hsource, -⟩, rfl,
        keySeqNumber, d, ⟨hseq, -⟩, rfl, heq⟩
      obtain ⟨rfl, rfl⟩ := Prod.mk.inj (Option.some.inj heq)
      refine ⟨⟨hsource, hseq⟩, ?_⟩
      simp only [hserialize, List.append_assoc]
    · rintro ⟨hwf, rfl⟩
      refine ⟨h.securityControl, _, trivial, by simp only [hserialize, List.append_assoc]; rfl, ?_⟩
      exact ⟨h.frameCounter, _, trivial, rfl, h.sourceAddress, _, ⟨hwf.sourceAddress, fun _ _ => trivial⟩, rfl,
        h.keySeqNumber, _, ⟨hwf.keySeqNumber, fun _ _ => trivial⟩, rfl, rfl⟩
  exact ⟨fun h rest hwf => (hiff _ h rest).mpr ⟨hwf, rfl⟩, fun d h rest hread => (hiff d h rest).mp hread⟩

theorem readFields_short : ∀ d : Buf, d.length < 5 → readFields d = none :=
  readFields_inverse.short fun h _ => by
    simp only [serialize, List.length_append, List.length_singleton, le32_length]
    omega

theorem parse_eq_readFields : parse = readFields := by
  funext d
  unfold parse
  split
  · rename_i hshort
    exact (readFields_short d hshort).symm
  · rfl

theorem cursor_implements : Implements 0 cursor parse := by
  rw [parse_eq_readFields]
  refine checked (n := 5) ?_ readFields_short
  unfold readFields
  refine u8_implements.bindFixed readU8_fixedWidth (by decide) fun securityControl => ?_
  refine u32_implements.bindFixed readU32_fixedWidth (by decide) fun frameCounter => ?_
  refine ((need_array_implements 8).ifPresent _).bind fun sourceAddress => ?_
  exact (need_u8_implements.ifPresent _).bind fun keySeqNumber => pure _

/-- **The auxiliary header codec is inverse.** -/
theorem roundTrip : RoundTrip WellFormed serialize parseAt := by
  refine roundTrip_of_implements cursor_implements ?_ (fun d h rest hread => ?_)
  · rw [parse_eq_readFields]
    exact readFields_inverse.complete
  · rw [parse_eq_readFields] at hread
    obtain ⟨hwf, rfl⟩ := readFields_inverse.sound d h rest hread
    exact ⟨hwf, List.length_append⟩

end ApsSecurityHeader

/-! ## All headers -/

/-- What a frame starts with: a header, its auxiliary header, and the payload behind them. -/
def HeadersRead {α β : Type} (serialize : α → Buf) (parse : Buf → Except ReadFault (α × Nat)) (serializeAux : β → Buf)
    (parseAux : Buf → Except ReadFault (β × Nat)) (h : α) (aux : β) : Prop :=
  ∀ payload, let frame := serialize h ++ (serializeAux aux ++ payload)
    parse frame = .ok (h, (serialize h).length) ∧
      parseAux (frame.drop (serialize h).length) = .ok (aux, (serializeAux aux).length) ∧
      frame.drop ((serialize h).length + (serializeAux aux).length) = payload

/-- **The header codecs are inverse**, and a header and the auxiliary header behind it are both read back. -/
theorem header_codecs_inverse :
    RoundTrip Nwk.NwkHeader.WellFormed Nwk.NwkHeader.serialize Nwk.NwkHeader.parse ∧
      RoundTrip (fun _ => True) Nwk.NwkSecurityHeader.serialize Nwk.NwkSecurityHeader.parse ∧
      RoundTrip ApsHeader.WellFormed ApsHeader.serialize ApsHeader.parseAt ∧
      RoundTrip ApsSecurityHeader.WellFormed ApsSecurityHeader.serialize ApsSecurityHeader.parseAt ∧
      (∀ h : Nwk.NwkHeader, h.WellFormed → ∀ aux, HeadersRead Nwk.NwkHeader.serialize Nwk.NwkHeader.parse
        Nwk.NwkSecurityHeader.serialize Nwk.NwkSecurityHeader.parse h aux) ∧
      ∀ h : ApsHeader, h.WellFormed → ∀ aux : ApsSecurityHeader, aux.WellFormed → HeadersRead ApsHeader.serialize
        ApsHeader.parseAt ApsSecurityHeader.serialize ApsSecurityHeader.parseAt h aux := by
  refine ⟨Nwk.NwkHeader.roundTrip, Nwk.NwkSecurityHeader.roundTrip, ApsHeader.roundTrip, ApsSecurityHeader.roundTrip, ?_, ?_⟩
  · intro h hwf aux payload
    exact Nwk.NwkHeader.roundTrip.parse_both Nwk.NwkSecurityHeader.roundTrip hwf trivial payload
  · intro h hwf aux haux payload
    exact ApsHeader.roundTrip.parse_both ApsSecurityHeader.roundTrip hwf haux payload

end Zigbee.Aps
