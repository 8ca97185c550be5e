import Zigbee.Lib.FieldReader
import Zigbee.Nwk.Frames

/-!
# The bytes of the NWK header

Model of the parser and the serializer of `NwkHeader` (`frames.rs`) and of `NwkSecurityHeader`
(`security.rs`).

* `NwkHeader.cursor`, `NwkSecurityHeader.cursor` — the parsers as the source has them, over a buffer and an
  offset.
* `NwkHeader.read`, `NwkSecurityHeader.read` — the same as chains of readers.
* `NwkHeader.roundTrip`, `NwkSecurityHeader.roundTrip` — parser and serializer are inverse.
-/

namespace Zigbee.Nwk

open Bytes Cursor Implements

def NWKC_PROTOCOL_VERSION : UInt8 := 0x02

namespace NwkFrameControl

def parse (raw : UInt16) : NwkFrameControl where
  frameType := (raw &&& 0x03).toUInt8
  protocolVersion := ((raw >>> 2) &&& 0x0F).toUInt8
  discoverRoute := ((raw >>> 6) &&& 0x03).toUInt8
  multicast := (raw >>> 8) &&& 1 != 0
  security := (raw >>> 9) &&& 1 != 0
  sourceRoute := (raw >>> 10) &&& 1 != 0
  dstIeeePresent := (raw >>> 11) &&& 1 != 0
  srcIeeePresent := (raw >>> 12) &&& 1 != 0
  endDeviceInitiator := (raw >>> 13) &&& 1 != 0

def serialize (fc : NwkFrameControl) : UInt16 :=
  let bit (b : Bool) (i : UInt16) : UInt16 := if b then 1 <<< i else 0
  (fc.frameType.toUInt16 &&& 0x03) ||| ((fc.protocolVersion.toUInt16 &&& 0x0F) <<< (2 : UInt16)) |||
    ((fc.discoverRoute.toUInt16 &&& 0x03) <<< (6 : UInt16)) ||| bit fc.multicast 8 ||| bit fc.security 9 |||
    bit fc.sourceRoute 10 ||| bit fc.dstIeeePresent 11 ||| bit fc.srcIeeePresent 12 ||| bit fc.endDeviceInitiator 13

/-- The subfields are in their ranges. -/
structure WellFormed (fc : NwkFrameControl) : Prop where
  frameType : fc.frameType.toNat < 4
  protocolVersion : fc.protocolVersion = NWKC_PROTOCOL_VERSION
  discoverRoute : fc.discoverRoute.toNat < 4

theorem parse_serialize_fields : ∀ t d : Fin 4, ∀ multicast security sourceRoute dstIeee srcIeee initiator : Bool,
    parse (serialize ⟨UInt8.ofNat t, 2, UInt8.ofNat d, multicast, security, sourceRoute, dstIeee, srcIeee, initiator⟩) =
      ⟨UInt8.ofNat t, 2, UInt8.ofNat d, multicast, security, sourceRoute, dstIeee, srcIeee, initiator⟩ := by
  decide +kernel

theorem parse_serialize {fc : NwkFrameControl} (h : fc.WellFormed) : parse fc.serialize = fc := by
  have hfields := parse_serialize_fields ⟨fc.frameType.toNat, h.frameType⟩ ⟨fc.discoverRoute.toNat, h.discoverRoute⟩
    fc.multicast fc.security fc.sourceRoute fc.dstIeeePresent fc.srcIeeePresent fc.endDeviceInitiator
  simp only [UInt8.ofNat_toNat] at hfields
  obtain ⟨frameType, protocolVersion, discoverRoute⟩ := fc
  obtain rfl : protocolVersion = 2 := h.protocolVersion
  exact hfields

theorem toUInt8_and_three_lt (raw : UInt16) : (raw &&& 0x03).toUInt8.toNat < 4 := by
  have hle : (raw &&& 0x03).toNat ≤ 3 := by
    rw [UInt16.toNat_and]
    exact Nat.and_le_right
  rw [UInt16.toNat_toUInt8]
  omega

theorem parse_wellFormed {raw : UInt16} (h : (parse raw).protocolVersion = NWKC_PROTOCOL_VERSION) :
    (parse raw).WellFormed :=
  ⟨toUInt8_and_three_lt raw, h, toUInt8_and_three_lt (raw >>> 6)⟩

end NwkFrameControl

/-! ## The source route -/

namespace SourceRoute

def MAX_RELAYS : Nat := 16

def cursor : Cursor SourceRoute := do
  need 2
  let relayCount ← u8
  let relayIndex ← u8
  if relayCount = 0 ∨ relayIndex ≥ relayCount ∨ relayCount.toNat > MAX_RELAYS then reject
  else
    need (2 * relayCount.toNat)
    let relayList ← times u16 relayCount.toNat
    pure ⟨relayCount, relayIndex, relayList⟩

def read (data : Buf) : Option (SourceRoute × Buf) := do
  let (relayCount, data) ← readU8 data
  let (relayIndex, data) ← readU8 data
  if relayCount = 0 ∨ relayIndex ≥ relayCount ∨ relayCount.toNat > MAX_RELAYS then none
  else
    let (relayList, data) ← readTimes readU16 relayCount.toNat data
    some (⟨relayCount, relayIndex, relayList⟩, data)

def serialize (sr : SourceRoute) : Buf := [sr.relayCount] ++ [sr.relayIndex] ++ sr.relayList.flatMap le16

structure WellFormed (sr : SourceRoute) : Prop where
  relayList : sr.relayList.length = sr.relayCount.toNat
  nonempty : sr.relayCount ≠ 0
  relayIndex : sr.relayIndex < sr.relayCount
  capacity : sr.relayCount.toNat ≤ MAX_RELAYS

theorem read_inverse : Inverse WellFormed read serialize := by
  have hiff : ∀ d sr rest, read d = some (sr, rest) ↔ sr.WellFormed ∧ d = serialize sr ++ rest := by
    intro d sr rest
    simp only [read, readU8_inverse.bind_eq_some]
    constructor
    · rintro ⟨relayCount, d, -, rfl, relayIndex, d, -, rfl, h⟩
      split at h
      · cases h
      · rename_i hguard
        rw [(readU16_inverse.readTimes relayCount.toNat).bind_eq_some] at h
        obtain ⟨relayList, d, ⟨hlen, -⟩, rfl, h⟩ := h
        obtain ⟨rfl, rfl⟩ := Prod.mk.inj (Option.some.inj h)
        obtain ⟨hzero, hindex, hcapacity⟩ := not_or.mp hguard |>.imp_right not_or.mp
        refine ⟨⟨hlen, hzero, UInt8.not_le.mp hindex, Nat.not_lt.mp hcapacity⟩, ?_⟩
        simp only [serialize, List.append_assoc]
    · rintro ⟨h, rfl⟩
      refine ⟨sr.relayCount, [sr.relayIndex] ++ (sr.relayList.flatMap le16 ++ rest), trivial,
        by simp only [serialize, List.append_assoc], sr.relayIndex, _, trivial, rfl, ?_⟩
      have hguard : ¬ (sr.relayCount = 0 ∨ sr.relayIndex ≥ sr.relayCount ∨ sr.relayCount.toNat > MAX_RELAYS) :=
        not_or.mpr ⟨h.nonempty, not_or.mpr ⟨UInt8.not_le.mpr h.relayIndex, Nat.not_lt.mpr h.capacity⟩⟩
      rw [if_neg hguard, (readU16_inverse.readTimes sr.relayCount.toNat).bind_eq_some]
      exact ⟨sr.relayList, rest, ⟨h.relayList, fun _ _ => trivial⟩, rfl, rfl⟩
  exact ⟨fun sr rest h => (hiff _ sr rest).mpr ⟨h, rfl⟩, fun d sr rest h => (hiff d sr rest).mp h⟩

theorem cursor_implements : Implements 0 cursor read := by
  refine checked (n := 2) ?_ (read_inverse.short fun sr _ => ?_)
  · unfold read
    refine u8_implements.bindFixed readU8_fixedWidth (by decide) fun relayCount => ?_
    refine u8_implements.bindFixed readU8_fixedWidth (by decide) fun relayIndex => ?_
    refine ite (fun _ => reject) fun _ => ?_
    exact (u16_implements.times readU16_fixedWidth relayCount.toNat).needBind (readU16_fixedWidth.times _).short
      fun relayList => pure _
  · simp [serialize]

end SourceRoute

/-! ## The header -/

namespace NwkHeader

/-- `NwkHeader::parse` -/
def cursor : Cursor NwkHeader := do
  need 8
  let raw ← u16
  let fc := NwkFrameControl.parse raw
  if fc.protocolVersion ≠ NWKC_PROTOCOL_VERSION then reject
  else
    let dstAddr ← u16
    let srcAddr ← u16
    let radius ← u8
    let seqNumber ← u8
    let dstIeee ← ifPresent fc.dstIeeePresent (need 8 >>= fun _ => array 8)
    let srcIeee ← ifPresent fc.srcIeeePresent (need 8 >>= fun _ => array 8)
    let multicastControl ← ifPresent fc.multicast (need 1 >>= fun _ => u8)
    let sourceRoute ← ifPresent fc.sourceRoute SourceRoute.cursor
    pure ⟨fc, dstAddr, srcAddr, radius, seqNumber, dstIeee, srcIeee, multicastControl, sourceRoute⟩

def parse (data : Buf) : Except ReadFault (NwkHeader × Nat) := Cursor.parse cursor data

def read (data : Buf) : Option (NwkHeader × Buf) := do
  let (raw, data) ← readU16 data
  let fc := NwkFrameControl.parse raw
  if fc.protocolVersion ≠ NWKC_PROTOCOL_VERSION then none
  else
    let (dstAddr, data) ← readU16 data
    let (srcAddr, data) ← readU16 data
    let (radius, data) ← readU8 data
    let (seqNumber, data) ← readU8 data
    let (dstIeee, data) ← readIf fc.dstIeeePresent (readArray 8) data
    let (srcIeee, data) ← readIf fc.srcIeeePresent (readArray 8) data
    let (multicastControl, data) ← readIf fc.multicast readU8 data
    let (sourceRoute, data) ← readIf fc.sourceRoute SourceRoute.read data
    some (⟨fc, dstAddr, srcAddr, radius, seqNumber, dstIeee, srcIeee, multicastControl, sourceRoute⟩, data)

/-- The header behind a frame control word. -/
def serializeWith (raw : UInt16) (h : NwkHeader) : Buf :=
  le16 raw ++ le16 h.dstAddr ++ le16 h.srcAddr ++ [h.radius] ++ [h.seqNumber] ++ encIf Vector.toList h.dstIeee ++
    encIf Vector.toList h.srcIeee ++ encIf (fun b => [b]) h.multicastControl ++ encIf SourceRoute.serialize h.sourceRoute

def serialize (h : NwkHeader) : Buf := serializeWith h.frameControl.serialize h

/-- Every optional field is there exactly if the frame control announces it. -/
structure WellFormed (h : NwkHeader) : Prop where
  frameControl : h.frameControl.WellFormed
  dstIeee : h.dstIeee.isSome = h.frameControl.dstIeeePresent
  srcIeee : h.srcIeee.isSome = h.frameControl.srcIeeePresent
  multicastControl : h.multicastControl.isSome = h.frameControl.multicast
  sourceRoute : h.sourceRoute.isSome = h.frameControl.sourceRoute
  route : ∀ sr, h.sourceRoute = some sr → sr.WellFormed

/-- **What the chain of readers accepts**: a well-formed header behind any word with its frame control. -/
theorem read_eq_some {d rest : Buf} {h : NwkHeader} :
    read d = some (h, rest) ↔
      h.WellFormed ∧ ∃ raw, NwkFrameControl.parse raw = h.frameControl ∧ d = serializeWith raw h ++ rest := by
  simp only [read, readU16_inverse.bind_eq_some]
  constructor
  · rintro ⟨raw, d, -, rfl, hread⟩
    split at hread
    · cases hread
    · rename_i hversion
      simp only [readU16_inverse.bind_eq_some, readU8_inverse.bind_eq_some,
        ((readArray_inverse 8).readIf _).bind_eq_some, (readU8_inverse.readIf _).bind_eq_some,
        (SourceRoute.read_inverse.readIf _).bind_eq_some] at hread
      obtain ⟨dstAddr, d, -, rfl, srcAddr, d, -, rfl, radius, d, -, rfl, seqNumber, d, -, rfl, dstIeee, d, ⟨hdst, -⟩, rfl,
        srcIeee, d, ⟨hsrc, -⟩, rfl, multicastControl, d, ⟨hmulticast, -⟩, rfl, sourceRoute, d, ⟨hroute, hwf⟩, rfl, heq⟩ := hread
      obtain ⟨rfl, rfl⟩ := Prod.mk.inj (Option.some.inj heq)
      refine ⟨⟨NwkFrameControl.parse_wellFormed (not_not.mp hversion), hdst, hsrc, hmulticast, hroute, hwf⟩, raw, rfl, ?_⟩
      simp only [serializeWith, List.append_assoc]
  · rintro ⟨hwf, raw, hraw, rfl⟩
    refine ⟨raw, _, trivial, by simp only [serializeWith, List.append_assoc]; rfl, ?_⟩
    rw [hraw, if_neg (not_not.mpr hwf.frameControl.protocolVersion)]
    simp only [readU16_inverse.bind_eq_some, readU8_inverse.bind_eq_some,
      ((readArray_inverse 8).readIf _).bind_eq_some, (readU8_inverse.readIf _).bind_eq_some,
      (SourceRoute.read_inverse.readIf _).bind_eq_some]
    exact ⟨h.dstAddr, _, trivial, rfl, h.srcAddr, _, trivial, rfl, h.radius, _, trivial, rfl, h.seqNumber, _, trivial, rfl,
      h.dstIeee, _, ⟨hwf.dstIeee, fun _ _ => trivial⟩, rfl, h.srcIeee, _, ⟨hwf.srcIeee, fun _ _ => trivial⟩, rfl,
      h.multicastControl, _, ⟨hwf.multicastControl, fun _ _ => trivial⟩, rfl,
      h.sourceRoute, _, ⟨hwf.sourceRoute, hwf.route⟩, rfl, rfl⟩

theorem cursor_implements : Implements 0 cursor read := by
  refine checked (n := 8) ?_ fun d hd => ?_
  · unfold read
    refine u16_implements.bindFixed readU16_fixedWidth (by decide) fun raw => ?_
    refine ite (fun _ => reject.mono (by decide)) fun _ => ?_
    refine u16_implements.bindFixed readU16_fixedWidth (by decide) fun dstAddr => ?_
    refine u16_implements.bindFixed readU16_fixedWidth (by decide) fun srcAddr => ?_
    refine u8_implements.bindFixed readU8_fixedWidth (by decide) fun radius => ?_
    refine u8_implements.bindFixed readU8_fixedWidth (by decide) fun seqNumber => ?_
    refine ((need_array_implements 8).ifPresent _).bind fun dstIeee => ?_
    refine ((need_array_implements 8).ifPresent _).bind fun srcIeee => ?_
    refine (need_u8_implements.ifPresent _).bind fun multicastControl => ?_
    exact (SourceRoute.cursor_implements.ifPresent _).bind fun sourceRoute => pure _
  · cases hread : read d with
    | none => rfl
    | some r =>
      obtain ⟨-, raw, -, heq⟩ := read_eq_some.mp hread
      rw [heq] at hd
      simp only [serializeWith, List.length_append, le16_length, List.length_singleton] at hd
      omega

theorem serializeWith_length (raw : UInt16) (h : NwkHeader) : (serializeWith raw h).length = h.length := by
  obtain ⟨fc, dstAddr, srcAddr, radius, seqNumber, dstIeee, srcIeee, multicastControl, sourceRoute⟩ := h
  have hrelays : ∀ relays : List ShortAddress, (relays.flatMap le16).length = 2 * relays.length := by
    intro relays
    induction relays with
    | nil => rfl
    | cons relay relays ih =>
      rw [List.flatMap_cons, List.length_append, le16_length, ih, List.length_cons]
      omega
  cases dstIeee <;> cases srcIeee <;> cases multicastControl <;> cases sourceRoute <;>
    simp [serializeWith, NwkHeader.length, SourceRoute.serialize, hrelays] <;> omega

/-- **The NWK header codec is inverse.** -/
theorem roundTrip : RoundTrip WellFormed serialize parse := by
  refine roundTrip_of_implements cursor_implements (fun h rest hwf => ?_) (fun d h rest hread => ?_)
  · exact read_eq_some.mpr ⟨hwf, _, NwkFrameControl.parse_serialize hwf.frameControl, rfl⟩
  · obtain ⟨hwf, raw, -, rfl⟩ := read_eq_some.mp hread
    refine ⟨hwf, ?_⟩
    rw [List.length_append, serialize, serializeWith_length, serializeWith_length]

end NwkHeader

/-! ## The auxiliary security header -/

structure NwkSecurityHeader where
  securityControl : UInt8
  frameCounter : UInt32
  sourceAddress : IeeeAddress
  keySeqNumber : UInt8
  deriving DecidableEq

namespace NwkSecurityHeader

def NWK_AUX_HEADER_LEN : Nat := 14

/-- `NwkSecurityHeader::parse` -/
def cursor : Cursor NwkSecurityHeader := do
  need NWK_AUX_HEADER_LEN
  let securityControl ← u8
  let frameCounter ← u32
  let sourceAddress ← array 8
  let keySeqNumber ← u8
  pure ⟨securityControl, frameCounter, sourceAddress, keySeqNumber⟩

def parse (data : Buf) : Except ReadFault (NwkSecurityHeader × Nat) := Cursor.parse cursor data

def read (data : Buf) : Option (NwkSecurityHeader × Buf) := do
  let (securityControl, data) ← readU8 data
  let (frameCounter, data) ← readU32 data
  let (sourceAddress, data) ← readArray 8 data
  let (keySeqNumber, data) ← readU8 data
  some (⟨securityControl, frameCounter, sourceAddress, keySeqNumber⟩, data)

def serialize (h : NwkSecurityHeader) : Buf :=
  [h.securityControl] ++ le32 h.frameCounter ++ h.sourceAddress.toList ++ [h.keySeqNumber]

theorem read_inverse : Inverse (fun _ => True) read serialize := by
  have hiff : ∀ d h rest, read d = some (h, rest) ↔ d = serialize h ++ rest := by
    intro d h rest
    simp only [read, readU8_inverse.bind_eq_some, readU32_inverse.bind_eq_some, (readArray_inverse 8).bind_eq_some]
    constructor
    · rintro ⟨securityControl, d, -, rfl, frameCounter, d, -, rfl, sourceAddress, d, -, rfl, keySeqNumber, d, -, rfl, heq⟩
      obtain ⟨rfl, rfl⟩ := Prod.mk.inj (Option.some.inj heq)
      simp only [serialize, List.append_assoc]
    · rintro rfl
      refine ⟨h.securityControl, _, trivial, by simp only [serialize, List.append_assoc]; rfl, ?_⟩
      exact ⟨h.frameCounter, _, trivial, rfl, h.sourceAddress, _, trivial, rfl, h.keySeqNumber, _, trivial, rfl, rfl⟩
  exact ⟨fun h rest _ => (hiff _ h rest).mpr rfl, fun d h rest hread => ⟨trivial, (hiff d h rest).mp hread⟩⟩

theorem cursor_implements : Implements 0 cursor read := by
  refine checked (n := NWK_AUX_HEADER_LEN) ?_ (read_inverse.short fun h _ => by simp [serialize, NWK_AUX_HEADER_LEN])
  unfold read
  refine u8_implements.bindFixed readU8_fixedWidth (by decide) fun securityControl => ?_
  refine u32_implements.bindFixed readU32_fixedWidth (by decide) fun frameCounter => ?_
  refine (array_implements 8).bindFixed (readArray_fixedWidth 8) (by decide) fun sourceAddress => ?_
  refine u8_implements.bindFixed readU8_fixedWidth (by decide) fun keySeqNumber => ?_
  exact pure _

/-- **The auxiliary header codec is inverse.** -/
theorem roundTrip : RoundTrip (fun _ => True) serialize parse :=
  roundTrip_of_implements cursor_implements read_inverse.complete fun d h rest hread =>
    ⟨trivial, by rw [(read_inverse.sound d h rest hread).2, List.length_append]⟩

end NwkSecurityHeader

end Zigbee.Nwk
