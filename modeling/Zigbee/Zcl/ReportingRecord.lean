import Zigbee.Zcl.Reporting

/-!
# Reporting records

Model of `ReportingConfig::encode_record` and `parse_record` of `zigbee-zcl/src/foundation/reporting.rs`, and of
`parse_configure_reporting_record` of `zigbee-runtime/src/zcl_wire.rs`, the parser of the dispatcher.

* `Representable` — the configurations that are records: what the parsers return.
* `encodeRecord_eq`, `record_inverse` — the encoder and the parser are inverse on them.
* `parseConfigureReportingRecord_eq` — the two parsers agree on the data types of the build.
-/

namespace Zigbee.Zcl.Reporting

open Bytes ReportingConfig

def isAnalogType : ZclDataType → Bool
  | .u8 | .u16 | .u24 | .u32 | .u48 | .u64 | .i8 | .i16 | .i32 | .i64 | .float16 | .float32 | .float64 | .utcTime | .timeOfDay
  | .date => true
  | _ => false

def ReportDirection.toU8 : ReportDirection → UInt8
  | send => 0x00
  | receive => 0x01

/-- The bytes of a record in a buffer of `room` bytes. -/
def ReportingConfig.encodeRecord (config : ReportingConfig) (room : Nat) : Option Buf :=
  if room < 3 then none
  else
    let head := config.direction.toU8 :: le16 config.attributeId
    if config.direction = .receive then if room < 5 then none else some (head ++ le16 config.maxInterval)
    else if room < 8 then none
    else
      let body := head ++ (config.dataType.toU8 :: (le16 config.minInterval ++ le16 config.maxInterval))
      if !isAnalogType config.dataType then some body
      else do
        let change ← config.reportableChange
        let bytes ← change.trySerialize (room - 8)
        some (body ++ bytes)

/-- A configuration and the number of bytes that its record takes. -/
def parseRecord (floats : FloatSupport) (data : Buf) : Option (ReportingConfig × Nat) :=
  if data.length < 1 then none
  else if u8At data 0 = 0x00 then
    if data.length < 3 then none
    else if data.length < 8 then none
    else do
      let dataType ← ZclDataType.fromU8 (u8At data 3)
      if isAnalogType dataType then do
        let (change, consumed) ← ZclValue.deserialize floats dataType (data.drop 8)
        some (⟨.send, u16At data 1, dataType, u16At data 4, u16At data 6, some change⟩, 8 + consumed)
      else some (⟨.send, u16At data 1, dataType, u16At data 4, u16At data 6, none⟩, 8)
  else if u8At data 0 = 0x01 then
    if data.length < 3 then none
    else if data.length < 5 then none
    else some (⟨.receive, u16At data 1, .noData, 0, u16At data 3, none⟩, 5)
  else none

/-- `u16::from_le_bytes([*payload.get(i)?, *payload.get(i + 1)?])` -/
def getWord (payload : Buf) (i : Nat) : Option UInt16 := do
  let low ← payload[i]?
  let high ← payload[i + 1]?
  some (UInt16.ofNat (low.toNat + 256 * high.toNat))

/-- A configuration and the cursor behind its record.  The value of a type that the build leaves out is
    skipped. -/
def parseConfigureReportingRecord (floats : FloatSupport) (payload : Buf) (cursor : Nat) : Option (ReportingConfig × Nat) := do
  let direction ← payload[cursor]?
  if direction = 0x00 then do
    let attributeId ← getWord payload (cursor + 1)
    let dataType ← payload[cursor + 3]? >>= ZclDataType.fromU8
    let minInterval ← getWord payload (cursor + 4)
    let maxInterval ← getWord payload (cursor + 6)
    if isAnalogType dataType then
      if floats.isEnabled dataType then do
        let rest ← if cursor + 8 ≤ payload.length then some (payload.drop (cursor + 8)) else none
        let (change, consumed) ← ZclValue.deserialize floats dataType rest
        some (⟨.send, attributeId, dataType, minInterval, maxInterval, some change⟩, cursor + 8 + consumed)
      else do
        let size ← dataType.size
        if payload.length < cursor + 8 + size then none
        else some (⟨.send, attributeId, dataType, minInterval, maxInterval, none⟩, cursor + 8 + size)
    else some (⟨.send, attributeId, dataType, minInterval, maxInterval, none⟩, cursor + 8)
  else if direction = 0x01 then do
    let attributeId ← getWord payload (cursor + 1)
    let timeout ← getWord payload (cursor + 3)
    some (⟨.receive, attributeId, .noData, 0, timeout, none⟩, cursor + 5)
  else none

/-- A configuration that is a record: an analog type comes with a change of that type. -/
def ReportingConfig.Representable (floats : FloatSupport) (config : ReportingConfig) : Prop :=
  match config.direction with
  | .send =>
    if isAnalogType config.dataType then ∃ change, config.reportableChange = some change ∧ change.ReadsBack floats config.dataType
    else config.reportableChange = none
  | .receive => config.dataType = .noData ∧ config.minInterval = 0 ∧ config.reportableChange = none

/-! ## Records and configurations -/

/-- The bytes of a record; an analog type needs a change. -/
def ReportingConfig.record (config : ReportingConfig) : Option Buf :=
  let head := config.direction.toU8 :: le16 config.attributeId
  let body := head ++ (config.dataType.toU8 :: (le16 config.minInterval ++ le16 config.maxInterval))
  match config.direction with
  | .receive => some (head ++ le16 config.maxInterval)
  | .send => if isAnalogType config.dataType then config.reportableChange.map fun v => body ++ v.toBytes else some body

section
variable {floats : FloatSupport} {config : ReportingConfig} {data bytes : Buf} {room n : Nat}

/-- A change takes at most eight bytes. -/
theorem change_length {dt : ZclDataType} {v : ZclValue} (hanalog : isAnalogType dt = true) (h : v.ReadsBack floats dt) :
    v.toBytes.length ≤ 8 := by
  obtain ⟨rfl, -, -⟩ := h
  rw [ZclValue.toBytes_length]
  cases v <;> cases hanalog <;> simp [ZclValue.wireLen, ZclValue.scalarLe]

/-- **The encoder** writes the record if there is room for it. -/
theorem encodeRecord_eq (config : ReportingConfig) (room : Nat) :
    config.encodeRecord room = config.record.bind fun bytes => if bytes.length ≤ room then some bytes else none := by
  obtain ⟨direction, attr, dt, min, max, change⟩ := config
  cases direction with
  | receive =>
    simp [encodeRecord, record]
    split_ifs <;> first | rfl | omega
  | send =>
    cases hanalog : isAnalogType dt with
    | false =>
      simp [encodeRecord, record, hanalog]
      split_ifs <;> first | rfl | omega
    | true =>
      cases change with
      | none => simp [encodeRecord, record, hanalog]
      | some v =>
        simp [encodeRecord, record, hanalog, ZclValue.trySerialize]
        split_ifs <;> first | rfl | omega

/-- **What is parsed is a record**, and its bytes are those that were read. -/
theorem parseRecord_eq_some (h : parseRecord floats data = some (config, n)) :
    config.Representable floats ∧ n ≤ data.length ∧ config.record = some (data.take n) := by
  unfold parseRecord at h
  split_ifs at h with hempty hsend hthree height hreceive hthree hfive
  · obtain ⟨dt, hdt, hread⟩ := Option.bind_eq_some_iff.mp h
    have hzero := u8At_cons_drop (show 0 < data.length by omega)
    have hhead : (0x00 :: le16 (u16At data 1)) ++ (dt.toU8 :: (le16 (u16At data 4) ++ le16 (u16At data 6))) = data.take 8 := by
      refine List.append_cancel_right (Eq.trans ?_ (List.take_append_drop 8 data).symm)
      rw [← ZclDataType.toU8_of_fromU8 hdt, ← hsend]
      simp only [List.cons_append, List.append_assoc]
      rw [le16_append_drop (by omega), le16_append_drop (by omega), u8At_cons_drop (by omega), le16_append_drop (by omega),
        hzero, List.drop_zero]
    split_ifs at hread with hanalog
    · obtain ⟨⟨change, consumed⟩, hchange, hpair⟩ := Option.bind_eq_some_iff.mp hread
      cases hpair
      obtain ⟨hreads, -, hle, hbytes⟩ := ZclValue.deserialize_eq_some hchange
      rw [List.length_drop] at hle
      refine ⟨by simpa [Representable, hanalog] using hreads, by omega, ?_⟩
      rw [record, List.take_add, ← hhead, ← hbytes (by rintro rfl; cases hanalog)]
      exact if_pos hanalog
    · cases hread
      refine ⟨by simp [Representable, hanalog], by omega, ?_⟩
      rw [record, ← hhead]
      exact if_neg hanalog
  · cases h
    have hzero := u8At_cons_drop (show 0 < data.length by omega)
    refine ⟨⟨rfl, rfl, rfl⟩, by omega, congrArg some (List.append_cancel_right (Eq.trans ?_ (List.take_append_drop 5 data).symm))⟩
    change (0x01 :: le16 (u16At data 1)) ++ le16 (u16At data 3) ++ data.drop 5 = data
    rw [← hreceive]
    simp only [List.cons_append, List.append_assoc]
    rw [le16_append_drop (by omega), le16_append_drop (by omega), hzero, List.drop_zero]

/-- The fields of an encoded report request. -/
theorem sendRecord_fields (dt : ZclDataType) (attr min max : UInt16) {data rest : Buf}
    (h : data = (0x00 :: le16 attr) ++ (dt.toU8 :: (le16 min ++ le16 max)) ++ rest) :
    u8At data 0 = 0x00 ∧ u16At data 1 = attr ∧ u8At data 3 = dt.toU8 ∧ u16At data 4 = min ∧ u16At data 6 = max ∧
      data.drop 8 = rest ∧ data.length = 8 + rest.length := by
  subst h
  refine ⟨rfl, u16At_le16_self attr, rfl, u16At_le16_self min, u16At_le16_self max, rfl, ?_⟩
  simp
  omega

theorem receiveRecord_fields (attr timeout : UInt16) {data rest : Buf}
    (h : data = (0x01 :: le16 attr) ++ le16 timeout ++ rest) :
    u8At data 0 = 0x01 ∧ u16At data 1 = attr ∧ u16At data 3 = timeout ∧ data.length = 5 + rest.length := by
  subst h
  refine ⟨rfl, u16At_le16_self attr, u16At_le16_self timeout, ?_⟩
  simp
  omega

/-- **A configuration that is a record is read back** from its bytes. -/
theorem parseRecord_record (h : config.Representable floats) :
    ∃ bytes, config.record = some bytes ∧ bytes.length ≤ 16 ∧
      ∀ rest, parseRecord floats (bytes ++ rest) = some (config, bytes.length) := by
  obtain ⟨direction, attr, dt, min, max, change⟩ := config
  cases direction with
  | receive =>
    obtain ⟨rfl, rfl, rfl⟩ := h
    refine ⟨_, rfl, by simp, fun rest => ?_⟩
    generalize hdata : _ ++ rest = data
    obtain ⟨hdirection, hattr, htimeout, hlen⟩ := receiveRecord_fields attr max hdata.symm
    simp [parseRecord, hdirection, hattr, htimeout, hlen]
    omega
  | send =>
    by_cases hanalog : isAnalogType dt = true
    · simp only [Representable, hanalog, if_true] at h
      obtain ⟨v, rfl, hv⟩ := h
      have hfits := change_length hanalog hv
      refine ⟨_, if_pos hanalog, by simp; omega, fun rest => ?_⟩
      generalize hdata : _ ++ rest = data
      obtain ⟨hdirection, hattr, htype, hmin, hmax, hdrop, hlen⟩ :=
        sendRecord_fields dt attr min max (hdata.symm.trans (List.append_assoc _ _ _))
      simp [parseRecord, hdirection, hattr, htype, hmin, hmax, hdrop, hlen, hanalog, ZclDataType.fromU8_toU8,
        ZclValue.deserialize_toBytes hv rest]
      omega
    · simp only [Representable, if_neg hanalog] at h
      subst h
      refine ⟨_, if_neg hanalog, by simp, fun rest => ?_⟩
      generalize hdata : _ ++ rest = data
      obtain ⟨hdirection, hattr, htype, hmin, hmax, hdrop, hlen⟩ := sendRecord_fields dt attr min max hdata.symm
      simp [parseRecord, hdirection, hattr, htype, hmin, hmax, hlen, hanalog, ZclDataType.fromU8_toU8]
      omega

theorem encodeRecord_eq_some : config.encodeRecord room = some bytes ↔ config.record = some bytes ∧ bytes.length ≤ room := by
  rw [encodeRecord_eq]
  cases config.record with
  | none => simp
  | some bytes' => grind

theorem record_front (h : config.record = some bytes) (rest : Buf) :
    u8At (bytes ++ rest) 0 = config.direction.toU8 ∧ u16At (bytes ++ rest) 1 = config.attributeId := by
  obtain ⟨direction, attr, dt, min, max, change⟩ := config
  have hfront : ∃ tail, bytes = (direction.toU8 :: le16 attr) ++ tail := by
    cases direction
    · simp [record] at h
      split at h <;> simp at h
      · obtain ⟨v, -, rfl⟩ := h
        exact ⟨_, rfl⟩
      · exact ⟨_, h.symm⟩
    · exact ⟨_, (Option.some.inj h).symm⟩
  obtain ⟨tail, rfl⟩ := hfront
  exact ⟨rfl, u16At_le16_self _⟩
/-- **Whatever is encoded, the parser finds its direction and its attribute.** -/
theorem parseRecord_head {rest : Buf} {parsed : ReportingConfig} (h : config.encodeRecord room = some bytes)
    (hparsed : parseRecord floats (bytes ++ rest) = some (parsed, n)) :
    parsed.direction = config.direction ∧ parsed.attributeId = config.attributeId := by
  obtain ⟨hdirection, hattr⟩ := record_front (encodeRecord_eq_some.mp h).1 rest
  obtain ⟨hdirection', hattr'⟩ := record_front (parseRecord_eq_some hparsed).2.2 ((bytes ++ rest).drop n)
  rw [List.take_append_drop] at hdirection' hattr'
  refine ⟨?_, hattr'.symm.trans hattr⟩
  have hsame := hdirection'.symm.trans hdirection
  cases hc : config.direction <;> cases hp : parsed.direction <;> rw [hc, hp] at hsame <;> first | rfl | cases hsame

end

/-! ## The two parsers -/

section
variable {floats : FloatSupport} {payload : Buf} {i : Nat}

theorem getWord_eq (h : i + 1 < payload.length) : getWord payload i = some (u16At payload i) := by
  simp [getWord, u16At, u8At, h, Nat.lt_of_succ_lt h]

theorem getWord_none (h : payload.length ≤ i + 1) : getWord payload i = none := by
  simp [getWord, List.getElem?_eq_none h]

theorem getByte_eq (h : i < payload.length) : payload[i]? = some (u8At payload i) := by
  simp [u8At, h]

/-- **The parser of the dispatcher and the parser of the store agree** on a record whose data type the build
    supports. -/
theorem parseConfigureReportingRecord_eq {cursor : Nat}
    (henabled : u8At payload cursor = 0x00 → ∀ dt, ZclDataType.fromU8 (u8At payload (cursor + 3)) = some dt →
      floats.isEnabled dt = true) :
    parseConfigureReportingRecord floats payload cursor =
      (parseRecord floats (payload.drop cursor)).map fun r => (r.1, cursor + r.2) := by
  unfold parseConfigureReportingRecord parseRecord
  simp only [List.length_drop, ← u8At_drop, ← u16At_drop, List.drop_drop, Nat.add_zero]
  by_cases hempty : payload.length ≤ cursor
  · simp [hempty]
  by_cases hsend : u8At payload cursor = 0x00
  · by_cases hshort : payload.length - cursor < 8
    · simp [getByte_eq (Nat.not_le.mp hempty), hsend, hshort, getWord_none (show payload.length ≤ cursor + 6 + 1 by omega)]
    · simp (disch := omega) only [getByte_eq, getWord_eq, hsend, if_pos, if_neg, Option.bind_eq_bind, Option.bind_some]
      cases hdt : ZclDataType.fromU8 (u8At payload (cursor + 3)) with
      | none => rfl
      | some dt =>
        by_cases hanalog : isAnalogType dt = true
        · simp (disch := omega) [hanalog, henabled hsend dt hdt]
          cases ZclValue.deserialize floats dt (payload.drop (cursor + 8)) <;> simp [Nat.add_assoc]
        · simp [hanalog]
  · by_cases hreceive : u8At payload cursor = 0x01
    · by_cases hshort : payload.length - cursor < 5
      · simp [getByte_eq (Nat.not_le.mp hempty), hreceive, hshort, getWord_none (show payload.length ≤ cursor + 3 + 1 by omega)]
      · rw [getByte_eq (by omega), Option.bind_eq_bind, Option.bind_some, if_neg hsend, if_pos hreceive, getWord_eq (by omega),
          getWord_eq (by omega), if_neg (by omega), if_neg hsend, if_pos hreceive, if_neg (by omega), if_neg hshort]
        rfl
    · simp [getByte_eq (Nat.not_le.mp hempty), hsend, hreceive]

/-- What the parser of the store reads, the parser of the dispatcher reads. -/
theorem parseConfigureReportingRecord_of_parseRecord {cursor n : Nat} {config : ReportingConfig}
    (h : parseRecord floats (payload.drop cursor) = some (config, n)) :
    parseConfigureReportingRecord floats payload cursor = some (config, cursor + n) := by
  rw [parseConfigureReportingRecord_eq, h, Option.map_some]
  intro hsend dt hdt
  rw [← Nat.add_zero cursor, u8At_drop] at hsend
  rw [u8At_drop] at hdt
  unfold parseRecord at h
  split_ifs at h
  obtain ⟨dt', hdt', hread⟩ := Option.bind_eq_some_iff.mp h
  obtain rfl := Option.some.inj (hdt'.symm.trans hdt)
  split_ifs at hread with hanalog
  · obtain ⟨_, hchange, -⟩ := Option.bind_eq_some_iff.mp hread
    exact (ZclValue.deserialize_eq_some hchange).1.2.1
  · cases dt' <;> first | rfl | exact absurd rfl hanalog

/-- **A record is written whole or not at all, and read back** by both parsers, and one that is read is written as it
    was. -/
theorem record_inverse (floats : FloatSupport) :
    (∀ config : ReportingConfig, config.Representable floats → ∃ bytes,
      (∀ room, config.encodeRecord room = if bytes.length ≤ room then some bytes else none) ∧
        ∀ rest, parseRecord floats (bytes ++ rest) = some (config, bytes.length)) ∧
    ∀ (payload : Buf) (cursor : Nat) (config : ReportingConfig) (n : Nat),
      parseRecord floats (payload.drop cursor) = some (config, n) →
      config.Representable floats ∧ n ≤ payload.length - cursor ∧
        parseConfigureReportingRecord floats payload cursor = some (config, cursor + n) ∧
        ∀ room, config.encodeRecord room = if n ≤ room then some ((payload.drop cursor).take n) else none := by
  constructor
  · intro config h
    obtain ⟨bytes, hbytes, -, hparse⟩ := parseRecord_record h
    exact ⟨bytes, fun room => by rw [encodeRecord_eq, hbytes, Option.bind_some], hparse⟩
  · intro payload cursor config n h
    obtain ⟨hrepresentable, hle, hrecord⟩ := parseRecord_eq_some h
    refine ⟨hrepresentable, by rwa [← List.length_drop], parseConfigureReportingRecord_of_parseRecord h, fun room => ?_⟩
    rw [encodeRecord_eq, hrecord, Option.bind_some, List.length_take, Nat.min_eq_left hle]

end

end Zigbee.Zcl.Reporting
