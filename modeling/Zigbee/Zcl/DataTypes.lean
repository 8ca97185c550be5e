import Zigbee.Lib.FieldReader
import Zigbee.Lib.LittleEndian
import Zigbee.Types

/-!
# ZCL data types and values

Model of `zigbee-zcl/src/data_types.rs` and of `ZclStatus`.  A floating-point number is kept as its
bits.

* `ZclDataType`, `ZclValue` — the type tags and the values that an attribute can hold.
* `trySerialize`, `deserialize` — the wire format of a value.
* `deserialize_toBytes` — a value that fits its type is read back.
-/

namespace Zigbee.Zcl

open Bytes

inductive ZclStatus where
  | success
  | failure
  | notAuthorized
  | reservedFieldNotZero
  | malformedCommand
  | unsupClusterCommand
  | unsupGeneralCommand
  | unsupManufacturerClusterCommand
  | unsupManufacturerGeneralCommand
  | invalidField
  | unsupportedAttribute
  | invalidValue
  | readOnly
  | insufficientSpace
  | duplicateExists
  | notFound
  | unreportableAttribute
  | invalidDataType
  | invalidSelector
  | writeOnly
  | inconsistentStartupState
  | definedOutOfBand
  | inconsistent
  | actionDenied
  | timeout
  | abort
  | invalidImage
  | waitForData
  | noImageAvailable
  | requireMoreImage
  | notificationPending
  | hardwareFailure
  | softwareFailure
  | calibrationError
  | unsupportedCluster
  deriving DecidableEq, Repr

def ZclStatus.toU8 : ZclStatus → UInt8
  | success => 0x00
  | failure => 0x01
  | notAuthorized => 0x7E
  | reservedFieldNotZero => 0x7F
  | malformedCommand => 0x80
  | unsupClusterCommand => 0x81
  | unsupGeneralCommand => 0x82
  | unsupManufacturerClusterCommand => 0x83
  | unsupManufacturerGeneralCommand => 0x84
  | invalidField => 0x85
  | unsupportedAttribute => 0x86
  | invalidValue => 0x87
  | readOnly => 0x88
  | insufficientSpace => 0x89
  | duplicateExists => 0x8A
  | notFound => 0x8B
  | unreportableAttribute => 0x8C
  | invalidDataType => 0x8D
  | invalidSelector => 0x8E
  | writeOnly => 0x8F
  | inconsistentStartupState => 0x90
  | definedOutOfBand => 0x91
  | inconsistent => 0x92
  | actionDenied => 0x93
  | timeout => 0x94
  | abort => 0x95
  | invalidImage => 0x96
  | waitForData => 0x97
  | noImageAvailable => 0x98
  | requireMoreImage => 0x99
  | notificationPending => 0x9A
  | hardwareFailure => 0xC0
  | softwareFailure => 0xC1
  | calibrationError => 0xC2
  | unsupportedCluster => 0xC3

theorem ZclStatus.toU8_eq_zero {status : ZclStatus} : status.toU8 = 0 ↔ status = .success := by
  cases status <;> decide

/-- Standard ZCL data type identifiers. -/
inductive ZclDataType where
  | noData
  | bool
  | bitmap8
  | bitmap16
  | bitmap32
  | bitmap64
  | u8
  | u16
  | u24
  | u32
  | u48
  | u64
  | i8
  | i16
  | i32
  | i64
  | enum8
  | enum16
  | float16
  | float32
  | float64
  | octetString
  | charString
  | octetString16
  | charString16
  | array
  | struct
  | set
  | bag
  | timeOfDay
  | date
  | utcTime
  | clusterId
  | attributeId
  | bacNetOid
  | ieeeAddr
  | securityKey128
  deriving DecidableEq, Repr

variable {dt : ZclDataType}

namespace ZclDataType

def toU8 : ZclDataType → UInt8
  | noData => 0x00
  | bool => 0x10
  | bitmap8 => 0x18
  | bitmap16 => 0x19
  | bitmap32 => 0x1B
  | bitmap64 => 0x1F
  | u8 => 0x20
  | u16 => 0x21
  | u24 => 0x22
  | u32 => 0x23
  | u48 => 0x25
  | u64 => 0x27
  | i8 => 0x28
  | i16 => 0x29
  | i32 => 0x2B
  | i64 => 0x2F
  | enum8 => 0x30
  | enum16 => 0x31
  | float16 => 0x38
  | float32 => 0x39
  | float64 => 0x3A
  | octetString => 0x41
  | charString => 0x42
  | octetString16 => 0x43
  | charString16 => 0x44
  | array => 0x48
  | struct => 0x4C
  | set => 0x50
  | bag => 0x51
  | timeOfDay => 0xE0
  | date => 0xE1
  | utcTime => 0xE2
  | clusterId => 0xE8
  | attributeId => 0xE9
  | bacNetOid => 0xEA
  | ieeeAddr => 0xF0
  | securityKey128 => 0xF1

/-- The type of a wire byte. -/
def fromU8 : UInt8 → Option ZclDataType
  | 0x00 => some noData
  | 0x10 => some bool
  | 0x18 => some bitmap8
  | 0x19 => some bitmap16
  | 0x1B => some bitmap32
  | 0x1F => some bitmap64
  | 0x20 => some u8
  | 0x21 => some u16
  | 0x22 => some u24
  | 0x23 => some u32
  | 0x25 => some u48
  | 0x27 => some u64
  | 0x28 => some i8
  | 0x29 => some i16
  | 0x2B => some i32
  | 0x2F => some i64
  | 0x30 => some enum8
  | 0x31 => some enum16
  | 0x38 => some float16
  | 0x39 => some float32
  | 0x3A => some float64
  | 0x41 => some octetString
  | 0x42 => some charString
  | 0x43 => some octetString16
  | 0x44 => some charString16
  | 0x48 => some array
  | 0x4C => some struct
  | 0x50 => some set
  | 0x51 => some bag
  | 0xE0 => some timeOfDay
  | 0xE1 => some date
  | 0xE2 => some utcTime
  | 0xE8 => some clusterId
  | 0xE9 => some attributeId
  | 0xEA => some bacNetOid
  | 0xF0 => some ieeeAddr
  | 0xF1 => some securityKey128
  | _ => none

theorem fromU8_toU8 (dt : ZclDataType) : fromU8 dt.toU8 = some dt := by
  cases dt <;> rfl

theorem toU8_of_fromU8 {b : UInt8} (h : fromU8 b = some dt) : b = dt.toU8 := by
  unfold fromU8 at h
  split at h <;> cases h <;> rfl

/-- The fixed wire size of a type, from its tag; none for a type of variable length. -/
def size (dt : ZclDataType) : Option Nat :=
  let t := dt.toU8
  if t = 0x00 then some 0
  else if 0x08 ≤ t ∧ t ≤ 0x37 then some ((t &&& 7).toNat + 1)
  else if 0x38 ≤ t ∧ t ≤ 0x3A then some (2 <<< (t - 0x38).toNat)
  else if t = 0xE8 ∨ t = 0xE9 then some 2
  else if 0xE0 ≤ t ∧ t ≤ 0xEA then some 4
  else if t = 0xF0 ∨ t = 0xF1 then some (8 <<< (t - 0xF0).toNat)
  else none

end ZclDataType

/-- Which floating-point types the build supports. -/
structure FloatSupport where
  float32 : Bool
  float64 : Bool
  deriving DecidableEq

def FloatSupport.isEnabled (floats : FloatSupport) : ZclDataType → Bool
  | .float32 => floats.float32
  | .float64 => floats.float64
  | _ => true

def MAX_STRING_LEN : Nat := 32

/-- The bytes of a string that is stored inline. -/
abbrev InlineString := { bytes : Buf // bytes.length ≤ MAX_STRING_LEN }

/-- Typed ZCL value. -/
inductive ZclValue where
  | noData
  | bool (v : Bool)
  | bitmap8 (v : UInt8)
  | bitmap16 (v : UInt16)
  | bitmap32 (v : UInt32)
  | bitmap64 (v : UInt64)
  | u8 (v : UInt8)
  | u16 (v : UInt16)
  | u24 (v : UInt32)
  | u32 (v : UInt32)
  | u48 (v : UInt64)
  | u64 (v : UInt64)
  | i8 (v : Int8)
  | i16 (v : Int16)
  | i32 (v : Int32)
  | i64 (v : Int64)
  | enum8 (v : UInt8)
  | enum16 (v : UInt16)
  | float16 (bits : UInt16)
  | float32 (bits : UInt32)
  | float64 (bits : UInt64)
  | octetString (v : InlineString)
  | charString (v : InlineString)
  | utcTime (v : UInt32)
  | ieeeAddr (v : UInt64)
  | securityKey128 (key : Vector UInt8 16)
  deriving DecidableEq

variable {v : ZclValue} {floats : FloatSupport} {n : Nat}

namespace ZclValue

def dataType : ZclValue → ZclDataType
  | noData => .noData
  | bool _ => .bool
  | bitmap8 _ => .bitmap8
  | bitmap16 _ => .bitmap16
  | bitmap32 _ => .bitmap32
  | bitmap64 _ => .bitmap64
  | u8 _ => .u8
  | u16 _ => .u16
  | u24 _ => .u24
  | u32 _ => .u32
  | u48 _ => .u48
  | u64 _ => .u64
  | i8 _ => .i8
  | i16 _ => .i16
  | i32 _ => .i32
  | i64 _ => .i64
  | enum8 _ => .enum8
  | enum16 _ => .enum16
  | float16 _ => .float16
  | float32 _ => .float32
  | float64 _ => .float64
  | octetString _ => .octetString
  | charString _ => .charString
  | utcTime _ => .utcTime
  | ieeeAddr _ => .ieeeAddr
  | securityKey128 _ => .securityKey128

/-- A scalar as an unsigned number, and its width. -/
def scalarLe : ZclValue → Nat × Nat
  | bool v => (v.toNat, 1)
  | u8 v | enum8 v | bitmap8 v => (v.toNat, 1)
  | i8 v => (v.toUInt8.toNat, 1)
  | u16 v | enum16 v | bitmap16 v | float16 v => (v.toNat, 2)
  | i16 v => (v.toUInt16.toNat, 2)
  | u24 v => (v.toNat, 3)
  | u32 v | utcTime v | bitmap32 v => (v.toNat, 4)
  | i32 v => (v.toUInt32.toNat, 4)
  | float32 bits => (bits.toNat, 4)
  | u48 v => (v.toNat, 6)
  | u64 v | ieeeAddr v | bitmap64 v => (v.toNat, 8)
  | i64 v => (v.toUInt64.toNat, 8)
  | float64 bits => (bits.toNat, 8)
  | noData | octetString _ | charString _ | securityKey128 _ => (0, 0)

/-- The wire format of a value, without the tag. -/
def toBytes (v : ZclValue) : Buf :=
  match v with
  | octetString s | charString s => UInt8.ofNat s.1.length :: s.1
  | securityKey128 key => key.toList
  | _ => leBytes v.scalarLe.1 v.scalarLe.2

def wireLen (v : ZclValue) : Nat :=
  match v with
  | octetString s | charString s => 1 + s.1.length
  | securityKey128 _ => 16
  | _ => v.scalarLe.2

/-- The bytes that go into a buffer of `room` bytes, if they fit. -/
def trySerialize (v : ZclValue) (room : Nat) : Option Buf := if v.toBytes.length ≤ room then some v.toBytes else none

/-- The value of a fixed-size type other than a key; some types have none. -/
def ofScalar (dt : ZclDataType) (u : Nat) : Option ZclValue :=
  match dt with
  | .noData => some noData
  | .bool => some (bool (u != 0))
  | .u8 => some (u8 (UInt8.ofNat u))
  | .enum8 => some (enum8 (UInt8.ofNat u))
  | .bitmap8 => some (bitmap8 (UInt8.ofNat u))
  | .i8 => some (i8 (UInt8.ofNat u).toInt8)
  | .u16 => some (u16 (UInt16.ofNat u))
  | .enum16 => some (enum16 (UInt16.ofNat u))
  | .bitmap16 => some (bitmap16 (UInt16.ofNat u))
  | .float16 => some (float16 (UInt16.ofNat u))
  | .i16 => some (i16 (UInt16.ofNat u).toInt16)
  | .u24 => some (u24 (UInt32.ofNat u))
  | .u32 => some (u32 (UInt32.ofNat u))
  | .bitmap32 => some (bitmap32 (UInt32.ofNat u))
  | .utcTime => some (utcTime (UInt32.ofNat u))
  | .i32 => some (i32 (UInt32.ofNat u).toInt32)
  | .u48 => some (u48 (UInt64.ofNat u))
  | .u64 => some (u64 (UInt64.ofNat u))
  | .bitmap64 => some (bitmap64 (UInt64.ofNat u))
  | .ieeeAddr => some (ieeeAddr (UInt64.ofNat u))
  | .i64 => some (i64 (UInt64.ofNat u).toInt64)
  | .float32 => some (float32 (UInt32.ofNat u))
  | .float64 => some (float64 (UInt64.ofNat u))
  | _ => none

/-- A string with its length byte, and the number of bytes it takes. -/
def readString (make : InlineString → ZclValue) : Buf → Option (ZclValue × Nat)
  | [] => none
  | len :: rest =>
    if len.toNat ≤ rest.length then
      if h : (rest.take len.toNat).length ≤ MAX_STRING_LEN then some (make ⟨rest.take len.toNat, h⟩, 1 + len.toNat)
      else none
    else none

/-- The value of a type at the start of `data`, and the number of bytes it takes. -/
def deserialize (floats : FloatSupport) (dt : ZclDataType) (data : Buf) : Option (ZclValue × Nat) :=
  if !floats.isEnabled dt then none
  else
    match dt with
    | .octetString => readString octetString data
    | .charString => readString charString data
    | _ => do
      let n ← dt.size
      if data.length < n then none
      else if dt = .securityKey128 then some (securityKey128 (arrayAt 16 data 0), 16)
      else
        let v ← ofScalar dt (leNat (data.take n))
        some (v, n)

theorem eq_u32_of_dataType (h : v.dataType = .u32) : ∃ n, v = u32 n := by
  cases v <;> first | exact ⟨_, rfl⟩ | cases h

theorem eq_u16_of_dataType (h : v.dataType = .u16) : ∃ n, v = u16 n := by
  cases v <;> first | exact ⟨_, rfl⟩ | cases h

theorem toBytes_length (v : ZclValue) : v.toBytes.length = v.wireLen := by
  cases v <;> simp [toBytes, wireLen, scalarLe, Nat.add_comm]

/-! ## Round trip -/

/-- The value has the type, which the build supports, and it fits the width of the type. -/
def ReadsBack (floats : FloatSupport) (dt : ZclDataType) (v : ZclValue) : Prop :=
  v.dataType = dt ∧ floats.isEnabled dt = true ∧
    match v with
    | u24 n => n.toNat < 256 ^ 3
    | u48 n => n.toNat < 256 ^ 6
    | _ => True

theorem deserialize_scalar (henabled : floats.isEnabled v.dataType = true)
    (hother : v.dataType ≠ .octetString ∧ v.dataType ≠ .charString ∧ v.dataType ≠ .securityKey128)
    (hsize : v.dataType.size = some v.scalarLe.2) (hbytes : v.toBytes = leBytes v.scalarLe.1 v.scalarLe.2)
    (hscalar : ofScalar v.dataType (v.scalarLe.1 % 256 ^ v.scalarLe.2) = some v) (rest : Buf) :
    deserialize floats v.dataType (v.toBytes ++ rest) = some (v, v.toBytes.length) := by
  have htake : (v.toBytes ++ rest).take v.scalarLe.2 = v.toBytes := by
    rw [hbytes]
    exact List.take_left' (leBytes_length _ _)
  unfold deserialize
  rw [henabled, Bool.not_true, if_neg Bool.false_ne_true]
  split
  · exact absurd ‹_› hother.1
  · exact absurd ‹_› hother.2.1
  · rw [hsize, Option.bind_eq_bind, Option.bind_some, if_neg (by simp [hbytes]), if_neg hother.2.2, htake, hbytes, leNat_leBytes,
      hscalar, leBytes_length]
    rfl

theorem readString_toBytes (make : InlineString → ZclValue) (s : InlineString) (rest : Buf) :
    readString make (UInt8.ofNat s.1.length :: s.1 ++ rest) = some (make s, 1 + s.1.length) := by
  obtain ⟨bytes, hlen⟩ := s
  have hn : (UInt8.ofNat bytes.length).toNat = bytes.length := by
    rw [UInt8.toNat_ofNat']
    simp only [MAX_STRING_LEN] at hlen
    omega
  have htake : (bytes ++ rest).take bytes.length = bytes := List.take_left' rfl
  simp only [List.cons_append, readString, hn, htake, hlen, dif_pos]
  rw [if_pos (by simp)]

theorem arrayAt_append (key : Vector UInt8 16) (rest : Buf) : arrayAt 16 (key.toList ++ rest) 0 = key := by
  ext i hi
  simp [arrayAt, u8At, List.getD_eq_getElem?_getD, List.getElem?_append_left]

/-- **A value that fits its type is read back.** -/
theorem deserialize_toBytes (h : v.ReadsBack floats dt) (rest : Buf) :
    deserialize floats dt (v.toBytes ++ rest) = some (v, v.toBytes.length) := by
  obtain ⟨rfl, henabled, hwidth⟩ := h
  cases v
  case octetString s | charString s =>
    rw [toBytes, List.length_cons, Nat.add_comm]
    exact readString_toBytes _ s rest
  case securityKey128 key =>
    have hsize : ZclDataType.securityKey128.size = some 16 := rfl
    simp only [deserialize, dataType, FloatSupport.isEnabled, toBytes, hsize, Bool.not_true, Option.bind_eq_bind, Option.bind_some]
    simp [arrayAt_append]
  all_goals
    refine deserialize_scalar henabled (by simp [dataType]) (by simp only [dataType, scalarLe]; decide) rfl ?_ rest
    simp [scalarLe, ofScalar, dataType]
  case bool b => cases b <;> rfl
  case u24 n =>
    have hn : n.toNat % 16777216 = n.toNat := Nat.mod_eq_of_lt hwidth
    rw [hn, UInt32.ofNat_toNat]
  case u48 n =>
    have hn : n.toNat % 281474976710656 = n.toNat := Nat.mod_eq_of_lt hwidth
    rw [hn, UInt64.ofNat_toNat]

theorem readString_eq_some {make : InlineString → ZclValue} {data : Buf} (h : readString make data = some (v, n)) :
    ∃ s, v = make s ∧ n = 1 + s.1.length ∧ n ≤ data.length ∧ UInt8.ofNat s.1.length :: s.1 = data.take n := by
  cases data with
  | nil => cases h
  | cons len rest =>
    rw [readString] at h
    split_ifs at h with hlen
    cases h
    have htake : (rest.take len.toNat).length = len.toNat := List.length_take_of_le hlen
    refine ⟨_, rfl, by rw [htake], by rw [List.length_cons]; omega, ?_⟩
    rw [htake, UInt8.ofNat_toNat, Nat.add_comm, List.take_succ_cons]

/-- A number that fits its type is what the value stands for. -/
theorem ofScalar_scalarLe {u : Nat} (h : ofScalar dt u = some v) (hsize : dt.size = some n) (hu : u < 256 ^ n)
    (hbool : dt = .bool → u ≤ 1) : v.scalarLe = (u, n) := by
  cases dt <;> cases h <;> obtain rfl := Option.some.inj hsize
  case bool => obtain rfl | rfl := Nat.le_one_iff_eq_zero_or_eq_one.mp (hbool rfl) <;> rfl
  case noData => exact Prod.ext (Nat.lt_one_iff.mp hu).symm rfl
  all_goals exact Prod.ext (Nat.mod_eq_of_lt (hu.trans_le (by decide))) rfl

theorem ofScalar_readsBack {u : Nat} (h : ofScalar dt u = some v) (hsize : dt.size = some n) (hu : u < 256 ^ n)
    (henabled : floats.isEnabled dt = true) : v.ReadsBack floats dt ∧ n = v.wireLen ∧ v.toBytes = leBytes v.scalarLe.1 n := by
  have hscalar := ofScalar_scalarLe h hsize hu
  cases dt <;> cases h
  case u24 | u48 =>
    obtain rfl := Option.some.inj hsize
    exact ⟨⟨rfl, henabled, (congrArg Prod.fst (hscalar nofun)).trans_lt hu⟩, rfl, rfl⟩
  all_goals exact ⟨⟨rfl, henabled, trivial⟩, (Option.some.inj hsize).symm, Option.some.inj hsize ▸ rfl⟩

/-- **What is read is a value of the type asked for**, and its bytes are those that were read, but for the
    Booleans other than 0 and 1. -/
theorem deserialize_eq_some {data : Buf} (h : deserialize floats dt data = some (v, n)) :
    v.ReadsBack floats dt ∧ n = v.wireLen ∧ n ≤ data.length ∧
      ((dt = .bool → leNat (data.take n) ≤ 1) → v.toBytes = data.take n) := by
  unfold deserialize at h
  split at h
  · cases h
  rename_i henabled
  rw [Bool.not_eq_true', Bool.not_eq_false] at henabled
  split at h
  iterate 2
    · obtain ⟨s, rfl, hn, hle, hbytes⟩ := readString_eq_some h
      exact ⟨⟨rfl, henabled, trivial⟩, hn, hle, fun _ => hbytes⟩
  · obtain ⟨size, hsize, hread⟩ := Option.bind_eq_some_iff.mp h
    split_ifs at hread with hshort hkey
    · cases hread
      rw [hkey] at hsize henabled ⊢
      obtain rfl : 16 = size := Option.some.inj hsize
      have hlen := Nat.not_lt.mp hshort
      exact ⟨⟨rfl, henabled, trivial⟩, rfl, hlen, fun _ => arrayAt_zero_toList hlen⟩
    · obtain ⟨w, hw, hpair⟩ := Option.bind_eq_some_iff.mp hread
      cases hpair
      have htake : (data.take n).length = n := List.length_take_of_le (Nat.not_lt.mp hshort)
      have hu := leNat_lt (data.take n)
      have hback := leBytes_leNat (data.take n)
      rw [htake] at hu hback
      obtain ⟨hreads, hwire, hbytes⟩ := ofScalar_readsBack hw hsize hu henabled
      exact ⟨hreads, hwire, Nat.not_lt.mp hshort, fun hbool => by rw [hbytes, ofScalar_scalarLe hw hsize hu hbool, hback]⟩

/-- **The wire format of a type is inverse to its values**, but for the Booleans other than 0 and 1. -/
theorem codec_inverse (floats : FloatSupport) (dt : ZclDataType) :
    (∀ v : ZclValue, v.ReadsBack floats dt → ∀ rest, deserialize floats dt (v.toBytes ++ rest) = some (v, v.wireLen)) ∧
      ∀ (data : Buf) (v : ZclValue) (n : Nat), deserialize floats dt data = some (v, n) →
        v.ReadsBack floats dt ∧ n = v.wireLen ∧ n ≤ data.length ∧
          ((dt = .bool → leNat (data.take n) ≤ 1) → v.toBytes = data.take n) := by
  refine ⟨fun v h rest => ?_, fun data v n h => deserialize_eq_some h⟩
  rw [← v.toBytes_length]
  exact deserialize_toBytes h rest

end ZclValue

end Zigbee.Zcl
