import Zigbee.Lib.Records
import Zigbee.Runtime.ChildTable

/-!
# Encoding of the child table

Model of the snapshot codec of `zigbee-runtime/src/child_store.rs`: versions 2 to 5 are read, version 5
is written.

Version 2 holds identity and timeout of each child, version 3 adds a pending removal with its attempt
counter beside the flags, version 4 a replacement address, version 5 departures and the parent's own
Leave.
-/

namespace Zigbee.Runtime

open Bytes Records

def LEGACY_CHILD_ENTRY_LEN : Nat := 12
def CHILD_ENTRY_LEN : Nat := 14
def MAX_ENCODED_CHILD_TABLE_LEN : Nat := 8 + 2 + MAX_PERSISTED_CHILDREN * CHILD_ENTRY_LEN

def TABLE_FLAG_LEAVE_CASCADE_PENDING : UInt8 := (1 : UInt8) <<< 0
def TABLE_FLAG_LEAVE_CASCADE_REJOIN : UInt8 := (1 : UInt8) <<< 1
def TABLE_FLAG_MASK : UInt8 := TABLE_FLAG_LEAVE_CASCADE_PENDING ||| TABLE_FLAG_LEAVE_CASCADE_REJOIN

def CHILD_FLAG_RX_ON_WHEN_IDLE : UInt8 := (1 : UInt8) <<< 0
def CHILD_FLAG_SECURITY_CAPABLE : UInt8 := (1 : UInt8) <<< 1
def CHILD_FLAG_ROUTER : UInt8 := (1 : UInt8) <<< 2
def CHILD_FLAG_REMOVAL_PENDING : UInt8 := (1 : UInt8) <<< 3
def CHILD_REMOVAL_ATTEMPTS_SHIFT : UInt8 := 4
def CHILD_REMOVAL_ATTEMPTS_MASK : UInt8 := (0b11 : UInt8) <<< CHILD_REMOVAL_ATTEMPTS_SHIFT
def CHILD_FLAG_REASSIGNMENT_PENDING : UInt8 := (1 : UInt8) <<< 6
def CHILD_FLAG_DEPARTURE_PENDING : UInt8 := (1 : UInt8) <<< 7
def CHILD_FLAG_V2_MASK : UInt8 := CHILD_FLAG_RX_ON_WHEN_IDLE ||| CHILD_FLAG_SECURITY_CAPABLE ||| CHILD_FLAG_ROUTER
def CHILD_FLAG_V3_MASK : UInt8 := CHILD_FLAG_V2_MASK ||| CHILD_FLAG_REMOVAL_PENDING ||| CHILD_REMOVAL_ATTEMPTS_MASK

/-! ## Children -/

namespace PersistentChild

/-- Byte 10 of an entry. -/
def encodeFlags (c : PersistentChild) : UInt8 :=
  (if c.rxOnWhenIdle then CHILD_FLAG_RX_ON_WHEN_IDLE else 0) |||
    (if c.securityCapable then CHILD_FLAG_SECURITY_CAPABLE else 0) |||
    (if c.isRouter then CHILD_FLAG_ROUTER else 0) |||
    (if c.removalPending then CHILD_FLAG_REMOVAL_PENDING ||| c.removalAttempts <<< CHILD_REMOVAL_ATTEMPTS_SHIFT else 0) |||
    (if c.reassignmentAddress.isSome then CHILD_FLAG_REASSIGNMENT_PENDING else 0) |||
    (if c.departurePending then CHILD_FLAG_DEPARTURE_PENDING else 0)

def encode (c : PersistentChild) : Buf :=
  c.ieeeAddress.toList ++ (le16 c.shortAddress ++ ([c.encodeFlags, c.endDeviceTimeout] ++
    le16 (c.reassignmentAddress.getD 0xFFFF)))

/-- The child, if it passes its check. -/
def checked (c : PersistentChild) : Except ChildStoreError PersistentChild :=
  match c.validate with
  | .error e => .error e
  | .ok () => .ok c

def decodeFields (bytes : Buf) (removalStateSupported : Bool) (reassignmentAddress : Option UInt16) :
    Except ChildStoreError PersistentChild :=
  let flags := u8At bytes 10
  let allowedFlags := if removalStateSupported then CHILD_FLAG_V3_MASK else CHILD_FLAG_V2_MASK
  if flags &&& ~~~allowedFlags ≠ 0 then .error .corrupt
  else
    let removalPending := removalStateSupported && (flags &&& CHILD_FLAG_REMOVAL_PENDING != 0)
    checked {
      ieeeAddress := arrayAt 8 bytes 0
      shortAddress := u16At bytes 8
      rxOnWhenIdle := flags &&& CHILD_FLAG_RX_ON_WHEN_IDLE != 0
      securityCapable := flags &&& CHILD_FLAG_SECURITY_CAPABLE != 0
      isRouter := flags &&& CHILD_FLAG_ROUTER != 0
      endDeviceTimeout := u8At bytes 11
      removalPending
      removalAttempts :=
        if removalPending then (flags &&& CHILD_REMOVAL_ATTEMPTS_MASK) >>> CHILD_REMOVAL_ATTEMPTS_SHIFT else 0
      reassignmentAddress
      departurePending := false }

/-- An entry of version 4 or 5. -/
def decode (bytes : Buf) : Except ChildStoreError PersistentChild :=
  let flags := u8At bytes 10
  let reassignmentPending := flags &&& CHILD_FLAG_REASSIGNMENT_PENDING != 0
  let departurePending := flags &&& CHILD_FLAG_DEPARTURE_PENDING != 0
  let reassignmentRaw := u16At bytes 12
  if reassignmentPending ≠ (reassignmentRaw != 0xFFFF) then .error .corrupt
  else
    let legacy := (slice bytes 0 LEGACY_CHILD_ENTRY_LEN).set 10
      (flags &&& ~~~CHILD_FLAG_REASSIGNMENT_PENDING &&& ~~~CHILD_FLAG_DEPARTURE_PENDING)
    match decodeFields legacy true (if reassignmentPending then some reassignmentRaw else none) with
    | .error e => .error e
    | .ok child => checked { child with departurePending }

def decodeV3 (bytes : Buf) : Except ChildStoreError PersistentChild := decodeFields bytes true none

def decodeV2 (bytes : Buf) : Except ChildStoreError PersistentChild := decodeFields bytes false none

@[simp] theorem encode_length (c : PersistentChild) : c.encode.length = CHILD_ENTRY_LEN := by
  simp [encode, CHILD_ENTRY_LEN]

theorem checked_of_valid {c : PersistentChild} (h : c.Valid) : c.checked = .ok c := by
  unfold checked
  rw [validate_ok_iff.mpr h]

/-- What the decoder reads of the flags that were written, the attempts being at most 3. -/
theorem flags_roundTrip (rx security router removal reassignment departure : Bool) (attempts : Fin 4) :
    let flags :=
      (if rx then CHILD_FLAG_RX_ON_WHEN_IDLE else 0) ||| (if security then CHILD_FLAG_SECURITY_CAPABLE else 0) |||
        (if router then CHILD_FLAG_ROUTER else 0) |||
        (if removal then CHILD_FLAG_REMOVAL_PENDING ||| UInt8.ofNat attempts <<< CHILD_REMOVAL_ATTEMPTS_SHIFT else 0) |||
        (if reassignment then CHILD_FLAG_REASSIGNMENT_PENDING else 0) |||
        (if departure then CHILD_FLAG_DEPARTURE_PENDING else 0)
    let legacy := flags &&& ~~~CHILD_FLAG_REASSIGNMENT_PENDING &&& ~~~CHILD_FLAG_DEPARTURE_PENDING
    (flags &&& CHILD_FLAG_REASSIGNMENT_PENDING != 0) = reassignment ∧ (flags &&& CHILD_FLAG_DEPARTURE_PENDING != 0) = departure ∧
      legacy &&& ~~~CHILD_FLAG_V3_MASK = 0 ∧ (legacy &&& CHILD_FLAG_REMOVAL_PENDING != 0) = removal ∧
      (legacy &&& CHILD_FLAG_RX_ON_WHEN_IDLE != 0) = rx ∧ (legacy &&& CHILD_FLAG_SECURITY_CAPABLE != 0) = security ∧
      (legacy &&& CHILD_FLAG_ROUTER != 0) = router ∧
      (removal = true → (legacy &&& CHILD_REMOVAL_ATTEMPTS_MASK) >>> CHILD_REMOVAL_ATTEMPTS_SHIFT = UInt8.ofNat attempts) := by
  revert rx security router removal reassignment departure attempts
  decide +kernel

theorem encodeFlags_roundTrip {c : PersistentChild} (h : c.Valid) :
    let legacy := c.encodeFlags &&& ~~~CHILD_FLAG_REASSIGNMENT_PENDING &&& ~~~CHILD_FLAG_DEPARTURE_PENDING
    (c.encodeFlags &&& CHILD_FLAG_REASSIGNMENT_PENDING != 0) = c.reassignmentAddress.isSome ∧
      (c.encodeFlags &&& CHILD_FLAG_DEPARTURE_PENDING != 0) = c.departurePending ∧
      legacy &&& ~~~CHILD_FLAG_V3_MASK = 0 ∧ (legacy &&& CHILD_FLAG_REMOVAL_PENDING != 0) = c.removalPending ∧
      (legacy &&& CHILD_FLAG_RX_ON_WHEN_IDLE != 0) = c.rxOnWhenIdle ∧
      (legacy &&& CHILD_FLAG_SECURITY_CAPABLE != 0) = c.securityCapable ∧
      (legacy &&& CHILD_FLAG_ROUTER != 0) = c.isRouter ∧
      (c.removalPending = true →
        (legacy &&& CHILD_REMOVAL_ATTEMPTS_MASK) >>> CHILD_REMOVAL_ATTEMPTS_SHIFT = c.removalAttempts) := by
  have hlt : c.removalAttempts.toNat < 4 := by
    have hle : c.removalAttempts.toNat ≤ 3 := Nat.not_lt.mp h.attempts
    omega
  have hattempts : UInt8.ofNat (⟨c.removalAttempts.toNat, hlt⟩ : Fin 4) = c.removalAttempts := by simp
  have hflags := flags_roundTrip c.rxOnWhenIdle c.securityCapable c.isRouter c.removalPending c.reassignmentAddress.isSome
    c.departurePending ⟨c.removalAttempts.toNat, hlt⟩
  rw [hattempts] at hflags
  exact hflags

/-- The fields of an encoded child. -/
theorem encode_fields (c : PersistentChild) :
    u8At c.encode 10 = c.encodeFlags ∧ u16At c.encode 12 = c.reassignmentAddress.getD 0xFFFF := by
  unfold encode
  simp (disch := simp) only [u8At_append_right, u16At_append_right, le16_length, Vector.length_toList,
    List.length_cons, List.length_nil, Nat.reduceAdd, Nat.reduceSub, u16At_le16_self]
  exact ⟨rfl, trivial⟩

/-- What is left of an encoded child once the later flags are masked out. -/
theorem encode_legacy (c : PersistentChild) (flags : UInt8) :
    (slice c.encode 0 LEGACY_CHILD_ENTRY_LEN).set 10 flags =
      c.ieeeAddress.toList ++ (le16 c.shortAddress ++ [flags, c.endDeviceTimeout]) := by
  have hieee : c.ieeeAddress.toList.take 12 = c.ieeeAddress.toList := List.take_of_length_le (by simp)
  have hshort : (le16 c.shortAddress).take 4 = le16 c.shortAddress := List.take_of_length_le (by simp)
  simp [encode, slice, LEGACY_CHILD_ENTRY_LEN, List.take_append, hieee, hshort]

theorem legacy_fields (ieee : IeeeAddress) (short : UInt16) (flags timeout : UInt8) :
    let bytes := ieee.toList ++ (le16 short ++ [flags, timeout])
    arrayAt 8 bytes 0 = ieee ∧ u16At bytes 8 = short ∧ u8At bytes 10 = flags ∧ u8At bytes 11 = timeout := by
  intro bytes
  simp (disch := simp) only [bytes, u8At_append_right, u16At_append_right, le16_length, Vector.length_toList,
    Nat.reduceSub, u16At_le16, arrayAt_toList]
  exact ⟨trivial, trivial, rfl, rfl⟩

theorem decode_encode {c : PersistentChild} (h : c.Valid) : decode c.encode = .ok c := by
  obtain ⟨hflags, hraw⟩ := c.encode_fields
  obtain ⟨h1, h2, h3, h4, h5, h6, h7, h8⟩ := encodeFlags_roundTrip h
  have hmarked : c.reassignmentAddress.isSome = (c.reassignmentAddress.getD 0xFFFF != 0xFFFF) := by
    cases ha : c.reassignmentAddress with
    | none => rfl
    | some a =>
      obtain ⟨-, -, -, halloc⟩ := h.reassignment a ha
      have hne : a ≠ 0xFFFF := by
        rintro rfl
        revert halloc
        decide
      simp [hne]
  have haddress : (if c.reassignmentAddress.isSome = true then some (c.reassignmentAddress.getD 0xFFFF) else none) =
      c.reassignmentAddress := by
    cases c.reassignmentAddress <;> rfl
  have hattempts : (if c.removalPending = true then c.removalAttempts else 0) = c.removalAttempts := by
    cases hr : c.removalPending with
    | true => rfl
    | false => exact (h.noAttempts hr).symm
  obtain ⟨f1, f2, f3, f4⟩ := legacy_fields c.ieeeAddress c.shortAddress
    (c.encodeFlags &&& ~~~CHILD_FLAG_REASSIGNMENT_PENDING &&& ~~~CHILD_FLAG_DEPARTURE_PENDING) c.endDeviceTimeout
  have hlegacy : ({ c with departurePending := false } : PersistentChild).Valid := by
    obtain ⟨v1, v2, v3, v4, v5, v6, -⟩ := h
    refine ⟨v1, v2, v3, v4, v5, fun a ha => ?_, fun hd => ?_⟩
    · obtain ⟨w1, -, w3, w4⟩ := v6 a ha
      exact ⟨w1, rfl, w3, w4⟩
    · cases hd
  have hfields : decodeFields (c.ieeeAddress.toList ++ (le16 c.shortAddress ++
      [c.encodeFlags &&& ~~~CHILD_FLAG_REASSIGNMENT_PENDING &&& ~~~CHILD_FLAG_DEPARTURE_PENDING, c.endDeviceTimeout]))
      true c.reassignmentAddress = .ok { c with departurePending := false } := by
    unfold decodeFields
    simp only [f1, f2, f3, f4, h3, h4, h5, h6, h7, if_true, ne_eq, not_true_eq_false, if_false, Bool.true_and]
    rw [show (if c.removalPending = true then
      ((c.encodeFlags &&& ~~~CHILD_FLAG_REASSIGNMENT_PENDING &&& ~~~CHILD_FLAG_DEPARTURE_PENDING) &&&
        CHILD_REMOVAL_ATTEMPTS_MASK) >>> CHILD_REMOVAL_ATTEMPTS_SHIFT else 0) = c.removalAttempts from ?_]
    · exact checked_of_valid hlegacy
    · split
      · exact h8 ‹_›
      · exact (h.noAttempts (by simpa using ‹¬ c.removalPending = true›)).symm
  unfold decode
  simp only [hflags, hraw, h1, h2, ← hmarked, haddress, encode_legacy, hfields, ne_eq, not_true_eq_false, if_false]
  exact checked_of_valid h

end PersistentChild

/-! ## The table -/

namespace PersistentChildTable

def encode (t : PersistentChildTable) : Buf :=
  t.extendedPanId.toList ++
    ([(if t.leaveCascadePending then TABLE_FLAG_LEAVE_CASCADE_PENDING else 0) |||
        (if t.leaveCascadeRejoin then TABLE_FLAG_LEAVE_CASCADE_REJOIN else 0), UInt8.ofNat t.children.length] ++
      t.children.flatMap PersistentChild.encode)

/-- The decoder of an entry. -/
def decodeChild (version : UInt8) : Buf → Except ChildStoreError PersistentChild :=
  if 4 ≤ version then PersistentChild.decode
  else if version = 3 then PersistentChild.decodeV3
  else PersistentChild.decodeV2

def decodeVersion (bytes : Buf) (version : UInt8) : Except ChildStoreError PersistentChildTable :=
  if bytes.length < 8 then .error .corrupt
  else if 5 ≤ version ∧ (bytes.length ≤ 8 ∨ u8At bytes 8 &&& ~~~TABLE_FLAG_MASK ≠ 0) then .error .corrupt
  else
    let tableFlags := if 5 ≤ version then u8At bytes 8 else 0
    let countOffset := if 5 ≤ version then 9 else 8
    let entriesOffset := if 5 ≤ version then 10 else 9
    if bytes.length ≤ countOffset then .error .corrupt
    else
      let count := (u8At bytes countOffset).toNat
      let entryLen := if 4 ≤ version then CHILD_ENTRY_LEN else LEGACY_CHILD_ENTRY_LEN
      if MAX_PERSISTED_CHILDREN < count then .error .corrupt
      else if bytes.length ≠ entriesOffset + count * entryLen then .error .corrupt
      else
        match readVec (n := MAX_PERSISTED_CHILDREN) entryLen (decodeChild version) .full count (bytes.drop entriesOffset) with
        | .error e => .error e
        | .ok (children, _) =>
          let table : PersistentChildTable := {
            extendedPanId := arrayAt 8 bytes 0
            leaveCascadePending := tableFlags &&& TABLE_FLAG_LEAVE_CASCADE_PENDING != 0
            leaveCascadeRejoin := tableFlags &&& TABLE_FLAG_LEAVE_CASCADE_REJOIN != 0
            children := children.items
            bounded := children.bounded }
          match table.validate with
          | .error e => .error e
          | .ok () => .ok table

def decode (bytes : Buf) : Except ChildStoreError PersistentChildTable := decodeVersion bytes 5
def decodeV4 (bytes : Buf) : Except ChildStoreError PersistentChildTable := decodeVersion bytes 4
def decodeV3 (bytes : Buf) : Except ChildStoreError PersistentChildTable := decodeVersion bytes 3
def decodeV2 (bytes : Buf) : Except ChildStoreError PersistentChildTable := decodeVersion bytes 2

theorem encode_length (t : PersistentChildTable) : t.encode.length = 10 + t.children.length * CHILD_ENTRY_LEN := by
  unfold encode
  rw [List.length_append, List.length_append, length_flatMap_of_width PersistentChild.encode_length]
  simp only [Vector.length_toList, List.length_cons, List.length_nil]
  omega

theorem encode_fits (t : PersistentChildTable) : t.encode.length ≤ MAX_ENCODED_CHILD_TABLE_LEN := by
  have hbounded := t.bounded
  rw [encode_length]
  unfold MAX_ENCODED_CHILD_TABLE_LEN MAX_PERSISTED_CHILDREN CHILD_ENTRY_LEN at *
  omega

theorem tableFlags_roundTrip (pending rejoin : Bool) :
    let flags := (if pending then TABLE_FLAG_LEAVE_CASCADE_PENDING else 0) |||
      (if rejoin then TABLE_FLAG_LEAVE_CASCADE_REJOIN else 0)
    flags &&& ~~~TABLE_FLAG_MASK = 0 ∧ (flags &&& TABLE_FLAG_LEAVE_CASCADE_PENDING != 0) = pending ∧
      (flags &&& TABLE_FLAG_LEAVE_CASCADE_REJOIN != 0) = rejoin := by
  revert pending rejoin
  decide +kernel

theorem decode_encode {t : PersistentChildTable} (h : t.Valid) : decode t.encode = .ok t := by
  obtain ⟨h1, h2, h3⟩ := tableFlags_roundTrip t.leaveCascadePending t.leaveCascadeRejoin
  have hlen := t.encode_length
  have hcount : (UInt8.ofNat t.children.length).toNat = t.children.length := by
    have hbounded : t.children.length ≤ 32 := t.bounded
    rw [UInt8.toNat_ofNat']
    omega
  have hepid : arrayAt 8 t.encode 0 = t.extendedPanId := arrayAt_toList _ _
  have hflags : u8At t.encode 8 = (if t.leaveCascadePending then TABLE_FLAG_LEAVE_CASCADE_PENDING else 0) |||
      (if t.leaveCascadeRejoin then TABLE_FLAG_LEAVE_CASCADE_REJOIN else 0) := by
    unfold encode
    rw [u8At_append_right (by simp)]
    simp [u8At]
  have hlast : u8At t.encode 9 = UInt8.ofNat t.children.length := by
    unfold encode
    rw [u8At_append_right (by simp)]
    simp [u8At]
  have hdrop : t.encode.drop 10 = t.children.flatMap PersistentChild.encode := by
    unfold encode
    rw [← List.append_assoc]
    exact List.drop_left' (by simp)
  have hread := readVec_encoded PersistentChild.decode ChildStoreError.full PersistentChild.encode
    (⟨t.children, t.bounded⟩ : Bounded PersistentChild MAX_PERSISTED_CHILDREN) []
    fun c hc => ⟨c.encode_length, PersistentChild.decode_encode (h.each c hc)⟩
  rw [List.append_nil] at hread
  unfold decode decodeVersion
  have h5 : (5 : UInt8) ≤ 5 := by decide
  have h4 : (4 : UInt8) ≤ 5 := by decide
  simp only [h5, h4, decodeChild, if_true, hflags, hlast, hcount, hepid, hdrop, hread, h1, h2, h3, true_and, ne_eq,
    not_true_eq_false, or_false, validate_ok_iff.mpr h]
  rw [if_neg (by omega), if_neg (by omega), if_neg (by omega), if_neg (Nat.not_lt.mpr t.bounded), if_neg (by omega)]

theorem decodeVersion_valid {bytes : Buf} {version : UInt8} {t : PersistentChildTable}
    (h : decodeVersion bytes version = .ok t) : t.validate = .ok () := by
  simp only [decodeVersion, check_eq_ok] at h
  obtain ⟨-, -, -, -, -, h⟩ := h
  split at h
  · cases h
  · split at h
    · cases h
    · cases h
      assumption

/-- **The child table codec is exact.** -/
theorem codec_exact :
    ExactCodec (fun t => t.validate = .ok ()) encode MAX_ENCODED_CHILD_TABLE_LEN decode [decode, decodeV4, decodeV3, decodeV2] := by
  refine ExactCodec.of_roundTrip List.mem_cons_self (fun t h => decode_encode (validate_ok_iff.mp h)) (fun t _ => encode_fits t) ?_
  intro d hd bytes t h
  simp only [List.mem_cons, List.not_mem_nil, or_false] at hd
  rcases hd with rfl | rfl | rfl | rfl
  · exact decodeVersion_valid h
  · exact decodeVersion_valid h
  · exact decodeVersion_valid h
  · exact decodeVersion_valid h

end PersistentChildTable

end Zigbee.Runtime
