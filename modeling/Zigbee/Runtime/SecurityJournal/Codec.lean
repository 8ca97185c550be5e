import Zigbee.Runtime.ReplayCounter
import Zigbee.Runtime.SecurityState

/-!
# Slot formats of the security journal

Model of the record and replay-slot codecs of `zigbee-runtime/src/security_journal.rs`.  A slot is
128 bytes: a state record (`ZBSS`, a 120-byte prefix and a commit marker at byte 124), or a replay
slot (`ZBSR`, a 16-byte header and four 28-byte entries, each with its own commit marker).

* `decodeRecord`, `replayHeaderGeneration`, `decodeReplayEntry` — the readers, as the scans use them.
* `recordPrefix`, `replayHeader`, `encodeReplayEntry` — the bytes the writers program.
* `decodeRecord_committed`, `decodeReplayEntry_bytes` — each
  reader returns what was written, once the commit marker is there, and nothing before.
-/

namespace Zigbee.Runtime.SecurityJournal

open Bytes

def SECURITY_JOURNAL_UNTAGGED : UInt16 := 0xFFFF
def SECURITY_JOURNAL_SLOT_SIZE : Nat := 128

def RECORD_MAGIC : Buf := [0x5A, 0x42, 0x53, 0x53]
def RECORD_TAG_OFFSET : Nat := 6
def RECORD_VERSION : UInt8 := 8
def LEGACY_RECORD_CRC_OFFSET : Nat := 92
def V6_RECORD_CRC_OFFSET : Nat := 112
def RECORD_CRC_OFFSET : Nat := 116
def RECORD_PREFIX_LEN : Nat := 120
def RECORD_COMMIT_OFFSET : Nat := 124
def RECORD_COMMIT : Buf := [0x43, 0x4D, 0x49, 0x54]
def REPLAY_RECORD_MAGIC : Buf := [0x5A, 0x42, 0x53, 0x52]
def REPLAY_RECORD_VERSION : UInt8 := 1
def REPLAY_HEADER_LEN : Nat := 16
def REPLAY_ENTRY_LEN : Nat := 28
def REPLAY_ENTRY_PREFIX_LEN : Nat := 24
def REPLAY_ENTRY_COMMIT_OFFSET : Nat := 24
def REPLAY_ENTRY_COMMIT : Buf := [0x52, 0x43, 0x4D, 0x54]
def REPLAY_ENTRIES_PER_SLOT : Nat := 4

def crc32Byte (crc : UInt32) (byte : UInt8) : UInt32 :=
  (List.range 8).foldl
    (fun crc _ => (crc >>> 1) ^^^ (0xEDB88320 &&& (0 - (crc &&& 1)))) (crc ^^^ byte.toUInt32)

def crc32 (data : Buf) : UInt32 := ~~~ (data.foldl crc32Byte 0xFFFFFFFF)

/-! ## State records -/

/-- CRC offset and state layout selected by the version and length bytes. -/
def recordFormat (version length : UInt8) : Option (Nat × StateFormat) :=
  if version = 8 ∧ length.toNat = ENCODED_SECURITY_STATE_LEN then some (RECORD_CRC_OFFSET, .v8)
  else if version = 7 ∧ length.toNat = ENCODED_SECURITY_STATE_LEN then some (RECORD_CRC_OFFSET, .v7)
  else if version = 6 ∧ length.toNat = V6_ENCODED_SECURITY_STATE_LEN then
    some (V6_RECORD_CRC_OFFSET, .v6)
  else if version = 5 ∧ length.toNat = V5_ENCODED_SECURITY_STATE_LEN then
    some (V6_RECORD_CRC_OFFSET, .v5)
  else if version = 4 ∧ length.toNat = V4_ENCODED_SECURITY_STATE_LEN then
    some (V6_RECORD_CRC_OFFSET, .v4)
  else if version = 3 ∧ length.toNat = V4_ENCODED_SECURITY_STATE_LEN then
    some (V6_RECORD_CRC_OFFSET, .v3)
  else if version = 2 ∧ length.toNat = V2_ENCODED_SECURITY_STATE_LEN then
    some (V6_RECORD_CRC_OFFSET, .v2)
  else if version = 1 ∧ length.toNat = LEGACY_ENCODED_SECURITY_STATE_LEN then
    some (LEGACY_RECORD_CRC_OFFSET, .v1)
  else none

/-- Bytes of the encoded state that each layout decodes. -/
def encodedStateLen : StateFormat → Nat
  | .v8 | .v7 => ENCODED_SECURITY_STATE_LEN
  | .v6 => V6_ENCODED_SECURITY_STATE_LEN
  | .v5 => V5_ENCODED_SECURITY_STATE_LEN
  | .v4 | .v3 => V4_ENCODED_SECURITY_STATE_LEN
  | .v2 => V2_ENCODED_SECURITY_STATE_LEN
  | .v1 => LEGACY_ENCODED_SECURITY_STATE_LEN

def recordTag (record : Buf) : UInt16 := u16At record RECORD_TAG_OFFSET

def decodeRecord (record : Buf) : Option (UInt32 × PersistentSecurityState) :=
  if slice record RECORD_COMMIT_OFFSET (RECORD_COMMIT_OFFSET + 4) ≠ RECORD_COMMIT ∨
      slice record 0 4 ≠ RECORD_MAGIC then none
  else
    match recordFormat (u8At record 4) (u8At record 5) with
    | none => none
    | some (crcOffset, format) =>
      if crc32 (slice record 0 crcOffset) ≠ u32At record crcOffset then none
      else
        match PersistentSecurityState.decodeBytes
            (slice record 12 (12 + encodedStateLen format)) format with
        | .ok state => some (u32At record 8, state)
        | .error _ => none

/-- Bytes of a record that its CRC covers. -/
def recordBody (generation : UInt32) (state : PersistentSecurityState) (tag : UInt16) : Buf :=
  RECORD_MAGIC ++ ([RECORD_VERSION, 103] ++ (le16 tag ++ (le32 generation ++ (state.encode ++ [0xFF]))))

/-- `record[..RECORD_PREFIX_LEN]`. -/
def recordPrefix (generation : UInt32) (state : PersistentSecurityState) (tag : UInt16) : Buf :=
  recordBody generation state tag ++ le32 (crc32 (recordBody generation state tag))

/-! ## Replay slots -/

def replayHeaderGeneration (record : Buf) : Option UInt32 :=
  if slice record 0 4 ≠ REPLAY_RECORD_MAGIC ∨ u8At record 4 ≠ REPLAY_RECORD_VERSION ∨
      (u8At record 5).toNat ≠ REPLAY_ENTRY_LEN ∨ (u8At record 6).toNat ≠ REPLAY_ENTRIES_PER_SLOT ∨
      u8At record 7 ≠ 0 then none
  else if crc32 (slice record 0 12) ≠ u32At record 12 then none
  else some (u32At record 8)

/-- `record[replay_entry_range(index)]`. -/
def replayEntryAt (record : Buf) (index : Nat) : Buf :=
  slice record (REPLAY_HEADER_LEN + index * REPLAY_ENTRY_LEN)
    (REPLAY_HEADER_LEN + index * REPLAY_ENTRY_LEN + REPLAY_ENTRY_LEN)

/-- `replay_entry_is_erased`, also the whole-slot check of `slot_is_erased`. -/
def isErased (bytes : Buf) : Bool := bytes.all (· == 0xFF)

def decodeReplayEntry (entry : Buf) : Option PersistentReplayCounter :=
  if entry.length ≠ REPLAY_ENTRY_LEN ∨
      entry.drop REPLAY_ENTRY_COMMIT_OFFSET ≠ REPLAY_ENTRY_COMMIT then none
  else if crc32 (slice entry 0 20) ≠ u32At entry 20 ∨ slice entry 18 20 ≠ [0, 0] then none
  else
    let source : IeeeAddress := arrayAt 8 entry 0
    if source = zeroAddress ∨ source = onesAddress then none
    else
      let counter := u32At entry 8
      let keyFingerprint := u32At entry 12
      let kind := u8At entry 16
      let selector := u8At entry 17
      if kind = 0 then
        some (.nwk ⟨source, selector, keyFingerprint, counter⟩)
      else if kind = 1 then
        match ApsKeyType.fromU8 selector with
        | some .trustCenterLinkKey =>
          some (.aps ⟨.keyPair source .trustCenterLinkKey, keyFingerprint, counter⟩)
        | some .applicationLinkKey =>
          some (.aps ⟨.keyPair source .applicationLinkKey, keyFingerprint, counter⟩)
        | _ => none
      else if kind = 2 ∧ selector = 0 then
        some (.aps ⟨.preconfiguredGlobal source, keyFingerprint, counter⟩)
      else if kind = 3 ∧ selector = 0 then
        some (.aps ⟨.distributedGlobal source, keyFingerprint, counter⟩)
      else none

/-- Source, kind and selector of an encoded entry. -/
def replayEntryFields : PersistentReplayCounter → IeeeAddress × UInt8 × UInt8
  | .nwk r => (r.source, 0, r.keySequence)
  | .aps r =>
    match r.origin with
    | .keyPair partner keyType => (partner, 1, keyType.toU8)
    | .preconfiguredGlobal source => (source, 2, 0)
    | .distributedGlobal source => (source, 3, 0)

def replayFingerprint : PersistentReplayCounter → UInt32
  | .nwk r => r.keyFingerprint
  | .aps r => r.keyFingerprint

def replayEntryBody (r : PersistentReplayCounter) : Buf :=
  (replayEntryFields r).1.toList ++ (le32 r.counter ++ (le32 (replayFingerprint r) ++
    [(replayEntryFields r).2.1, (replayEntryFields r).2.2, 0, 0]))

/-- `encode_replay_entry(replay)[..REPLAY_ENTRY_PREFIX_LEN]`. -/
def encodeReplayEntry (r : PersistentReplayCounter) : Buf :=
  replayEntryBody r ++ le32 (crc32 (replayEntryBody r))

def replayHeaderBody (generation : UInt32) : Buf :=
  REPLAY_RECORD_MAGIC ++ ([REPLAY_RECORD_VERSION, 28, 4, 0] ++ le32 generation)

/-- The header `write_replay_header` programs. -/
def replayHeader (generation : UInt32) : Buf :=
  replayHeaderBody generation ++ le32 (crc32 (replayHeaderBody generation))

/-! ## Lengths -/

variable (g : UInt32)

@[simp] theorem recordBody_length (st : PersistentSecurityState) (tag : UInt16) :
    (recordBody g st tag).length = 116 := by simp [recordBody, RECORD_MAGIC]

@[simp] theorem recordPrefix_length (st : PersistentSecurityState) (tag : UInt16) :
    (recordPrefix g st tag).length = 120 := by simp [recordPrefix]

@[simp] theorem replayEntryBody_length (r : PersistentReplayCounter) :
    (replayEntryBody r).length = 20 := by simp [replayEntryBody]

@[simp] theorem encodeReplayEntry_length (r : PersistentReplayCounter) :
    (encodeReplayEntry r).length = 24 := by simp [encodeReplayEntry]

@[simp] theorem replayHeaderBody_length : (replayHeaderBody g).length = 12 := by
  simp [replayHeaderBody, REPLAY_RECORD_MAGIC]

@[simp] theorem replayHeader_length : (replayHeader g).length = 16 := by
  simp [replayHeader]

@[simp] theorem RECORD_COMMIT_length : RECORD_COMMIT.length = 4 := by simp [RECORD_COMMIT]

@[simp] theorem REPLAY_ENTRY_COMMIT_length : REPLAY_ENTRY_COMMIT.length = 4 := by
  simp [REPLAY_ENTRY_COMMIT]

/-! ## State records read back -/

/-- Bytes 120..124 of a record are never programmed. -/
def recordGap : Buf := [0xFF, 0xFF, 0xFF, 0xFF]

@[simp] theorem recordGap_length : recordGap.length = 4 := by simp [recordGap]

theorem slice_commit {p c : Buf} (hp : p.length = 120) (hc : c.length = 4) :
    slice (p ++ (recordGap ++ c)) RECORD_COMMIT_OFFSET (RECORD_COMMIT_OFFSET + 4) = c := by
  unfold RECORD_COMMIT_OFFSET
  rw [slice_append_right (by omega), hp, slice_append_right (by simp), recordGap_length]
  exact slice_self c (by omega)

theorem recordPrefix_fields (st : PersistentSecurityState) (tag : UInt16) (l : Buf) :
    slice (recordPrefix g st tag ++ l) 0 4 = RECORD_MAGIC ∧
    u8At (recordPrefix g st tag ++ l) 4 = RECORD_VERSION ∧
    u8At (recordPrefix g st tag ++ l) 5 = 103 ∧
    u16At (recordPrefix g st tag ++ l) 6 = tag ∧
    u32At (recordPrefix g st tag ++ l) 8 = g ∧
    slice (recordPrefix g st tag ++ l) 12 115 = st.encode := by
  have hm : RECORD_MAGIC.length = 4 := rfl
  refine ⟨?_, ?_, ?_, ?_, ?_, ?_⟩
  · simp only [recordPrefix, recordBody, List.append_assoc]
    exact slice_init hm.symm
  · simp only [recordPrefix, recordBody, List.append_assoc]
    rw [u8At_append_right (by omega), hm, List.cons_append, Nat.sub_self, u8At_cons_zero]
  · simp only [recordPrefix, recordBody, List.append_assoc]
    rw [u8At_append_right (by omega), hm, List.cons_append, u8At_cons_succ, List.cons_append,
      u8At_cons_zero]
  · simp only [recordPrefix, recordBody, List.append_assoc]
    rw [u16At_append_right (by omega), hm, u16At_append_right (by simp)]
    exact u16At_le16 tag _
  · simp only [recordPrefix, recordBody, List.append_assoc]
    rw [u32At_append_right (by omega), hm, u32At_append_right (by simp),
      u32At_append_right (by simp)]
    exact u32At_le32 g _
  · simp only [recordPrefix, recordBody, List.append_assoc]
    rw [slice_append_right (by omega), hm, slice_append_right (by simp),
      slice_append_right (by simp), slice_append_right (by simp)]
    exact slice_init (by simp)

theorem recordPrefix_crc (st : PersistentSecurityState) (tag : UInt16) (l : Buf) :
    crc32 (slice (recordPrefix g st tag ++ l) 0 116) = u32At (recordPrefix g st tag ++ l) 116 := by
  simp only [recordPrefix, List.append_assoc]
  rw [slice_init (by simp), u32At_append_right (by simp), recordBody_length, Nat.sub_self,
    u32At_le32]

/-- The bytes of a record slot, with and without its commit marker. -/
def recordSlot (g : UInt32) (st : PersistentSecurityState) (tag : UInt16) (committed : Bool) : Buf :=
  recordPrefix g st tag ++ (recordGap ++ if committed then RECORD_COMMIT else [0xFF, 0xFF, 0xFF, 0xFF])

@[simp] theorem recordSlot_length (st : PersistentSecurityState) (tag : UInt16) (committed : Bool) :
    (recordSlot g st tag committed).length = 128 := by
  cases committed <;> simp [recordSlot]

@[simp] theorem recordTag_recordSlot (st : PersistentSecurityState) (tag : UInt16) (committed : Bool) :
    recordTag (recordSlot g st tag committed) = tag :=
  (recordPrefix_fields g st tag _).2.2.2.1

/-- **A committed record of a valid state reads back as written.** -/
theorem decodeRecord_committed {st : PersistentSecurityState} (tag : UInt16)
    (hv : st.validate = .ok ()) : decodeRecord (recordSlot g st tag true) = some (g, st) := by
  obtain ⟨hmagic, hversion, hlen, -, hgen, hstate⟩ :=
    recordPrefix_fields g st tag (recordGap ++ RECORD_COMMIT)
  have hcommit := slice_commit (recordPrefix_length g st tag) RECORD_COMMIT_length
  have hcrc := recordPrefix_crc g st tag (recordGap ++ RECORD_COMMIT)
  have hdec : PersistentSecurityState.decodeBytes st.encode .v8 = .ok st := by
    rw [PersistentSecurityState.decode_encode, hv]
    rfl
  have hformat : recordFormat RECORD_VERSION 103 = some (RECORD_CRC_OFFSET, .v8) := by decide
  have hstate' : slice (recordPrefix g st tag ++ (recordGap ++ RECORD_COMMIT)) 12
      (12 + encodedStateLen .v8) = st.encode := hstate
  simp only [recordSlot, if_true, decodeRecord, hcommit, hmagic, hversion, hlen, hformat,
    ne_eq, not_true_eq_false, or_self, if_false, RECORD_CRC_OFFSET, hcrc, hstate', hdec, hgen]

/-- A record without its commit marker is not read. -/
theorem decodeRecord_uncommitted (st : PersistentSecurityState) (tag : UInt16) :
    decodeRecord (recordSlot g st tag false) = none := by
  have hcommit : slice (recordSlot g st tag false) RECORD_COMMIT_OFFSET (RECORD_COMMIT_OFFSET + 4) =
      [0xFF, 0xFF, 0xFF, 0xFF] := slice_commit (recordPrefix_length g st tag) rfl
  unfold decodeRecord
  rw [hcommit, if_pos (Or.inl (by decide))]

theorem replayHeaderGeneration_recordSlot (st : PersistentSecurityState) (tag : UInt16)
    (committed : Bool) : replayHeaderGeneration (recordSlot g st tag committed) = none := by
  have hmagic : slice (recordSlot g st tag committed) 0 4 = RECORD_MAGIC :=
    (recordPrefix_fields g st tag _).1
  unfold replayHeaderGeneration
  rw [hmagic, if_pos (Or.inl (by decide))]

theorem isErased_recordSlot (st : PersistentSecurityState) (tag : UInt16) (committed : Bool) :
    isErased (recordSlot g st tag committed) = false := by
  simp [isErased, recordSlot, recordPrefix, recordBody, RECORD_MAGIC]

/-! ## Replay entries read back -/

/-- What `decode_replay_entry` accepts: a real sender, and a link key for a key pair. -/
def storable (r : PersistentReplayCounter) : Bool :=
  (replayEntryFields r).1 != zeroAddress && (replayEntryFields r).1 != onesAddress &&
    match r with
    | .nwk _ => true
    | .aps r =>
      match r.origin with
      | .keyPair _ .trustCenterLinkKey | .keyPair _ .applicationLinkKey => true
      | .keyPair _ _ => false
      | .preconfiguredGlobal _ | .distributedGlobal _ => true

/-- One programmed entry of a replay slot, with or without its commit marker. -/
structure Cell where
  replay : PersistentReplayCounter
  committed : Bool

variable (c : Cell)

namespace Cell

def bytes (c : Cell) : Buf :=
  encodeReplayEntry c.replay ++ if c.committed then REPLAY_ENTRY_COMMIT else [0xFF, 0xFF, 0xFF, 0xFF]

/-- The scans read the entry. -/
def good (c : Cell) : Bool := c.committed && storable c.replay

@[simp] theorem bytes_length : c.bytes.length = 28 := by
  cases hc : c.committed <;> simp [bytes, hc]

theorem bytes_fields :
    arrayAt 8 c.bytes 0 = (replayEntryFields c.replay).1 ∧
    u32At c.bytes 8 = c.replay.counter ∧
    u32At c.bytes 12 = replayFingerprint c.replay ∧
    u8At c.bytes 16 = (replayEntryFields c.replay).2.1 ∧
    u8At c.bytes 17 = (replayEntryFields c.replay).2.2 ∧
    slice c.bytes 18 20 = [0, 0] := by
  refine ⟨?_, ?_, ?_, ?_, ?_, ?_⟩
  all_goals simp only [bytes, encodeReplayEntry, replayEntryBody, List.append_assoc]
  · exact arrayAt_toList _ _
  · rw [u32At_append_right (by simp)]
    simpa using u32At_le32 _ _
  · rw [u32At_append_right (by simp), u32At_append_right (by simp)]
    simpa using u32At_le32 _ _
  · rw [u8At_append_right (by simp), u8At_append_right (by simp), u8At_append_right (by simp)]
    simp [u8At]
  · rw [u8At_append_right (by simp), u8At_append_right (by simp), u8At_append_right (by simp)]
    simp [u8At]
  · rw [slice_append_right (by simp), slice_append_right (by simp), slice_append_right (by simp)]
    simp [slice]

theorem bytes_crc : crc32 (slice c.bytes 0 20) = u32At c.bytes 20 := by
  simp only [bytes, encodeReplayEntry, List.append_assoc]
  rw [slice_init (by simp), u32At_append_right (by simp), replayEntryBody_length, Nat.sub_self,
    u32At_le32]

theorem bytes_commit :
    c.bytes.drop REPLAY_ENTRY_COMMIT_OFFSET =
      if c.committed then REPLAY_ENTRY_COMMIT else [0xFF, 0xFF, 0xFF, 0xFF] := by
  unfold bytes REPLAY_ENTRY_COMMIT_OFFSET
  exact List.drop_left' (by simp)

theorem isErased_bytes : isErased c.bytes = false := by
  simp [isErased, bytes, encodeReplayEntry, replayEntryBody]

/-- **An entry reads back exactly when it is committed and storable.** -/
theorem decodeReplayEntry_bytes :
    decodeReplayEntry c.bytes = if c.good then some c.replay else none := by
  obtain ⟨hsource, hcounter, hfp, hkind, hselector, hzero⟩ := c.bytes_fields
  unfold decodeReplayEntry
  rw [bytes_commit, bytes_length, bytes_crc, hzero, hsource, hcounter, hfp, hkind, hselector]
  cases hc : c.committed with
  | false => simp [good, hc, REPLAY_ENTRY_COMMIT]
  | true =>
    simp only [REPLAY_ENTRY_LEN, ne_eq, not_true_eq_false, if_true, or_self, if_false, good, hc,
      Bool.true_and]
    by_cases hs : (replayEntryFields c.replay).1 = zeroAddress ∨
        (replayEntryFields c.replay).1 = onesAddress
    · rw [if_pos hs, if_neg]
      unfold storable
      rcases hs with hs | hs <;> simp [hs]
    · rw [if_neg hs]
      push Not at hs
      have hreal : storable c.replay = match c.replay with
          | .nwk _ => true
          | .aps r =>
            match r.origin with
            | .keyPair _ .trustCenterLinkKey | .keyPair _ .applicationLinkKey => true
            | .keyPair _ _ => false
            | .preconfiguredGlobal _ | .distributedGlobal _ => true := by
        unfold storable
        simp [hs.1, hs.2]
      rw [hreal]
      match c.replay with
      | .nwk r => rfl
      | .aps ⟨.keyPair p k, fp, n⟩ => cases k <;> rfl
      | .aps ⟨.preconfiguredGlobal src, fp, n⟩ => rfl
      | .aps ⟨.distributedGlobal src, fp, n⟩ => rfl

end Cell

end Zigbee.Runtime.SecurityJournal
