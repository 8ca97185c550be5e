import Zigbee.Lib.Records
import Zigbee.Zcl.PollControl
import Zigbee.Zcl.ReportingRecord

/-!
# Snapshots of the reporting engine

Model of `PersistentReporting` of `zigbee-runtime/src/reporting_store.rs` over the reporting engine: the
snapshot that the journal stores is taken from an engine, and applied to another one.

* `visitRecords`, `forEachRecord`, `fromParts` — the entries of a snapshot, and the check that it is built with.
* `capture`, `withPollControl`, `pollControl`, `apply` — the operations.
* `captureRecords_representable`, `captureRecords_unrepresentable` — records come back as they were written, and a
  configuration that is no record comes back as another one.
-/

namespace Zigbee.Runtime.ReportingSnapshot

open Bytes
open Zcl.Reporting (ReportingEngine ReportingConfig ReportState ReportDirection)
open Zcl.PollControl (PollControlState)
open Zcl.Reporting

/-- Build features of `zigbee-zcl`. -/
structure ZclFeatures where
  compactSingleEndpoint : Bool
  constrainedMemory : Bool
  float32 : Bool
  float64 : Bool
  deriving DecidableEq

def MAX_REPORT_CONFIGS (f : ZclFeatures) : Nat :=
  if f.compactSingleEndpoint then 4 else if f.constrainedMemory then 8 else 16

def MAX_ENCODED_REPORTING_RECORD_LEN : Nat := 3 + 8 + 8
def POLL_CONTROL_TAG : UInt8 := 0x20
def POLL_CONTROL_SECTION_LEN : Nat := 1 + 12
def MAX_ENCODED_REPORTING_LEN (f : ZclFeatures) : Nat :=
  1 + MAX_REPORT_CONFIGS f * MAX_ENCODED_REPORTING_RECORD_LEN + POLL_CONTROL_SECTION_LEN

inductive ReportingStoreError where
  | hardware
  | corrupt
  | generationExhausted
  deriving DecidableEq, Repr

/-- The floating-point types of the build, as the data types know them. -/
def floatSupport (f : ZclFeatures) : Zcl.FloatSupport := ⟨f.float32, f.float64⟩

abbrev Engine (f : ZclFeatures) := ReportingEngine (MAX_REPORT_CONFIGS f)

/-- What a snapshot keeps of a state. -/
structure Entry where
  endpoint : UInt8
  clusterId : UInt16
  config : ReportingConfig
  deriving DecidableEq

/-- What a configuration is about. -/
structure EntryKey where
  endpoint : UInt8
  clusterId : UInt16
  attributeId : Zcl.AttributeId
  direction : ReportDirection
  deriving DecidableEq

def Entry.key (e : Entry) : EntryKey := ⟨e.endpoint, e.clusterId, e.config.attributeId, e.config.direction⟩

/-- The state that a call of `configure_for_cluster` makes. -/
def Entry.fresh (e : Entry) : ReportState := ⟨e.endpoint, e.clusterId, e.config, 0, none, false⟩

def entryOf (state : ReportState) : Entry := ⟨state.endpoint, state.clusterId, state.config⟩

variable {f : ZclFeatures}

/-- `ReportingEngine::configs` -/
def entries (engine : Engine f) : List Entry := engine.states.map entryOf

/-! ## Snapshots -/

/-- `PersistentReporting`; a payload has at least its record count. -/
structure PersistentReporting (f : ZclFeatures) where
  extendedPanId : IeeeAddress
  payload : Buf
  nonempty : payload ≠ []
  fits : payload.length ≤ MAX_ENCODED_REPORTING_LEN f
  deriving DecidableEq

/-- One record of a payload. -/
def readEntry (f : ZclFeatures) (visited : List Entry) (rest : Buf) : Except ReportingStoreError (List Entry × Buf) :=
  if rest.length < 3 then .error .corrupt
  else
    match parseRecord (floatSupport f) (rest.drop 3) with
    | none => .error .corrupt
    | some (config, consumed) => .ok (visited ++ [⟨u8At rest 0, u16At rest 1, config⟩], rest.drop (3 + consumed))

/-- The entries that `for_each_record` visits, and where the records end. -/
def visitRecords (s : PersistentReporting f) : Except ReportingStoreError (List Entry × Nat) :=
  let count := (u8At s.payload 0).toNat
  if MAX_REPORT_CONFIGS f < count ∨ s.extendedPanId = Vector.replicate 8 0 then .error .corrupt
  else do
    let (visited, rest) ← Records.readMany (readEntry f) count [] (s.payload.drop 1)
    if rest ≠ [] ∧ (rest.length ≠ POLL_CONTROL_SECTION_LEN ∨ u8At rest 0 ≠ POLL_CONTROL_TAG) then .error .corrupt
    else .ok (visited, s.payload.length - rest.length)

/-- `for_each_record`: where the records end. -/
def PersistentReporting.forEachRecord (s : PersistentReporting f) : Except ReportingStoreError Nat := (visitRecords s).map (·.2)

def PersistentReporting.fromParts (f : ZclFeatures) (extendedPanId : IeeeAddress) (payload : Buf) :
    Except ReportingStoreError (PersistentReporting f) :=
  if h : payload = [] ∨ MAX_ENCODED_REPORTING_LEN f < payload.length then .error .corrupt
  else do
    let snapshot : PersistentReporting f :=
      ⟨extendedPanId, payload, fun he => h (Or.inl he), Nat.not_lt.mp fun hl => h (Or.inr hl)⟩
    let _ ← snapshot.forEachRecord
    .ok snapshot

/-- The records of the states, written from `pos` on. -/
def captureRecords (f : ZclFeatures) : List ReportState → Nat → Except ReportingStoreError Buf
  | [], _ => .ok []
  | state :: states, pos =>
    if MAX_ENCODED_REPORTING_LEN f < pos + MAX_ENCODED_REPORTING_RECORD_LEN then .error .corrupt
    else
      match state.config.encodeRecord (MAX_ENCODED_REPORTING_RECORD_LEN - 3) with
      | none => .error .corrupt
      | some bytes => do
        let rest ← captureRecords f states (pos + 3 + bytes.length)
        .ok ((state.endpoint :: le16 state.clusterId ++ bytes) ++ rest)

theorem captureRecords_length {states : List ReportState} {pos : Nat} {records : Buf} (h : captureRecords f states pos = .ok records)
    (hpos : pos ≤ MAX_ENCODED_REPORTING_LEN f) : pos + records.length ≤ MAX_ENCODED_REPORTING_LEN f := by
  induction states generalizing pos records with
  | nil =>
    cases h
    exact hpos
  | cons state states ih =>
    rw [captureRecords] at h
    split at h
    · cases h
    · rename_i hroom
      split at h
      · cases h
      · rename_i bytes hbytes
        have hlen := (encodeRecord_eq_some.mp hbytes).2
        simp only [MAX_ENCODED_REPORTING_RECORD_LEN] at hroom hlen
        cases hrest : captureRecords f states (pos + 3 + bytes.length) with
        | error e =>
          rw [hrest] at h
          cases h
        | ok rest =>
          rw [hrest] at h
          cases h
          have := ih hrest (by omega)
          simp only [List.length_append, List.length_cons, le16_length]
          omega

/-- Snapshot of every configuration of the engine. -/
def capture (engine : Engine f) (extendedPanId : IeeeAddress) : Except ReportingStoreError (PersistentReporting f) :=
  match h : captureRecords f engine.states 1 with
  | .error e => .error e
  | .ok records =>
    .ok {
      extendedPanId
      payload := UInt8.ofNat engine.states.length :: records
      nonempty := List.cons_ne_nil _ _
      fits := by
        have := captureRecords_length h (by unfold MAX_ENCODED_REPORTING_LEN; omega)
        rw [List.length_cons]
        omega }

/-- Offset of a trailing Poll Control section. -/
def pollControlOffset (s : PersistentReporting f) : Option Nat :=
  match s.forEachRecord with
  | .error _ => none
  | .ok recordsEnd => if recordsEnd ≠ s.payload.length then some recordsEnd else none

def encodePollControl (state : PollControlState) : Buf :=
  le32 state.checkInInterval ++ le32 state.longPollInterval ++ le16 state.shortPollInterval ++ le16 state.fastPollTimeout

def decodePollControl (bytes : Buf) : Option PollControlState :=
  if bytes.length = 12 then some ⟨u32At bytes 0, u32At bytes 4, u16At bytes 8, u16At bytes 10⟩ else none

/-- Append the client-changeable Poll Control values. -/
def withPollControl (s : PersistentReporting f) (state : PollControlState) : Except ReportingStoreError (PersistentReporting f) :=
  if (pollControlOffset s).isSome then .error .corrupt
  else if h : MAX_ENCODED_REPORTING_LEN f < s.payload.length + POLL_CONTROL_SECTION_LEN then .error .corrupt
  else
    .ok {
      extendedPanId := s.extendedPanId
      payload := s.payload ++ POLL_CONTROL_TAG :: encodePollControl state
      nonempty := fun hnil => s.nonempty (List.append_eq_nil_iff.mp hnil).1
      fits := by
        simp only [List.length_append, List.length_cons, encodePollControl, le32_length, le16_length, POLL_CONTROL_SECTION_LEN] at h ⊢
        omega }

/-- Stored Poll Control values. -/
def pollControl (s : PersistentReporting f) : Option PollControlState := do
  let offset ← pollControlOffset s
  decodePollControl (s.payload.drop (offset + 1))

/-- The loop of `apply`; after a refused entry the others are skipped. -/
def applyEntries : List Entry → Engine f → Nat → Engine f × Except ReportingStoreError Nat
  | [], engine, applied => (engine, .ok applied)
  | e :: es, engine, applied =>
    match engine.configureForCluster e.endpoint e.clusterId e.config with
    | .ok engine => applyEntries es engine (applied + 1)
    | .error _ => (engine, .error .corrupt)

/-- Apply every stored configuration to `engine`. -/
def apply (s : PersistentReporting f) (engine : Engine f) : Engine f × Except ReportingStoreError Nat :=
  match visitRecords s with
  | .error e => (engine, .error e)
  | .ok (visited, _) => applyEntries visited engine 0

/-! ## Snapshots that are built -/

open PersistentReporting

theorem fromParts_of_visit {s : PersistentReporting f} {visited : List Entry} {recordsEnd : Nat}
    (h : visitRecords s = .ok (visited, recordsEnd)) :
    fromParts f s.extendedPanId s.payload = .ok s := by
  have hparts : ¬ (s.payload = [] ∨ MAX_ENCODED_REPORTING_LEN f < s.payload.length) := by
    rintro (hnil | hlong)
    · exact s.nonempty hnil
    · exact absurd s.fits (Nat.not_le.mpr hlong)
  rw [fromParts, dif_neg hparts]
  change (s.forEachRecord >>= fun _ => Except.ok s) = _
  rw [forEachRecord, h]
  rfl

/-- A snapshot that is built is visited without an error. -/
theorem visit_of_fromParts {s s' : PersistentReporting f} (h : fromParts f s.extendedPanId s.payload = .ok s') :
    s' = s ∧ ∃ visited recordsEnd, visitRecords s = .ok (visited, recordsEnd) := by
  have hparts : ¬ (s.payload = [] ∨ MAX_ENCODED_REPORTING_LEN f < s.payload.length) := by
    rintro (hnil | hlong)
    · exact s.nonempty hnil
    · exact absurd s.fits (Nat.not_le.mpr hlong)
  rw [fromParts, dif_neg hparts] at h
  change (s.forEachRecord >>= fun _ => Except.ok s) = _ at h
  rw [forEachRecord] at h
  cases hvisit : visitRecords s with
  | error e =>
    rw [hvisit] at h
    cases h
  | ok r =>
    rw [hvisit] at h
    cases h
    exact ⟨rfl, r.1, r.2, rfl⟩

/-! ## Reading a captured snapshot -/

/-- A record is read from its bytes. -/
theorem readEntry_record (endpoint : UInt8) (clusterId : UInt16) (bytes : Buf) (visited : List Entry) :
    readEntry f visited ((endpoint :: le16 clusterId) ++ bytes) =
      match parseRecord (floatSupport f) bytes with
      | none => .error .corrupt
      | some (config, consumed) => .ok (visited ++ [⟨endpoint, clusterId, config⟩], bytes.drop consumed) := by
  have hdrop : ((endpoint :: le16 clusterId) ++ bytes).drop 3 = bytes := rfl
  have hcluster : u16At ((endpoint :: le16 clusterId) ++ bytes) 1 = clusterId := by
    rw [List.cons_append, ← List.singleton_append, u16At_append_right (by simp)]
    exact u16At_le16 _ _
  rw [readEntry, if_neg (by simp), hdrop, hcluster]
  cases parseRecord (floatSupport f) bytes with
  | none => rfl
  | some r =>
    dsimp only
    rw [← List.drop_drop, hdrop]
    rfl

/-- **What is read is representable.** -/
theorem readMany_representable {count : Nat} {visited visited' : List Entry} {l rest : Buf}
    (h : Records.readMany (readEntry f) count visited l = .ok (visited', rest)) :
    ∃ new, visited' = visited ++ new ∧ ∀ e ∈ new, e.config.Representable (floatSupport f) := by
  induction count generalizing visited l with
  | zero =>
    cases h
    exact ⟨[], (List.append_nil _).symm, fun _ he => absurd he List.not_mem_nil⟩
  | succ count ih =>
    rw [Records.readMany, readEntry] at h
    split at h
    · cases h
    · rename_i hread
      split at hread
      · cases hread
      · split at hread
        · cases hread
        · rename_i config consumed hparsed
          cases hread
          obtain ⟨new, rfl, hnew⟩ := ih h
          refine ⟨⟨u8At l 0, u16At l 1, config⟩ :: new, by rw [List.append_assoc, List.singleton_append], fun e he => ?_⟩
          rcases List.mem_cons.mp he with rfl | he
          · exact (parseRecord_eq_some hparsed).1
          · exact hnew e he

/-- States whose configurations are records are written, and read back. -/
theorem captureRecords_representable {states : List ReportState} {pos : Nat}
    (hstates : ∀ state ∈ states, state.config.Representable (floatSupport f))
    (hroom : pos + states.length * MAX_ENCODED_REPORTING_RECORD_LEN ≤ MAX_ENCODED_REPORTING_LEN f) :
    ∃ records, captureRecords f states pos = .ok records ∧
      records.length ≤ states.length * MAX_ENCODED_REPORTING_RECORD_LEN ∧
      ∀ visited rest, Records.readMany (readEntry f) states.length visited (records ++ rest) =
        .ok (visited ++ states.map entryOf, rest) := by
  induction states generalizing pos with
  | nil => exact ⟨[], rfl, Nat.zero_le _, fun visited rest => by simp [Records.readMany]⟩
  | cons state states ih =>
    have hsize : MAX_ENCODED_REPORTING_RECORD_LEN = 19 := rfl
    rw [List.length_cons, Nat.succ_mul] at hroom
    obtain ⟨bytes, hrecord, hlen, hparse⟩ := parseRecord_record (hstates state List.mem_cons_self)
    have hbytes := encodeRecord_eq_some.mpr ⟨hrecord, hlen⟩
    have hrest : pos + 3 + bytes.length + states.length * MAX_ENCODED_REPORTING_RECORD_LEN ≤ MAX_ENCODED_REPORTING_LEN f := by omega
    obtain ⟨records, hrecords, hlength, hread⟩ := ih (fun s hs => hstates s (List.mem_cons_of_mem _ hs)) hrest
    have hcapture : captureRecords f (state :: states) pos = .ok ((state.endpoint :: le16 state.clusterId ++ bytes) ++ records) := by
      rw [captureRecords, if_neg (by omega)]
      change (match state.config.encodeRecord 16 with | none => _ | some bytes => _) = _
      rw [hbytes]
      dsimp only
      rw [hrecords]
      rfl
    refine ⟨_, hcapture, ?_, fun visited rest => ?_⟩
    · simp only [List.length_append, List.length_cons, le16_length, Nat.succ_mul]
      omega
    · have hassoc : (state.endpoint :: le16 state.clusterId ++ bytes) ++ records ++ rest =
          (state.endpoint :: le16 state.clusterId) ++ (bytes ++ (records ++ rest)) := by
        simp only [List.append_assoc]
      rw [hassoc, List.length_cons, Records.readMany, readEntry_record, hparse]
      dsimp only
      rw [List.drop_left, hread, List.append_assoc]
      rfl

/-- **A configuration that is no record comes back as another one**, under its own key. -/
theorem captureRecords_unrepresentable {states : List ReportState} {pos : Nat} {records rest rest' : Buf} {visited visited' : List Entry}
    (h : captureRecords f states pos = .ok records)
    (hread : Records.readMany (readEntry f) states.length visited (records ++ rest) = .ok (visited', rest'))
    (hstate : ∃ state ∈ states, ¬ state.config.Representable (floatSupport f)) :
    ∃ state ∈ states, ¬ state.config.Representable (floatSupport f) ∧
      ∃ e ∈ visited', e.config.Representable (floatSupport f) ∧ e.key = (entryOf state).key := by
  induction states generalizing pos records visited with
  | nil =>
    obtain ⟨state, hmem, -⟩ := hstate
    cases hmem
  | cons state states ih =>
    rw [captureRecords] at h
    split at h
    · cases h
    split at h
    · cases h
    rename_i bytes hbytes
    cases hrest : captureRecords f states (pos + 3 + bytes.length) with
    | error e =>
      rw [hrest] at h
      cases h
    | ok records' =>
      rw [hrest] at h
      cases h
      have hassoc : (state.endpoint :: le16 state.clusterId ++ bytes) ++ records' ++ rest =
          (state.endpoint :: le16 state.clusterId) ++ (bytes ++ (records' ++ rest)) := by
        simp only [List.append_assoc]
      rw [hassoc, List.length_cons, Records.readMany, readEntry_record] at hread
      cases hparsed : parseRecord (floatSupport f) (bytes ++ (records' ++ rest)) with
      | none =>
        rw [hparsed] at hread
        cases hread
      | some r =>
        obtain ⟨config, consumed⟩ := r
        rw [hparsed] at hread
        dsimp only at hread
        by_cases hrep : state.config.Representable (floatSupport f)
        · obtain ⟨bytes', hrecord, -, hparse⟩ := parseRecord_record hrep
          obtain rfl : bytes' = bytes := Option.some.inj (hrecord.symm.trans (encodeRecord_eq_some.mp hbytes).1)
          rw [hparse] at hparsed
          cases hparsed
          rw [List.drop_left] at hread
          obtain ⟨bad, hbad, hbadrep⟩ := hstate
          have hlater : bad ∈ states := (List.mem_cons.mp hbad).resolve_left fun heq => hbadrep (by rw [heq]; exact hrep)
          obtain ⟨state', hstate', hunrep, hvisited⟩ := ih hrest hread ⟨bad, hlater, hbadrep⟩
          exact ⟨state', List.mem_cons_of_mem _ hstate', hunrep, hvisited⟩
        · obtain ⟨new, rfl, -⟩ := readMany_representable hread
          obtain ⟨hdirection, hattr⟩ := parseRecord_head hbytes hparsed
          refine ⟨state, List.mem_cons_self, hrep, ⟨state.endpoint, state.clusterId, config⟩, ?_,
            (parseRecord_eq_some hparsed).1, ?_⟩
          · exact List.mem_append_left _ (List.mem_append_right _ List.mem_cons_self)
          · rw [Entry.key, hdirection, hattr]
            rfl

end Zigbee.Runtime.ReportingSnapshot
