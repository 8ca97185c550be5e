import Zigbee.Zcl.PollControl

/-!
# Write Attributes

Model of `zigbee-zcl/src/foundation/write_attributes.rs`: the records of a request, those that fail
while they are parsed, and the statuses of a response, in the order of the request.

* `parseChecked`, `mergeInRequestOrder` — the parser, and the merge of its failures with the statuses.
* `AttributeStoreMutAccess` — what a store offers; `processWriteDyn`, `processWriteUndividedDyn`.
* `Reads`, `weave` — the records of a payload, and one status for each of them.
* `Agrees` — what undivided writes need from a store, and the two stores that have it.
* `write_attributes_answered` — every record is answered in order, and undivided writes are atomic.
-/

namespace Zigbee.Zcl

open Bytes

/-- Maximum number of attributes in a single request or response. -/
def MAX_WRITE_ATTRS : Nat := 16

structure WriteAttributeRecord where
  id : AttributeId
  dataType : ZclDataType
  value : ZclValue
  deriving DecidableEq

structure WriteAttributeStatusRecord where
  status : ZclStatus
  id : AttributeId
  deriving DecidableEq

/-- A failure found while parsing, with the position of the record in the request. -/
structure WriteAttributeParseFailure where
  ordinal : UInt8
  record : WriteAttributeStatusRecord
  deriving DecidableEq

structure WriteAttributesParseOutcome where
  request : List WriteAttributeRecord
  invalidDataTypes : List WriteAttributeParseFailure
  deriving DecidableEq

inductive WriteAttributesParseError where
  | malformed
  deriving DecidableEq, Repr

/-! ## The parser -/

/-- The length of a value that cannot be stored, and the status of its record. -/
def undecoded (dt : ZclDataType) (rest : Buf) : Option (Nat × ZclStatus) :=
  if dt = .octetString ∨ dt = .charString then
    -- 0xFF denotes an invalid string with no payload
    rest.head?.map fun n => (1 + if n = 0xFF then 0 else n.toNat, .invalidValue)
  else dt.size.map fun n => (n, .invalidDataType)

/-- The loop from `i` on, with room for `left` more records. -/
def parseLoop (floats : FloatSupport) (data : Buf) : Nat → Nat → List WriteAttributeRecord → List WriteAttributeParseFailure →
    Except WriteAttributesParseError WriteAttributesParseOutcome
  | left, i, records, invalidDataTypes =>
    if ¬ i < data.length then .ok ⟨records, invalidDataTypes⟩
    else if data.length - i < 3 then .error .malformed
    else
      match left with
      | 0 => .error .malformed
      | left + 1 =>
        match ZclDataType.fromU8 (u8At data (i + 2)) with
        | none => .error .malformed
        | some dt =>
          match ZclValue.deserialize floats dt (data.drop (i + 3)) with
          | some (value, consumed) =>
            if records.length < MAX_WRITE_ATTRS then
              parseLoop floats data left (i + 3 + consumed) (records ++ [⟨u16At data i, dt, value⟩]) invalidDataTypes
            else .error .malformed
          | none =>
            match undecoded dt (data.drop (i + 3)) with
            | none => .error .malformed
            | some (skip, status) =>
              if i + 3 + skip > data.length then .error .malformed
              else if invalidDataTypes.length < MAX_WRITE_ATTRS then
                parseLoop floats data left (i + 3 + skip) records
                  (invalidDataTypes ++ [⟨UInt8.ofNat (MAX_WRITE_ATTRS - 1 - left), ⟨status, u16At data i⟩⟩])
              else .error .malformed

def parseChecked (floats : FloatSupport) (data : Buf) : Except WriteAttributesParseError WriteAttributesParseOutcome :=
  if data.isEmpty then .error .malformed else parseLoop floats data MAX_WRITE_ATTRS 0 [] []

/-! ## The merge -/

/-- The record at position `n` of a response, with what is left: the failure with this position, or else
    the next status, or else a failure. -/
def mergeNext (fails : List WriteAttributeParseFailure) (applied : List WriteAttributeStatusRecord) (n : Nat) :
    Option (WriteAttributeStatusRecord × List WriteAttributeParseFailure × List WriteAttributeStatusRecord) :=
  match fails, applied with
  | [], [] => none
  | [], status :: applied => some (status, [], applied)
  | f :: fails, [] => some (f.record, fails, [])
  | f :: fails, status :: applied =>
    if f.ordinal.toNat = n then some (f.record, fails, status :: applied) else some (status, f :: fails, applied)

/-- The loop, with room for `left` more records. -/
def mergeLoop : Nat → List WriteAttributeParseFailure → List WriteAttributeStatusRecord → List WriteAttributeStatusRecord →
    List WriteAttributeStatusRecord
  | 0, _, _, records => records
  | left + 1, fails, applied, records =>
    match mergeNext fails applied records.length with
    | none => records
    | some (record, fails, applied) => mergeLoop left fails applied (records ++ [record])

def WriteAttributesParseOutcome.mergeInRequestOrder (outcome : WriteAttributesParseOutcome)
    (applied : List WriteAttributeStatusRecord) : List WriteAttributeStatusRecord :=
  mergeLoop MAX_WRITE_ATTRS outcome.invalidDataTypes applied []

/-! ## Stores -/

/-- Write access to attributes. -/
structure AttributeStoreMutAccess (σ : Type) where
  set : σ → AttributeId → ZclValue → σ × Except ZclStatus Unit
  validateSet : σ → AttributeId → ZclValue → Except ZclStatus Unit

/-- The plain store. -/
def plainAccess (N : Nat) : AttributeStoreMutAccess (AttributeStore N) where
  set store id value :=
    match store.set id value with
    | .error e => (store, .error e)
    | .ok store' => (store', .ok ())
  validateSet store id value := store.validateSet id value

def pollControlAccess : AttributeStoreMutAccess PollControl.PollControlCluster where
  set c id value := c.set id value
  validateSet c id value := c.validateSet id value

def statusOf : Except ZclStatus Unit → ZclStatus
  | .ok _ => .success
  | .error e => e

section
variable {σ : Type} (S : AttributeStoreMutAccess σ)

/-- The response has room for the status of every record of a request. -/
def processWriteDyn : σ → List WriteAttributeRecord → σ × List WriteAttributeStatusRecord
  | s, [] => (s, [])
  | s, record :: rest =>
    let (s', result) := S.set s record.id record.value
    let (s'', records) := processWriteDyn s' rest
    (s'', ⟨statusOf result, record.id⟩ :: records)

def validateWriteUndividedDyn (s : σ) (request : List WriteAttributeRecord) : List WriteAttributeStatusRecord :=
  request.map fun record => ⟨statusOf (S.validateSet s record.id record.value), record.id⟩

/-- All or nothing: if any write would fail, none is applied. -/
def processWriteUndividedDyn (s : σ) (request : List WriteAttributeRecord) : σ × List WriteAttributeStatusRecord :=
  let validation := validateWriteUndividedDyn S s request
  if validation.any (·.status != .success) then (s, validation) else processWriteDyn S s request

end

/-! ## The records of a payload -/

/-- A record of a request, with a value that can be stored or with the status of its failure. -/
inductive WriteEntry where
  | decoded (record : WriteAttributeRecord)
  | failed (record : WriteAttributeStatusRecord)
  deriving DecidableEq

namespace WriteEntry

def id : WriteEntry → AttributeId
  | decoded record => record.id
  | failed record => record.id

/-- The value of the record, after its header, takes `n` bytes. -/
def ValueAt (floats : FloatSupport) (dt : ZclDataType) (data : Buf) (n : Nat) : WriteEntry → Prop
  | decoded record => record.dataType = dt ∧ ZclValue.deserialize floats dt data = some (record.value, n)
  | failed record => ZclValue.deserialize floats dt data = none ∧ undecoded dt data = some (n, record.status) ∧ n ≤ data.length

end WriteEntry

/-- `data` is exactly a sequence of records. -/
inductive Reads (floats : FloatSupport) : List WriteEntry → Buf → Prop where
  | done : Reads floats [] []
  | record {e : WriteEntry} {entries : List WriteEntry} {data : Buf} {dt : ZclDataType} {n : Nat}
      (header : 3 ≤ data.length) (id : e.id = u16At data 0) (dataType : ZclDataType.fromU8 (u8At data 2) = some dt)
      (value : e.ValueAt floats dt (data.drop 3) n) (rest : Reads floats entries (data.drop (3 + n))) :
      Reads floats (e :: entries) data

/-- The records that can be stored. -/
def decodedOf : List WriteEntry → List WriteAttributeRecord
  | [] => []
  | .decoded record :: entries => record :: decodedOf entries
  | .failed _ :: entries => decodedOf entries

/-- The failures among records that start at position `k`. -/
def failuresFrom : Nat → List WriteEntry → List WriteAttributeParseFailure
  | _, [] => []
  | k, .decoded _ :: entries => failuresFrom (k + 1) entries
  | k, .failed record :: entries => ⟨UInt8.ofNat k, record⟩ :: failuresFrom (k + 1) entries

/-- One status a record, in order: that of its failure, or the next of those that were applied. -/
def weave : List WriteEntry → List WriteAttributeStatusRecord → List WriteAttributeStatusRecord
  | [], _ => []
  | .failed record :: entries, applied => record :: weave entries applied
  | .decoded _ :: entries, [] => weave entries []
  | .decoded _ :: entries, status :: applied => status :: weave entries applied

variable {floats : FloatSupport} {entries : List WriteEntry} {applied : List WriteAttributeStatusRecord}

theorem Reads.eq_nil {data : Buf} (h : Reads floats [] data) : data = [] := by
  cases h
  rfl

/-- **What the parser accepts is a sequence of records** that ends where the payload ends. -/
theorem parseLoop_reads {data : Buf} : ∀ {left i : Nat} {records : List WriteAttributeRecord}
    {failures : List WriteAttributeParseFailure} {outcome : WriteAttributesParseOutcome}, i ≤ data.length → left ≤ MAX_WRITE_ATTRS →
    parseLoop floats data left i records failures = .ok outcome →
    ∃ entries, Reads floats entries (data.drop i) ∧ entries.length ≤ left ∧
      outcome = ⟨records ++ decodedOf entries, failures ++ failuresFrom (MAX_WRITE_ATTRS - left) entries⟩ := by
  intro left
  induction left with
  | zero =>
    intro i records failures outcome hi _ h
    rw [parseLoop] at h
    split at h
    · cases h
      rw [List.drop_eq_nil_of_le (by omega)]
      exact ⟨[], .done, le_rfl, by simp [decodedOf, failuresFrom]⟩
    · split at h <;> cases h
  | succ left ih =>
    intro i records failures outcome hi hleft h
    rw [parseLoop] at h
    split at h
    · cases h
      rw [List.drop_eq_nil_of_le (by omega)]
      exact ⟨[], .done, by simp, by simp [decodedOf, failuresFrom]⟩
    · split at h
      · cases h
      · rename_i hheader
        have hid : u16At (data.drop i) 0 = u16At data i := by simp [u16At, u8At]
        have htag : u8At (data.drop i) 2 = u8At data (i + 2) := by simp [u8At]
        have hdrop : (data.drop i).drop 3 = data.drop (i + 3) := by rw [List.drop_drop]
        have hnext : MAX_WRITE_ATTRS - left = MAX_WRITE_ATTRS - (left + 1) + 1 := by omega
        split at h
        · cases h
        · rename_i dt hdt
          split at h
          · -- the value can be stored
            rename_i value consumed hvalue
            split at h
            · have hle := (ZclValue.deserialize_eq_some hvalue).2.2.1
              rw [List.length_drop] at hle
              obtain ⟨entries, hreads, hlen, rfl⟩ := ih (by omega) (by omega) h
              refine ⟨.decoded ⟨u16At data i, dt, value⟩ :: entries, ?_, by simpa using hlen, ?_⟩
              · refine .record (by rw [List.length_drop]; omega) hid.symm (htag ▸ hdt) ⟨rfl, by rw [hdrop, hvalue]⟩ ?_
                rwa [List.drop_drop, ← Nat.add_assoc]
              · simp [decodedOf, failuresFrom, hnext]
            · cases h
          · -- it cannot: its record fails, and the others go on
            rename_i hvalue
            split at h
            · cases h
            · rename_i skip status hskip
              split at h
              · cases h
              · split at h
                · obtain ⟨entries, hreads, hlen, rfl⟩ := ih (by omega) (by omega) h
                  refine ⟨.failed ⟨status, u16At data i⟩ :: entries, ?_, by simpa using hlen, ?_⟩
                  · refine .record (by rw [List.length_drop]; omega) hid.symm (htag ▸ hdt)
                      ⟨by rw [hdrop, hvalue], by rw [hdrop, hskip], by rw [hdrop, List.length_drop]; omega⟩ ?_
                    rwa [List.drop_drop, ← Nat.add_assoc]
                  · have hpos : MAX_WRITE_ATTRS - 1 - left = MAX_WRITE_ATTRS - (left + 1) := by omega
                    simp [decodedOf, failuresFrom, hnext, hpos]
                · cases h

theorem parseChecked_reads {data : Buf} {outcome : WriteAttributesParseOutcome} (h : parseChecked floats data = .ok outcome) :
    ∃ entries, entries ≠ [] ∧ Reads floats entries data ∧ entries.length ≤ MAX_WRITE_ATTRS ∧
      outcome = ⟨decodedOf entries, failuresFrom 0 entries⟩ := by
  unfold parseChecked at h
  split at h
  · cases h
  · rename_i hdata
    obtain ⟨entries, hreads, hlen, rfl⟩ := parseLoop_reads (Nat.zero_le _) le_rfl h
    refine ⟨entries, ?_, by simpa using hreads, hlen, by simp⟩
    rintro rfl
    rw [List.drop_zero] at hreads
    exact hdata (List.isEmpty_iff.mpr hreads.eq_nil)

/-! ## The merge follows the records -/

theorem failuresFrom_ordinal {f : WriteAttributeParseFailure} : ∀ {k : Nat} {entries : List WriteEntry},
    k + entries.length ≤ 256 → f ∈ failuresFrom k entries → k ≤ f.ordinal.toNat
  | _, [], _, hf => by cases hf
  | k, .decoded _ :: entries, hk, hf => by
    rw [List.length_cons] at hk
    have := failuresFrom_ordinal (k := k + 1) (by omega) hf
    omega
  | k, .failed record :: entries, hk, hf => by
    rw [List.length_cons] at hk
    rcases List.mem_cons.mp hf with rfl | hf
    · have hlt : k % 2 ^ 8 = k := Nat.mod_eq_of_lt (by omega)
      rw [UInt8.toNat_ofNat', hlt]
    · have := failuresFrom_ordinal (k := k + 1) (by omega) hf
      omega

theorem mergeNext_applied {fails : List WriteAttributeParseFailure} {status : WriteAttributeStatusRecord} {n : Nat}
    (h : ∀ f ∈ fails, n < f.ordinal.toNat) : mergeNext fails (status :: applied) n = some (status, fails, applied) := by
  cases fails with
  | nil => rfl
  | cons f fails =>
    have hf := h f List.mem_cons_self
    rw [mergeNext, if_neg (by omega)]

theorem mergeNext_failed {f : WriteAttributeParseFailure} {fails : List WriteAttributeParseFailure} {n : Nat}
    (h : f.ordinal.toNat = n) : mergeNext (f :: fails) applied n = some (f.record, fails, applied) := by
  cases applied with
  | nil => rfl
  | cons status applied => rw [mergeNext, if_pos h]

/-- The merge is the weave, from any position on. -/
theorem mergeLoop_eq : ∀ (entries : List WriteEntry) {k left : Nat} {applied : List WriteAttributeStatusRecord}
    (records : List WriteAttributeStatusRecord),
    applied.length = (decodedOf entries).length → entries.length ≤ left → k + left ≤ 256 → records.length = k →
    mergeLoop left (failuresFrom k entries) applied records = records ++ weave entries applied
  | [], k, left, applied, records, happlied, _, _, _ => by
    obtain rfl : applied = [] := List.length_eq_zero_iff.mp happlied
    cases left <;> simp [mergeLoop, mergeNext, failuresFrom, weave]
  | e :: entries, k, 0, _, _, _, hlen, _, _ => by simp at hlen
  | .failed record :: entries, k, left + 1, applied, records, happlied, hlen, hk, hrecords => by
    have hpos : (UInt8.ofNat k).toNat = k := by
      rw [UInt8.toNat_ofNat']
      exact Nat.mod_eq_of_lt (by omega)
    have ih := mergeLoop_eq entries (k := k + 1) (records ++ [record])
      happlied (by simpa using hlen) (by omega) (by simp [hrecords])
    rw [failuresFrom, mergeLoop, mergeNext_failed (by rw [hpos, hrecords])]
    simp only [ih, weave, List.append_assoc, List.singleton_append]
  | .decoded record :: entries, k, left + 1, [], records, happlied, _, _, _ => by simp [decodedOf] at happlied
  | .decoded record :: entries, k, left + 1, status :: applied, records, happlied, hlen, hk, hrecords => by
    have hlater : ∀ f ∈ failuresFrom (k + 1) entries, records.length < f.ordinal.toNat := by
      intro f hf
      rw [List.length_cons] at hlen
      have := failuresFrom_ordinal (k := k + 1) (by omega) hf
      omega
    have ih := mergeLoop_eq entries (k := k + 1) (records ++ [status])
      (by simpa [decodedOf] using happlied) (by simpa using hlen) (by omega) (by simp [hrecords])
    rw [failuresFrom, mergeLoop, mergeNext_applied hlater]
    simp only [ih, weave, List.append_assoc, List.singleton_append]

theorem weave_ids : ∀ {entries : List WriteEntry} {applied : List WriteAttributeStatusRecord},
    applied.map (·.id) = (decodedOf entries).map (·.id) → (weave entries applied).map (·.id) = entries.map (·.id)
  | [], _, _ => rfl
  | .failed record :: entries, applied, h => by
    rw [weave, List.map_cons, List.map_cons, weave_ids (by exact h), WriteEntry.id]
  | .decoded record :: entries, [], h => by simp [decodedOf] at h
  | .decoded record :: entries, status :: applied, h => by
    simp only [decodedOf, List.map_cons, List.cons.injEq] at h
    rw [weave, List.map_cons, List.map_cons, weave_ids h.2, WriteEntry.id, h.1]

/-- An answer has one status for every record, in the order of the request. -/
def Answers (entries : List WriteEntry) (applied answer : List WriteAttributeStatusRecord) : Prop :=
  answer = weave entries applied ∧ answer.map (·.id) = entries.map (·.id)

theorem merge_answers (hlen : entries.length ≤ MAX_WRITE_ATTRS) (hids : applied.map (·.id) = (decodedOf entries).map (·.id)) :
    Answers entries applied (WriteAttributesParseOutcome.mergeInRequestOrder ⟨decodedOf entries, failuresFrom 0 entries⟩ applied) := by
  have hsame : applied.length = (decodedOf entries).length := by
    simpa using congrArg List.length hids
  have hmerge := mergeLoop_eq _ (k := 0) [] hsame hlen (by decide) rfl
  rw [Answers, WriteAttributesParseOutcome.mergeInRequestOrder, hmerge, List.nil_append]
  exact ⟨rfl, weave_ids hids⟩

/-! ## Writes -/

section
variable {σ : Type} (S : AttributeStoreMutAccess σ)

theorem processWriteDyn_ids (s : σ) (request : List WriteAttributeRecord) :
    (processWriteDyn S s request).2.map (·.id) = request.map (·.id) := by
  induction request generalizing s with
  | nil => rfl
  | cons record rest ih => simp [processWriteDyn, ih]

theorem validateWriteUndividedDyn_ids (s : σ) (request : List WriteAttributeRecord) :
    (validateWriteUndividedDyn S s request).map (·.id) = request.map (·.id) := by
  simp [validateWriteUndividedDyn]

theorem processWriteUndividedDyn_ids (s : σ) (request : List WriteAttributeRecord) :
    (processWriteUndividedDyn S s request).2.map (·.id) = request.map (·.id) := by
  unfold processWriteUndividedDyn
  dsimp only
  split
  · exact validateWriteUndividedDyn_ids S s request
  · exact processWriteDyn_ids S s request

/-- Every record is written, one after the other. -/
inductive Applies : σ → List WriteAttributeRecord → σ → Prop where
  | done (s : σ) : Applies s [] s
  | write {s s' s'' : σ} {record : WriteAttributeRecord} {rest : List WriteAttributeRecord}
      (set : S.set s record.id record.value = (s', .ok ())) (next : Applies s' rest s'') : Applies s (record :: rest) s''

/-- An undivided write is refused and changes nothing, or every record is applied with success. -/
def AllOrNothing (s : σ) (request : List WriteAttributeRecord) : Prop :=
  let result := processWriteUndividedDyn S s request
  (result.1 = s ∧ ∃ record ∈ result.2, record.status ≠ .success) ∨
    (Applies S s request result.1 ∧ ∀ record ∈ result.2, record.status = .success)

/-- `validateSet` tells what `set` would do, and a write leaves accepted writes acceptable. -/
structure Agrees (I : σ → Prop) : Prop where
  status : ∀ {s id value}, I s → (S.set s id value).2 = S.validateSet s id value
  refused : ∀ {s id value}, I s → S.validateSet s id value ≠ .error .success
  keeps : ∀ {s} (id : AttributeId) (value : ZclValue), I s → I (S.set s id value).1
  stable : ∀ {s id value id' value'}, I s → S.validateSet s id value = .ok () → S.validateSet s id' value' = .ok () →
    S.validateSet (S.set s id value).1 id' value' = .ok ()

variable {S}

theorem statusOf_success {result : Except ZclStatus Unit} (h : result = .ok ()) : statusOf result = .success := by rw [h, statusOf]

/-- What is accepted record by record is applied. -/
theorem Agrees.applies {I : σ → Prop} (h : Agrees S I) : ∀ {request : List WriteAttributeRecord} {s : σ}, I s →
    (∀ record ∈ request, S.validateSet s record.id record.value = .ok ()) →
    Applies S s request (processWriteDyn S s request).1 ∧ ∀ status ∈ (processWriteDyn S s request).2, status.status = .success
  | [], s, _, _ => ⟨.done s, by simp [processWriteDyn]⟩
  | record :: rest, s, hs, hvalid => by
    have hrecord := hvalid record List.mem_cons_self
    have hset : (S.set s record.id record.value).2 = .ok () := (h.status hs).trans hrecord
    obtain ⟨happlies, hsuccess⟩ := h.applies (h.keeps record.id record.value hs) fun r hr =>
      h.stable hs hrecord (hvalid r (List.mem_cons_of_mem _ hr))
    refine ⟨.write (Prod.ext rfl hset) happlies, fun status hstatus => ?_⟩
    rcases List.mem_cons.mp hstatus with rfl | hstatus
    · exact statusOf_success hset
    · exact hsuccess status hstatus

theorem Agrees.allOrNothing {I : σ → Prop} (h : Agrees S I) {s : σ} (hs : I s) (request : List WriteAttributeRecord) :
    AllOrNothing S s request := by
  unfold AllOrNothing processWriteUndividedDyn
  dsimp only
  split
  · rename_i hany
    obtain ⟨status, hmem, hfail⟩ := List.any_eq_true.mp hany
    exact Or.inl ⟨rfl, status, hmem, bne_iff_ne.mp hfail⟩
  · rename_i hall
    refine Or.inr (h.applies hs fun record hrecord => ?_)
    have hstatus : statusOf (S.validateSet s record.id record.value) = .success := by
      by_contra hfail
      exact hall (List.any_eq_true.mpr ⟨_, List.mem_map_of_mem hrecord, bne_iff_ne.mpr hfail⟩)
    cases hvalid : S.validateSet s record.id record.value with
    | ok _ => rfl
    | error e =>
      rw [hvalid, statusOf] at hstatus
      exact absurd (hstatus ▸ hvalid) (h.refused hs)

end

/-! ## The two stores -/

open AttributeStore in
/-- A write that is accepted is read back, and seen nowhere else. -/
theorem plainAccess_set {N : Nat} (store : AttributeStore N) (id : AttributeId) (value : ZclValue) :
    ∃ store', (plainAccess N).set store id value = (store', store.validateSet id value) ∧
      store'.validateSet = store.validateSet ∧
      ∀ id', store'.get id' = if id == id' && (store.validateSet id value).isOk then some value else store.get id' := by
  cases hslot : resolveWritableSlot store.attrs id value with
  | error e => exact ⟨store, by simp [plainAccess, AttributeStore.set, validateSet, hslot, Except.isOk, Except.toBool]⟩
  | ok idx =>
    have hsame := validateSet_eq_of_definitions (store.setSlot_definitions idx value)
    refine ⟨store.setSlot idx value, by simp [plainAccess, AttributeStore.set, validateSet, hslot],
      funext₂ hsame, fun id' => ?_⟩
    rw [get_setSlot (resolve_writable hslot).1]
    simp [validateSet, hslot, @eq_comm _ id, Except.isOk, Except.toBool]

theorem plainAccess_agrees (N : Nat) : Agrees (plainAccess N) fun _ => True where
  status := fun {store id value} _ => by
    obtain ⟨store', hset, -⟩ := plainAccess_set store id value
    rw [hset, plainAccess]
  refused := fun _ => AttributeStore.validateSet_ne_success
  keeps := fun _ _ _ => trivial
  stable := fun {store id value _ _} _ _ hvalid' => by
    obtain ⟨store', hset, hsame, -⟩ := plainAccess_set store id value
    rw [hset]
    exact (congrFun₂ hsame _ _).trans hvalid'

/-- **The last accepted write wins**, and what is accepted does not depend on the writes before it. -/
theorem last_write_wins {N : Nat} (store : AttributeStore N) (request : List WriteAttributeRecord) :
    (processWriteDyn (plainAccess N) store request).2 = validateWriteUndividedDyn (plainAccess N) store request ∧
      ∀ id, (processWriteDyn (plainAccess N) store request).1.get id =
        ((request.filter fun r => r.id == id && (store.validateSet r.id r.value).isOk).getLast?.map (·.value)).or
          (store.get id) := by
  induction request generalizing store with
  | nil => exact ⟨rfl, fun _ => rfl⟩
  | cons r rest ih =>
    obtain ⟨store', hset, hsame, hget⟩ := plainAccess_set store r.id r.value
    obtain ⟨hstatuses, hrest⟩ := ih store'
    simp only [validateWriteUndividedDyn, plainAccess, hsame] at hstatuses
    rw [processWriteDyn, hset]
    refine ⟨by simpa [validateWriteUndividedDyn, plainAccess] using hstatuses, fun id => ?_⟩
    simp only [hrest, hget, hsame, List.filter_cons]
    split
    · simp [List.getLast?_cons]
    · rfl

section
open PollControl

variable {c : PollControlCluster} {id : AttributeId} {value : ZclValue}

theorem pollControl_validateSet_ok (h : c.validateSet id value = .ok ()) :
    (∃ idx, resolveWritableSlot c.store.attrs id value = .ok idx) ∧ c.checkValue id value = .ok () := by
  unfold PollControlCluster.validateSet at h
  cases hstore : c.store.validateSet id value with
  | error e =>
    rw [hstore] at h
    cases h
  | ok _ =>
    rw [hstore] at h
    exact ⟨AttributeStore.validateSet_ok_iff.mp hstore, h⟩

theorem pollControl_set (c : PollControlCluster) (id : AttributeId) (value : ZclValue) :
    (c.set id value).2 = c.validateSet id value ∧
    ∀ idx, resolveWritableSlot c.store.attrs id value = .ok idx → c.validateSet id value = .ok () →
      (c.set id value).1 = { c with store := c.store.setSlot idx value } := by
  unfold PollControlCluster.set
  cases hvalid : c.validateSet id value with
  | error e => exact ⟨rfl, fun _ _ h => by cases h⟩
  | ok _ =>
    obtain ⟨⟨idx, hslot⟩, -⟩ := pollControl_validateSet_ok hvalid
    simp only [AttributeStore.set, hslot]
    refine ⟨trivial, fun idx' hidx' _ => ?_⟩
    cases hidx'
    rfl

/-- The range and ordering rules read only limits, so a write does not change them. -/
theorem checkValue_eq (c' : PollControlCluster)
    (hlimits : ∀ limit ∈ [ATTR_LONG_POLL_INTERVAL, ATTR_CHECK_IN_INTERVAL_MIN, ATTR_FAST_POLL_TIMEOUT_MAX],
      c'.store.get limit = c.store.get limit) (id : AttributeId) (value : ZclValue) :
    c'.checkValue id value = c.checkValue id value := by
  have hlong : c'.u32Attr ATTR_LONG_POLL_INTERVAL = c.u32Attr ATTR_LONG_POLL_INTERVAL := by
    rw [PollControlCluster.u32Attr, hlimits _ (by simp), PollControlCluster.u32Attr]
  have hmin : c'.u32Attr ATTR_CHECK_IN_INTERVAL_MIN = c.u32Attr ATTR_CHECK_IN_INTERVAL_MIN := by
    rw [PollControlCluster.u32Attr, hlimits _ (by simp), PollControlCluster.u32Attr]
  have hmax : c'.u32Attr ATTR_FAST_POLL_TIMEOUT_MAX = c.u32Attr ATTR_FAST_POLL_TIMEOUT_MAX := by
    rw [PollControlCluster.u32Attr, hlimits _ (by simp), PollControlCluster.u32Attr]
  simp only [PollControlCluster.checkValue, PollControlCluster.fastPollTimeoutOk, hlong, hmin, hmax]
  cases value <;> rfl

theorem checkValue_cases (c : PollControlCluster) (id : AttributeId) (value : ZclValue) :
    c.checkValue id value = .ok () ∨ c.checkValue id value = .error .invalidValue := by
  unfold PollControlCluster.checkValue
  exact ite_eq_or_eq _ _ _

theorem pollControlAccess_agrees : Agrees pollControlAccess Layout where
  status := fun {c id value} _ => (pollControl_set c id value).1
  refused := by
    intro c id value _ h
    change (c.store.validateSet id value).bind _ = _ at h
    cases hstore : c.store.validateSet id value with
    | error e =>
      rw [hstore] at h
      cases h
      exact AttributeStore.validateSet_ne_success hstore
    | ok _ =>
      rw [hstore] at h
      change c.checkValue id value = _ at h
      rcases checkValue_cases c id value with hok | hinvalid
      · rw [hok] at h
        cases h
      · rw [hinvalid] at h
        cases h
  keeps := fun id value h => set_layout h id value
  stable := by
    intro c id value id' value' h hvalid hvalid'
    obtain ⟨⟨idx, hslot⟩, -⟩ := pollControl_validateSet_ok hvalid
    have hset : (pollControlAccess.set c id value).1 = { c with store := c.store.setSlot idx value } :=
      (pollControl_set c id value).2 idx hslot hvalid
    have hcheck := checkValue_eq { c with store := c.store.setSlot idx value }
      (fun limit hlimit => set_limits h hslot hlimit) id' value'
    have hstore := AttributeStore.validateSet_eq_of_definitions (c.store.setSlot_definitions idx value) id' value'
    rw [hset, ← hvalid']
    change ((c.store.setSlot idx value).validateSet id' value').bind _ = (c.store.validateSet id' value').bind _
    rw [hstore, hcheck]

end

/-- **Every record is answered in order, and undivided writes are atomic.**  What `parseChecked` accepts
    is a sequence of records up to the end of the payload; the merged answer has one status for each of
    them; and an undivided write applies every record or changes nothing. -/
theorem write_attributes_answered (floats : FloatSupport) :
    (∀ data outcome, parseChecked floats data = .ok outcome →
      ∃ entries, entries ≠ [] ∧ Reads floats entries data ∧ outcome.request = decodedOf entries ∧
        ∀ {σ : Type} (S : AttributeStoreMutAccess σ) (s : σ), ∀ applied ∈ [(processWriteDyn S s outcome.request).2,
            validateWriteUndividedDyn S s outcome.request, (processWriteUndividedDyn S s outcome.request).2],
          Answers entries applied (outcome.mergeInRequestOrder applied)) ∧
    (∀ N (store : AttributeStore N) request, AllOrNothing (plainAccess N) store request) ∧
    (∀ config ops request, AllOrNothing pollControlAccess (PollControl.after config ops) request) ∧
    ∀ {σ : Type} (S : AttributeStoreMutAccess σ) (I : σ → Prop), Agrees S I → ∀ s, I s → ∀ request,
      AllOrNothing S s request := by
  refine ⟨fun data outcome h => ?_, fun N store request => (plainAccess_agrees N).allOrNothing trivial request,
    fun config ops request => pollControlAccess_agrees.allOrNothing (PollControl.after_layout config ops) request,
    fun S I hagrees s hs request => hagrees.allOrNothing hs request⟩
  obtain ⟨entries, hne, hreads, hlen, rfl⟩ := parseChecked_reads h
  refine ⟨entries, hne, hreads, rfl, fun S s applied happlied => merge_answers hlen ?_⟩
  simp only [List.mem_cons, List.not_mem_nil, or_false] at happlied
  rcases happlied with rfl | rfl | rfl
  · exact processWriteDyn_ids S s _
  · exact validateWriteUndividedDyn_ids S s _
  · exact processWriteUndividedDyn_ids S s _

/-- Two writes of one attribute, with an invalid string between them. -/
def exampleWrites : Buf := [0, 0, 0x20, 5, 0, 0, 0x41, 0xFF, 0, 0, 0x20, 7]

def exampleOutcome : WriteAttributesParseOutcome :=
  ⟨[⟨0, .u8, .u8 5⟩, ⟨0, .u8, .u8 7⟩], [⟨1, ⟨.invalidValue, 0⟩⟩]⟩

theorem example_answered : ∃ entries, entries ≠ [] ∧ Reads ⟨true, true⟩ entries exampleWrites ∧
    Answers entries [⟨.success, 0⟩, ⟨.readOnly, 0⟩]
      (exampleOutcome.mergeInRequestOrder [⟨.success, 0⟩, ⟨.readOnly, 0⟩]) := by
  obtain ⟨entries, hne, hreads, -, hanswers⟩ :=
    (write_attributes_answered ⟨true, true⟩).1 exampleWrites exampleOutcome (by decide)
  refine ⟨entries, hne, hreads, ?_⟩
  exact hanswers ⟨fun s _ _ => (true, if s then .error .readOnly else .ok ()), fun _ _ _ => .ok ()⟩ false _ List.mem_cons_self

end Zigbee.Zcl
