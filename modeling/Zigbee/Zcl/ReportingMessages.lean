import Zigbee.Lib.Records
import Zigbee.Zcl.ReportingRecord

/-!
# Reporting commands

Model of `ConfigureReportingRequest::parse` and `ReportAttributes` in `zigbee-zcl/src/foundation/reporting.rs`.

* `ConfigureReportingRequest.parse_iff_records` — a request is accepted if it is a row of records that the list holds.
* `ReportAttributes.serialize_longest` — as many reports are written as fit, and they are counted.
-/

namespace Zigbee.Zcl.Reporting

open Bytes Records ReportingConfig AttributeReport

/-- The records of `data`, for a list that has room for `left` of them. -/
def parseConfigs (floats : FloatSupport) : Nat → Buf → Option (List ReportingConfig)
  | 0, data => if data = [] then some [] else none
  | left + 1, data =>
    if data = [] then some []
    else do
      let (config, consumed) ← parseRecord floats data
      let configs ← parseConfigs floats left (data.drop consumed)
      some (config :: configs)

def ConfigureReportingRequest.parse (floats : FloatSupport) (maxConfigs : Nat) (data : Buf) : Option (List ReportingConfig) :=
  if data = [] then none else parseConfigs floats maxConfigs data

/-- The bytes of a record, none for a configuration that is none. -/
def ReportingConfig.wire (config : ReportingConfig) : Buf := config.record.getD []

def AttributeReport.encode (report : AttributeReport) : Buf := le16 report.id ++ (report.dataType.toU8 :: report.value.toBytes)

/-- One report into `room` bytes. -/
def AttributeReport.write (report : AttributeReport) (room : Nat) : Option Buf :=
  if room < 3 then none
  else do
    let value ← report.value.trySerialize (room - 3)
    some (le16 report.id ++ (report.dataType.toU8 :: value))

def ReportAttributes.serialize (reports : List AttributeReport) (room : Nat) : Buf := writeMany AttributeReport.write reports room

def recordsFittingLoop (capacity : Nat) : List AttributeReport → Nat → Nat → Nat
  | [], _, count => count
  | report :: reports, used, count =>
    let used := used + (3 + report.value.wireLen)
    if capacity < used then count else recordsFittingLoop capacity reports used (count + 1)

def ReportAttributes.recordsFitting (reports : List AttributeReport) (capacity : Nat) : Nat :=
  recordsFittingLoop capacity reports 0 0

/-! ## Requests -/

section
variable {floats : FloatSupport} {config : ReportingConfig} {configs : List ReportingConfig} {data : Buf}

theorem parseRecord_wire (h : config.Representable floats) (rest : Buf) :
    parseRecord floats (config.wire ++ rest) = some (config, config.wire.length) := by
  obtain ⟨bytes, hbytes, -, hparse⟩ := parseRecord_record h
  simpa [wire, hbytes] using hparse rest

theorem eq_nil_of_wire (h : ∀ config ∈ configs, config.Representable floats) (hnil : configs.flatMap wire = []) :
    configs = [] := by
  cases configs with
  | nil => rfl
  | cons config configs =>
    have hparse := parseRecord_wire (h config List.mem_cons_self) []
    rw [(List.append_eq_nil_iff.mp hnil).1] at hparse
    cases hparse

theorem parseConfigs_eq_some {left : Nat} :
    parseConfigs floats left data = some configs ↔
      configs.length ≤ left ∧ (∀ config ∈ configs, config.Representable floats) ∧ data = configs.flatMap wire := by
  induction left generalizing data configs with
  | zero => cases configs <;> simp [parseConfigs]
  | succ left ih =>
    cases configs with
    | nil =>
      rw [parseConfigs]
      split <;> simp [*, Option.bind_eq_some_iff]
    | cons config configs =>
      rw [parseConfigs]
      constructor
      · intro h
        split at h
        · cases h
        · obtain ⟨⟨config, consumed⟩, hrecord, hrest⟩ := Option.bind_eq_some_iff.mp h
          obtain ⟨configs, hconfigs, hpair⟩ := Option.bind_eq_some_iff.mp hrest
          cases hpair
          obtain ⟨hrepresentable, -, hbytes⟩ := parseRecord_eq_some hrecord
          obtain ⟨hlen, hall, hdrop⟩ := ih.mp hconfigs
          refine ⟨Nat.succ_le_succ hlen, List.forall_mem_cons.mpr ⟨hrepresentable, hall⟩, ?_⟩
          simp [← hdrop, wire, hbytes]
      · rintro ⟨hlen, hall, rfl⟩
        have hrest := List.forall_mem_cons.mp hall
        have hconfigs := ih.mpr ⟨Nat.le_of_succ_le_succ hlen, hrest.2, rfl⟩
        rw [if_neg fun hnil => absurd (eq_nil_of_wire hall hnil) (List.cons_ne_nil _ _)]
        simp [parseRecord_wire hrest.1, hconfigs]

end

/-- **A request is accepted** exactly if it is a row of one or more records that the list has room for. -/
theorem ConfigureReportingRequest.parse_iff_records (floats : FloatSupport) (maxConfigs : Nat) (data : Buf)
    (configs : List ReportingConfig) :
    ConfigureReportingRequest.parse floats maxConfigs data = some configs ↔
      configs ≠ [] ∧ configs.length ≤ maxConfigs ∧ (∀ config ∈ configs, config.Representable floats) ∧
        data = configs.flatMap wire := by
  rw [ConfigureReportingRequest.parse, ← parseConfigs_eq_some]
  split
  · subst data
    refine ⟨nofun, fun ⟨hne, h⟩ => absurd ?_ hne⟩
    obtain ⟨-, hall, hnil⟩ := parseConfigs_eq_some.mp h
    exact eq_nil_of_wire hall hnil.symm
  · refine ⟨fun h => ⟨?_, h⟩, And.right⟩
    rintro rfl
    exact absurd (parseConfigs_eq_some.mp h).2.2 ‹_›

/-! ## Reports -/

theorem AttributeReport.write_eq (report : AttributeReport) (room : Nat) :
    report.write room = if report.encode.length ≤ room then some report.encode else none := by
  simp [write, encode, ZclValue.trySerialize]
  split_ifs <;> first | rfl | omega

theorem recordsFittingLoop_eq (capacity : Nat) (reports : List AttributeReport) {used count : Nat} (hused : used ≤ capacity) :
    recordsFittingLoop capacity reports used count = count + fitting encode reports (capacity - used) := by
  induction reports generalizing used count with
  | nil => rfl
  | cons report reports ih =>
    have hlen : report.encode.length = 3 + report.value.wireLen := by
      simp [encode, ZclValue.toBytes_length]
      omega
    rw [recordsFittingLoop, fitting, hlen]
    split
    · rw [if_neg (by omega)]
      rfl
    · rw [if_pos (by omega), ih (by omega), Nat.sub_sub]
      omega

/-- **As many reports are written as fit**, each of them whole, and that is the number that is predicted. -/
theorem ReportAttributes.serialize_longest (reports : List AttributeReport) (room : Nat) :
    serialize reports room =
        (reports.take (recordsFitting reports room)).flatMap encode ∧
      ∀ k, k ≤ recordsFitting reports room ↔
        k ≤ reports.length ∧ ((reports.take k).flatMap encode).length ≤ room := by
  rw [recordsFitting, recordsFittingLoop_eq room reports (Nat.zero_le _), Nat.zero_add]
  exact ⟨writeMany_eq write_eq reports room, fun _ => le_fitting_iff _ reports⟩

end Zigbee.Zcl.Reporting
