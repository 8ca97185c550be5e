import Zigbee.Lib.Run
import Zigbee.Zcl.Attribute
import Zigbee.Zcl.ReportableChange

/-!
# Reporting

Model of the reporting engine in `zigbee-zcl/src/foundation/reporting.rs`.  The capacity of the engine and
of a list of reports is the parameter `maxConfigs`.

* `ReportingEngine` — its operations, with both ways to collect reports.
* `Event` — what can be seen of a run: configurations, time, forced reports, and the reports collected.
* `Tracks` — the engine's states follow the events.
* `reports_timely` — reports come when they are due and not before, and none is lost, where lists have room
  and no reportable change is a negative floating-point number.
-/

namespace Zigbee.Zcl.Reporting

inductive ReportDirection where
  | send
  | receive
  deriving DecidableEq, Repr

structure ReportingConfig where
  direction : ReportDirection
  attributeId : AttributeId
  dataType : ZclDataType
  minInterval : UInt16
  /-- 0 disables periodic reports, 0xFFFF automatic reports. -/
  maxInterval : UInt16
  reportableChange : Option ZclValue
  deriving DecidableEq

structure AttributeReport where
  id : AttributeId
  dataType : ZclDataType
  value : ZclValue
  deriving DecidableEq

structure ReportState where
  endpoint : UInt8
  clusterId : UInt16
  config : ReportingConfig
  /-- Seconds since the last report. -/
  elapsed : UInt16
  lastValue : Option ZclValue
  forced : Bool
  deriving DecidableEq

def saturatingAdd16 (a b : UInt16) : UInt16 := if a.toNat + b.toNat < 65536 then a + b else 0xFFFF

namespace ReportState

def reportDue (floats : FloatSupport) (state : ReportState) (current : ZclValue) : Bool :=
  if state.forced then true
  else if state.config.maxInterval = 0xFFFF then false
  else if state.config.maxInterval ≠ 0 ∧ state.config.maxInterval ≤ state.elapsed then true
  else if state.elapsed < state.config.minInterval then false
  else
    match state.lastValue, state.config.reportableChange with
    | some last, some change => current.exceedsThreshold floats last change
    | some last, none => !last.partialEq current
    | none, _ => true

def reported (state : ReportState) (current : ZclValue) : ReportState :=
  { state with elapsed := 0, lastValue := some current, forced := false }

end ReportState

structure ReportingEngine (maxConfigs : Nat) where
  states : List ReportState
  room : states.length ≤ maxConfigs

/-- `let _ = reports.push(..)`: a report without room is left out. -/
def pushReport (maxConfigs : Nat) (reports : List AttributeReport) (report : AttributeReport) : List AttributeReport :=
  if reports.length < maxConfigs then reports ++ [report] else reports

/-- `for state in self.states.iter_mut()`, with the list of reports that the loop extends. -/
def passLoop (visit : ReportState → List AttributeReport → ReportState × List AttributeReport) :
    List ReportState → List AttributeReport → List ReportState × List AttributeReport
  | [], reports => ([], reports)
  | state :: rest, reports =>
    let (state', reports) := visit state reports
    let (rest', reports) := passLoop visit rest reports
    (state' :: rest', reports)

theorem passLoop_length (visit : ReportState → List AttributeReport → ReportState × List AttributeReport)
    (states : List ReportState) (reports : List AttributeReport) : (passLoop visit states reports).1.length = states.length := by
  induction states generalizing reports with
  | nil => rfl
  | cons state rest ih => simp [passLoop, ih]

namespace ReportingEngine

variable {maxConfigs N : Nat}

def new : ReportingEngine maxConfigs := ⟨[], Nat.zero_le _⟩

/-- Add or replace a reporting configuration. -/
def configureForCluster (engine : ReportingEngine maxConfigs) (endpoint : UInt8) (clusterId : UInt16) (config : ReportingConfig) :
    Except ZclStatus (ReportingEngine maxConfigs) :=
  match engine.states.findIdx? fun state => state.endpoint == endpoint && state.clusterId == clusterId &&
      state.config.attributeId == config.attributeId && state.config.direction == config.direction with
  | some i =>
    .ok ⟨engine.states.modify i fun state => { state with config, elapsed := 0, lastValue := none, forced := false }, by
      rw [List.length_modify]
      exact engine.room⟩
  | none =>
    if h : engine.states.length < maxConfigs then
      .ok ⟨engine.states ++ [⟨endpoint, clusterId, config, 0, none, false⟩], by
        rw [List.length_append, List.length_singleton]
        exact h⟩
    else .error .insufficientSpace

def tick (engine : ReportingEngine maxConfigs) (elapsedSecs : UInt16) : ReportingEngine maxConfigs :=
  ⟨engine.states.map fun state => { state with elapsed := saturatingAdd16 state.elapsed elapsedSecs }, by
    rw [List.length_map]
    exact engine.room⟩

/-- Make every locally-sent report due on the next pass, whatever its intervals and change. -/
def forceAllDue (engine : ReportingEngine maxConfigs) : ReportingEngine maxConfigs :=
  ⟨engine.states.map fun state => if state.config.direction = .send then { state with forced := true } else state, by
    rw [List.length_map]
    exact engine.room⟩

/-- The body of the loop of `checkAndReportFiltered`. -/
def visitFiltered (maxConfigs : Nat) (floats : FloatSupport) (filterEp : Option UInt8) (filterCluster : Option UInt16)
    (store : AttributeStore N) (state : ReportState) (reports : List AttributeReport) : ReportState × List AttributeReport :=
  if state.config.direction ≠ .send then (state, reports)
  else if filterEp.any (state.endpoint != ·) then (state, reports)
  else if filterCluster.any (state.clusterId != ·) then (state, reports)
  else
    match store.get state.config.attributeId with
    | none => (state, reports)
    | some current =>
      if state.reportDue floats current then
        (state.reported current,
          match store.find state.config.attributeId with
          | none => reports
          | some d => pushReport maxConfigs reports ⟨state.config.attributeId, d.dataType, current⟩)
      else (state, reports)

def checkAndReportFiltered (engine : ReportingEngine maxConfigs) (floats : FloatSupport) (filterEp : Option UInt8)
    (filterCluster : Option UInt16) (store : AttributeStore N) : ReportingEngine maxConfigs × Option (List AttributeReport) :=
  let pass := passLoop (visitFiltered maxConfigs floats filterEp filterCluster store) engine.states []
  (⟨pass.1, by
      rw [passLoop_length]
      exact engine.room⟩,
    if pass.2.isEmpty then none else some pass.2)

/-- The body of the loop of `checkAndCollectDyn`. -/
def visitDyn (maxConfigs : Nat) (floats : FloatSupport) (endpoint : UInt8) (clusterId : UInt16) (store : AttributeStore N)
    (state : ReportState) (out : List AttributeReport) : ReportState × List AttributeReport :=
  if state.config.direction ≠ .send then (state, out)
  else if state.endpoint ≠ endpoint ∨ state.clusterId ≠ clusterId then (state, out)
  else
    match store.get state.config.attributeId with
    | none => (state, out)
    | some current =>
      if state.reportDue floats current then
        (state.reported current,
          match store.find state.config.attributeId with
          | none => out
          | some d => pushReport maxConfigs out ⟨state.config.attributeId, d.dataType, current⟩)
      else (state, out)

/-- Appends due reports to `out`. -/
def checkAndCollectDyn (engine : ReportingEngine maxConfigs) (floats : FloatSupport) (endpoint : UInt8) (clusterId : UInt16)
    (store : AttributeStore N) (out : List AttributeReport) : ReportingEngine maxConfigs × List AttributeReport :=
  let pass := passLoop (visitDyn maxConfigs floats endpoint clusterId store) engine.states out
  (⟨pass.1, by
      rw [passLoop_length]
      exact engine.room⟩,
    pass.2)

end ReportingEngine

/-! ## Runs -/

/-- What a report is about. -/
structure ReportKey where
  endpoint : UInt8
  clusterId : UInt16
  attributeId : AttributeId
  deriving DecidableEq

def ReportState.key (state : ReportState) : ReportKey := ⟨state.endpoint, state.clusterId, state.config.attributeId⟩

/-- Operations of the engine; `report` and `collect` read a store as it is at that time. -/
inductive Op where
  | configure (endpoint : UInt8) (clusterId : UInt16) (config : ReportingConfig)
  | tick (elapsedSecs : UInt16)
  | forceAllDue
  | report (filterEp : Option UInt8) (filterCluster : Option UInt16) {N : Nat} (store : AttributeStore N)
  | collect (endpoint : UInt8) (clusterId : UInt16) {N : Nat} (store : AttributeStore N) (out : List AttributeReport)

/-- What can be seen of an operation. -/
inductive Event where
  | configured (endpoint : UInt8) (clusterId : UInt16) (config : ReportingConfig)
  | ticked (elapsedSecs : UInt16)
  | forced
  | collected (reports : List (ReportKey × AttributeReport))

/-- What the visits of a pass append to the list, each under the key of its state. -/
def tagged (visit : ReportState → List AttributeReport → ReportState × List AttributeReport) :
    List ReportState → List AttributeReport → List (ReportKey × AttributeReport)
  | [], _ => []
  | state :: rest, reports =>
    ((visit state reports).2.drop reports.length).map (fun report => (state.key, report)) ++
      tagged visit rest (visit state reports).2

open ReportingEngine

section
variable {maxConfigs : Nat} (floats : FloatSupport)

/-- The reports that an operation adds to its list. -/
def Op.emitted (op : Op) (engine : ReportingEngine maxConfigs) : List (ReportKey × AttributeReport) :=
  match op with
  | report filterEp filterCluster store =>
    tagged (visitFiltered maxConfigs floats filterEp filterCluster store) engine.states []
  | collect endpoint clusterId store out =>
    tagged (visitDyn maxConfigs floats endpoint clusterId store) engine.states out
  | _ => []

/-- The value of an attribute that an operation reads. -/
def Op.polls (k : ReportKey) : Op → Option ZclValue
  | report filterEp filterCluster store =>
    if filterEp.any (k.endpoint != ·) || filterCluster.any (k.clusterId != ·) then none else store.get k.attributeId
  | collect endpoint clusterId store _ =>
    if k.endpoint = endpoint ∧ k.clusterId = clusterId then store.get k.attributeId else none
  | _ => none

/-- One operation, on the engine and the events so far, the newest first. -/
def step (s : ReportingEngine maxConfigs × List Event) (op : Op) : ReportingEngine maxConfigs × List Event :=
  match op with
  | .configure endpoint clusterId config =>
    match s.1.configureForCluster endpoint clusterId config with
    | .error _ => s
    | .ok engine => (engine, .configured endpoint clusterId config :: s.2)
  | .tick elapsedSecs => (s.1.tick elapsedSecs, .ticked elapsedSecs :: s.2)
  | .forceAllDue => (s.1.forceAllDue, .forced :: s.2)
  | .report filterEp filterCluster store =>
    ((s.1.checkAndReportFiltered floats filterEp filterCluster store).1, .collected (op.emitted floats s.1) :: s.2)
  | .collect endpoint clusterId store out =>
    ((s.1.checkAndCollectDyn floats endpoint clusterId store out).1, .collected (op.emitted floats s.1) :: s.2)

/-- The engine and the events of a run. -/
def afterOps (maxConfigs : Nat) (ops : List Op) : ReportingEngine maxConfigs × List Event :=
  Run.run (step floats) (.new, []) ops

end

/-! ## What the events say of an attribute -/

/-- The event configures reports of the attribute. -/
def configures (k : ReportKey) (endpoint : UInt8) (clusterId : UInt16) (config : ReportingConfig) : Bool :=
  config.direction = .send ∧ ReportKey.mk endpoint clusterId config.attributeId = k

def configOf (k : ReportKey) : List Event → Option ReportingConfig
  | [] => none
  | .configured endpoint clusterId config :: events =>
    if configures k endpoint clusterId config then some config else configOf k events
  | _ :: events => configOf k events

/-- Seconds since the attribute was last reported or configured. -/
def sinceReport (k : ReportKey) : List Event → Nat
  | [] => 0
  | .configured endpoint clusterId config :: events => if configures k endpoint clusterId config then 0 else sinceReport k events
  | .ticked elapsedSecs :: events => sinceReport k events + elapsedSecs.toNat
  | .forced :: events => sinceReport k events
  | .collected reports :: events => if reports.any (·.1 = k) then 0 else sinceReport k events

/-- The value of the last report of the attribute under its configuration. -/
def lastReported (k : ReportKey) : List Event → Option ZclValue
  | [] => none
  | .configured endpoint clusterId config :: events =>
    if configures k endpoint clusterId config then none else lastReported k events
  | .collected reports :: events =>
    match reports.find? (·.1 = k) with
    | some report => some report.2.value
    | none => lastReported k events
  | _ :: events => lastReported k events

/-- A report was forced and has not been sent yet. -/
def isForced (k : ReportKey) : List Event → Bool
  | [] => false
  | .configured endpoint clusterId config :: events => if configures k endpoint clusterId config then false else isForced k events
  | .forced :: _ => true
  | .collected reports :: events => if reports.any (·.1 = k) then false else isForced k events
  | .ticked _ :: events => isForced k events

/-- The value asks for a report: none was sent yet, or it differs from the last one by the change. -/
def Changed (current : ZclValue) (last change : Option ZclValue) : Prop :=
  match last, change with
  | none, _ => True
  | some last, some change => current.Reaches last change
  | some last, none => current.Differs last

/-- A report is asked for: it was forced, or automatic reports are on and the maximum interval has elapsed, or
    the minimum interval has and the value changed. -/
def Wanted (k : ReportKey) (config : ReportingConfig) (current : ZclValue) (events : List Event) : Prop :=
  isForced k events = true ∨
    (config.maxInterval ≠ 0xFFFF ∧
      ((config.maxInterval ≠ 0 ∧ config.maxInterval.toNat ≤ sinceReport k events) ∨
        (config.minInterval.toNat ≤ sinceReport k events ∧
          Changed current (lastReported k events) config.reportableChange)))

/-- An unforced report is allowed: automatic reports are on, and an interval has elapsed. -/
def Allowed (k : ReportKey) (config : ReportingConfig) (events : List Event) : Prop :=
  config.maxInterval ≠ 0xFFFF ∧
    (config.minInterval.toNat ≤ sinceReport k events ∨
      (config.maxInterval ≠ 0 ∧ config.maxInterval < config.minInterval ∧ config.maxInterval.toNat ≤ sinceReport k events))

/-! ## A pass over the states -/

variable {N : Nat}

variable {store : AttributeStore N}

theorem find_of_get {id : AttributeId} {v : ZclValue} (h : store.get id = some v) : ∃ d, store.find id = some d := by
  obtain ⟨a, ha, -⟩ := Option.map_eq_some_iff.mp h
  exact ⟨a.definition, Option.map_eq_some_iff.mpr ⟨a, ha, rfl⟩⟩

variable {current : ZclValue}

section
variable {maxConfigs N : Nat} {floats : FloatSupport} {state : ReportState} {due : ReportState → Option AttributeReport}

/-- The report that a pass makes of a state. -/
def dueReport (floats : FloatSupport) (polled : ReportState → Option ZclValue) (store : AttributeStore N) (state : ReportState) :
    Option AttributeReport :=
  if state.config.direction = .send then
    match polled state, store.find state.config.attributeId with
    | some current, some d =>
      if state.reportDue floats current then some ⟨state.config.attributeId, d.dataType, current⟩ else none
    | _, _ => none
  else none

/-- A visit that reports what is due. -/
def visitDue (maxConfigs : Nat) (due : ReportState → Option AttributeReport) (state : ReportState) (reports : List AttributeReport) :
    ReportState × List AttributeReport :=
  match due state with
  | some report => (state.reported report.value, pushReport maxConfigs reports report)
  | none => (state, reports)

/-- A state after a pass. -/
def afterPass (due : ReportState → Option AttributeReport) (state : ReportState) : ReportState :=
  match due state with
  | some report => state.reported report.value
  | none => state

/-- Both loop bodies report what is due of the attributes that they poll. -/
theorem visitFiltered_eq (maxConfigs : Nat) (floats : FloatSupport) (filterEp : Option UInt8) (filterCluster : Option UInt16) (store : AttributeStore N) :
    visitFiltered maxConfigs floats filterEp filterCluster store =
      visitDue maxConfigs (dueReport floats (fun state => (Op.report filterEp filterCluster store).polls state.key) store) := by
  funext state reports
  unfold visitFiltered visitDue dueReport
  simp only [Op.polls, ReportState.key]
  by_cases hsend : state.config.direction = .send
  · rw [if_neg (by simpa using hsend), if_pos hsend]
    by_cases hep : filterEp.any (state.endpoint != ·)
    · simp [hep]
    · by_cases hcluster : filterCluster.any (state.clusterId != ·)
      · simp [hep, hcluster]
      · simp only [hep, hcluster, Bool.false_eq_true, if_false, Bool.or_false]
        cases hget : store.get state.config.attributeId with
        | none => rfl
        | some current =>
          obtain ⟨d, hd⟩ := find_of_get hget
          simp only [hd]
          by_cases hdue : state.reportDue floats current <;> simp [hdue]
  · rw [if_pos (by simpa using hsend), if_neg hsend]

theorem visitDyn_eq (maxConfigs : Nat) (floats : FloatSupport) (endpoint : UInt8) (clusterId : UInt16) (store : AttributeStore N) (out : List AttributeReport) :
    visitDyn maxConfigs floats endpoint clusterId store =
      visitDue maxConfigs (dueReport floats (fun state => (Op.collect endpoint clusterId store out).polls state.key) store) := by
  funext state reports
  have hpolls : (Op.collect endpoint clusterId store out).polls state.key =
      if state.endpoint = endpoint ∧ state.clusterId = clusterId then store.get state.config.attributeId else none := rfl
  unfold visitDyn visitDue dueReport
  simp only [hpolls]
  by_cases hsend : state.config.direction = .send
  · rw [if_neg (by simpa using hsend), if_pos hsend]
    by_cases hscope : state.endpoint = endpoint ∧ state.clusterId = clusterId
    · rw [if_neg (by simpa [not_or] using hscope), if_pos hscope]
      cases hget : store.get state.config.attributeId with
      | none => rfl
      | some current =>
        obtain ⟨d, hd⟩ := find_of_get hget
        simp only [hd]
        by_cases hdue : state.reportDue floats current <;> simp [hdue]
    · rw [if_pos (not_and_or.mp hscope), if_neg hscope]
  · rw [if_pos (by simpa using hsend), if_neg hsend]

/-- **A pass with room for its reports** reports every state that is due, and appends the reports in order. -/
theorem passLoop_visitDue : ∀ (states : List ReportState) {reports : List AttributeReport},
    reports.length + (states.filterMap due).length ≤ maxConfigs →
    passLoop (visitDue maxConfigs due) states reports = (states.map (afterPass due), reports ++ states.filterMap due) ∧
    tagged (visitDue maxConfigs due) states reports = states.filterMap fun state => (due state).map fun report => (state.key, report)
  | [], reports, _ => by simp [passLoop, tagged]
  | state :: rest, reports, hroom => by
    cases hdue : due state with
    | none =>
      rw [List.filterMap_cons_none hdue] at hroom ⊢
      obtain ⟨hpass, htagged⟩ := passLoop_visitDue rest hroom
      have hvisit : visitDue maxConfigs due state reports = (state, reports) := by rw [visitDue, hdue]
      simp [passLoop, tagged, hvisit, hpass, htagged, hdue, afterPass]
    | some report =>
      rw [List.filterMap_cons_some hdue, List.length_cons] at hroom
      have hpush : pushReport maxConfigs reports report = reports ++ [report] := if_pos (by omega)
      have hvisit : visitDue maxConfigs due state reports = (state.reported report.value, reports ++ [report]) := by
        simp only [visitDue, hdue, hpush]
      have hrest : (reports ++ [report]).length + (rest.filterMap due).length ≤ maxConfigs := by
        rw [List.length_append, List.length_singleton]
        omega
      obtain ⟨hpass, htagged⟩ := passLoop_visitDue rest hrest
      simp [passLoop, tagged, hvisit, hpass, htagged, hdue, afterPass]

theorem dueReport_eq_some {polled : ReportState → Option ZclValue} {report : AttributeReport}
    (h : dueReport floats polled store state = some report) :
    state.config.direction = .send ∧ report.id = state.config.attributeId ∧ polled state = some report.value ∧
      state.reportDue floats report.value = true := by
  unfold dueReport at h
  split at h
  · rename_i hsend
    split at h
    · rename_i current d hpolled hfind
      split at h
      · rename_i hdue
        cases h
        exact ⟨hsend, rfl, hpolled, hdue⟩
      · cases h
    · cases h
  · cases h

theorem dueReport_of_due (polled : ReportState → Option ZclValue) (hsend : state.config.direction = .send)
    (hpolled : polled state = some current) (hget : store.get state.config.attributeId = some current)
    (hdue : state.reportDue floats current = true) :
    ∃ report, dueReport floats polled store state = some report ∧ report.value = current := by
  obtain ⟨d, hd⟩ := find_of_get hget
  refine ⟨⟨state.config.attributeId, d.dataType, current⟩, ?_, rfl⟩
  simp [dueReport, hsend, hpolled, hd, hdue]

theorem afterPass_key (state : ReportState) :
    (afterPass due state).key = state.key ∧ (afterPass due state).config = state.config := by
  unfold afterPass
  split <;> exact ⟨rfl, rfl⟩

end

/-! ## The states follow the events -/

/-- A state knows what the events say of its attribute. -/
structure Follows (state : ReportState) (events : List Event) : Prop where
  config : configOf state.key events = some state.config
  elapsed : state.elapsed.toNat = min (sinceReport state.key events) 0xFFFF
  last : state.lastValue = lastReported state.key events
  forced : state.forced = isForced state.key events

/-- The engine's states follow the events, each attribute in one state. -/
structure Tracks {maxConfigs : Nat} (s : ReportingEngine maxConfigs × List Event) : Prop where
  distinct : (s.1.states.map fun state => (state.key, state.config.direction)).Nodup
  follows : ∀ state ∈ s.1.states, state.config.direction = .send → Follows state s.2
  known : ∀ k config, configOf k s.2 = some config → ∃ state ∈ s.1.states, state.key = k ∧ state.config.direction = .send

variable {state : ReportState} {engine : ReportingEngine maxConfigs} {due : ReportState → Option AttributeReport} {events : List Event}
   {endpoint : UInt8} {clusterId : UInt16} {config : ReportingConfig}

section
variable {maxConfigs : Nat} {floats : FloatSupport} {s : ReportingEngine maxConfigs × List Event} {k : ReportKey}

theorem Tracks.unique (h : Tracks s) {state' : ReportState} (hs : state ∈ s.1.states) (hs' : state' ∈ s.1.states)
    (hkey : state.key = state'.key) (hdirection : state.config.direction = state'.config.direction) : state = state' :=
  List.inj_on_of_nodup_map h.distinct hs hs' (Prod.ext hkey hdirection)

theorem new_tracks : Tracks ((.new, []) : ReportingEngine maxConfigs × List Event) where
  distinct := List.nodup_nil
  follows := fun _ h => by cases h
  known := fun _ _ h => by cases h

/-- A change of the states that keeps keys and configurations, seen as an event that configures nothing. -/
theorem Tracks.update (h : Tracks s) {event : Event} {f : ReportState → ReportState} (hstates : engine.states = s.1.states.map f)
    (hkey : ∀ state, (f state).key = state.key ∧ (f state).config = state.config)
    (hconfig : ∀ k, configOf k (event :: s.2) = configOf k s.2)
    (hfollows : ∀ state ∈ s.1.states, state.config.direction = .send → Follows state s.2 →
      (f state).elapsed.toNat = min (sinceReport state.key (event :: s.2)) 0xFFFF ∧
      (f state).lastValue = lastReported state.key (event :: s.2) ∧ (f state).forced = isForced state.key (event :: s.2)) :
    Tracks (engine, event :: s.2) := by
  refine ⟨?_, fun state hstate hsend => ?_, fun k config hk => ?_⟩
  · rw [hstates, List.map_map]
    refine (congrArg List.Nodup ?_).mp h.distinct
    refine List.map_congr_left fun state _ => ?_
    rw [Function.comp_apply, (hkey state).1, (hkey state).2]
  · rw [hstates] at hstate
    obtain ⟨state, hmem, rfl⟩ := List.mem_map.mp hstate
    rw [(hkey state).2] at hsend
    have hold := h.follows state hmem hsend
    obtain ⟨helapsed, hlast, hforced⟩ := hfollows state hmem hsend hold
    constructor
    · rw [(hkey state).1, (hkey state).2, hconfig, hold.config]
    · rw [(hkey state).1, helapsed]
    · rw [(hkey state).1, hlast]
    · rw [(hkey state).1, hforced]
  · rw [hconfig] at hk
    obtain ⟨state, hmem, hkey', hsend⟩ := h.known k config hk
    refine ⟨f state, ?_, ?_, ?_⟩
    · rw [hstates]
      exact List.mem_map_of_mem hmem
    · rw [(hkey state).1, hkey']
    · rw [(hkey state).2, hsend]

theorem saturatingAdd16_toNat (a b : UInt16) : (saturatingAdd16 a b).toNat = min (a.toNat + b.toNat) 0xFFFF := by
  have ha := a.toNat_lt
  have hb := b.toNat_lt
  unfold saturatingAdd16
  split
  · rw [UInt16.toNat_add]
    omega
  · change 65535 = _
    omega

theorem tick_tracks (h : Tracks s) (elapsedSecs : UInt16) : Tracks (step floats s (.tick elapsedSecs)) := by
  refine h.update rfl (fun _ => ⟨rfl, rfl⟩) (fun _ => rfl) fun state _ _ hold => ⟨?_, hold.last, hold.forced⟩
  rw [saturatingAdd16_toNat, hold.elapsed, sinceReport]
  omega

theorem forceAllDue_tracks (h : Tracks s) : Tracks (step floats s .forceAllDue) := by
  refine h.update rfl (fun state => ?_) (fun _ => rfl) fun state _ hsend hold => ?_
  · split <;> exact ⟨rfl, rfl⟩
  · rw [if_pos hsend]
    exact ⟨hold.elapsed, hold.last, rfl⟩

/-! ### A pass -/

/-- The reports of a pass, each under the key of its state. -/
def emittedOf (due : ReportState → Option AttributeReport) (states : List ReportState) : List (ReportKey × AttributeReport) :=
  states.filterMap fun state => (due state).map fun report => (state.key, report)

theorem mem_emittedOf {states : List ReportState} {report : AttributeReport} :
    (k, report) ∈ emittedOf due states ↔ ∃ state ∈ states, state.key = k ∧ due state = some report := by
  unfold emittedOf
  simp only [List.mem_filterMap, Option.map_eq_some_iff, Prod.mk.injEq]
  constructor
  · rintro ⟨state, hmem, _, hdue, rfl, rfl⟩
    exact ⟨state, hmem, rfl, hdue⟩
  · rintro ⟨state, hmem, rfl, hdue⟩
    exact ⟨state, hmem, report, hdue, rfl, rfl⟩

/-- Only its own state reports an attribute. -/
theorem Tracks.find?_emitted (h : Tracks s) (hdue : ∀ state report, due state = some report → state.config.direction = .send)
    (hstate : state ∈ s.1.states) (hsend : state.config.direction = .send) :
    (emittedOf due s.1.states).find? (·.1 = state.key) = (due state).map fun report => (state.key, report) := by
  have hown : ∀ k report, (k, report) ∈ emittedOf due s.1.states → k = state.key → due state = some report := by
    intro k report hmem hk
    obtain ⟨state', hstate', hkey, hdue'⟩ := mem_emittedOf.mp hmem
    rwa [← h.unique hstate' hstate (hkey.trans hk) ((hdue _ _ hdue').trans hsend.symm)]
  cases hfind : (emittedOf due s.1.states).find? (·.1 = state.key) with
  | none =>
    cases hstate' : due state with
    | none => rfl
    | some report =>
      have hmem := mem_emittedOf.mpr ⟨state, hstate, rfl, hstate'⟩
      simpa using List.find?_eq_none.mp hfind _ hmem
  | some x =>
    obtain ⟨k, report⟩ := x
    have hk : k = state.key := by simpa using List.find?_some hfind
    rw [hown k report (List.mem_of_find?_eq_some hfind) hk, hk, Option.map_some]

theorem Tracks.pass (h : Tracks s) (hdue : ∀ state report, due state = some report → state.config.direction = .send)
    (hstates : engine.states = s.1.states.map (afterPass due)) : Tracks (engine, .collected (emittedOf due s.1.states) :: s.2) := by
  refine h.update hstates afterPass_key (fun _ => rfl) fun state hstate hsend hold => ?_
  have hfind := h.find?_emitted hdue hstate hsend
  have hany : (emittedOf due s.1.states).any (·.1 = state.key) = (due state).isSome := by
    rw [← List.isSome_find?, hfind, Option.isSome_map]
  rw [sinceReport, lastReported, isForced, hfind, hany, afterPass]
  cases due state with
  | none => exact ⟨hold.elapsed, hold.last, hold.forced⟩
  | some report => exact ⟨rfl, rfl, rfl⟩

/-! ### A configuration -/

/-- A state that a configuration is not about. -/
theorem Follows.configured (h : Follows state events) (hother : configures state.key endpoint clusterId config = false) :
    Follows state (.configured endpoint clusterId config :: events) := by
  constructor
  · rw [configOf, hother, if_neg Bool.false_ne_true, h.config]
  · rw [sinceReport, hother, if_neg Bool.false_ne_true, h.elapsed]
  · rw [lastReported, hother, if_neg Bool.false_ne_true, h.last]
  · rw [isForced, hother, if_neg Bool.false_ne_true, h.forced]

/-- The state that a configuration sets up. -/
theorem follows_new (hown : configures state.key endpoint clusterId config = true) (hconfig : state.config = config)
    (helapsed : state.elapsed = 0) (hlast : state.lastValue = none) (hforced : state.forced = false) :
    Follows state (.configured endpoint clusterId config :: events) := by
  constructor
  · rw [configOf, hown, if_pos rfl, hconfig]
  · rw [sinceReport, hown, if_pos rfl, helapsed]
    rfl
  · rw [lastReported, hown, if_pos rfl, hlast]
  · rw [isForced, hown, if_pos rfl, hforced]

theorem configures_iff :
    configures k endpoint clusterId config = true ↔
      config.direction = .send ∧ ReportKey.mk endpoint clusterId config.attributeId = k := by
  simp [configures]

/-- The states after a configuration: one is about it, and the others were there before. -/
theorem Tracks.configured (h : Tracks s) (new : ReportState) (hnew : new.key = ⟨endpoint, clusterId, config.attributeId⟩)
    (hfresh : new.config = config ∧ new.elapsed = 0 ∧ new.lastValue = none ∧ new.forced = false) (hmem : new ∈ engine.states)
    (hdistinct : (engine.states.map fun state => (state.key, state.config.direction)).Nodup) (hold : ∀ state ∈ engine.states, state = new ∨
      (state ∈ s.1.states ∧ (state.key, state.config.direction) ≠ (new.key, new.config.direction)))
    (hkept : ∀ state ∈ s.1.states, (state.key, state.config.direction) ≠ (new.key, new.config.direction) → state ∈ engine.states) :
    Tracks (engine, .configured endpoint clusterId config :: s.2) := by
  obtain ⟨hconfig, helapsed, hlast, hforced⟩ := hfresh
  refine ⟨hdistinct, fun state hstate hsend => ?_, fun k config' hk => ?_⟩
  · rcases hold state hstate with rfl | ⟨hstate, hne⟩
    · exact follows_new (configures_iff.mpr ⟨hconfig ▸ hsend, hnew.symm⟩) hconfig helapsed hlast hforced
    · refine (h.follows state hstate hsend).configured ?_
      rw [Bool.eq_false_iff]
      intro hconfigures
      obtain ⟨hdirection, hkey⟩ := configures_iff.mp hconfigures
      exact hne (Prod.ext (hkey.symm.trans hnew.symm) (by rw [hsend, hconfig, hdirection]))
  · rw [configOf] at hk
    split at hk
    · rename_i hconfigures
      obtain ⟨hdirection, hkey⟩ := configures_iff.mp hconfigures
      exact ⟨new, hmem, hnew.trans hkey, by rw [hconfig, hdirection]⟩
    · rename_i hconfigures
      obtain ⟨state, hstate, hkey, hsend⟩ := h.known k config' hk
      refine ⟨state, hkept state hstate fun hsame => hconfigures ?_, hkey, hsend⟩
      obtain ⟨hkey', hdirection⟩ := Prod.ext_iff.mp hsame
      refine configures_iff.mpr ⟨?_, hnew.symm.trans (hkey'.symm.trans hkey)⟩
      rw [← hconfig]
      exact hdirection.symm.trans hsend

theorem configure_tracks (h : Tracks s) (endpoint : UInt8) (clusterId : UInt16) (config : ReportingConfig) :
    Tracks (step floats s (.configure endpoint clusterId config)) := by
  have hmatch : ∀ state : ReportState, (state.endpoint == endpoint && state.clusterId == clusterId &&
      state.config.attributeId == config.attributeId && state.config.direction == config.direction) = true ↔
      (state.key, state.config.direction) = (⟨endpoint, clusterId, config.attributeId⟩, config.direction) := by
    intro state
    simp [ReportState.key, and_assoc]
  unfold step configureForCluster
  dsimp only
  cases hslot : s.1.states.findIdx? fun state => state.endpoint == endpoint && state.clusterId == clusterId &&
      state.config.attributeId == config.attributeId && state.config.direction == config.direction with
  | some i =>
    obtain ⟨e, hi, he⟩ := Table.getElem?_of_findIdx? hslot
    have hpair := (hmatch e).mp he
    obtain ⟨hendpoint, hcluster, -⟩ : e.endpoint = endpoint ∧ e.clusterId = clusterId ∧ e.config.attributeId = config.attributeId := by
      simpa [ReportState.key] using congrArg Prod.fst hpair
    have hstates := Table.modify_eq_set (f := fun state : ReportState =>
      { state with config, elapsed := 0, lastValue := none, forced := false }) hi
    -- the state keeps its place, its attribute and its direction
    have hnewKey : ReportState.key { e with config, elapsed := 0, lastValue := none, forced := false } =
        ⟨endpoint, clusterId, config.attributeId⟩ := by
      rw [ReportState.key, hendpoint, hcluster]
    refine h.configured ({ e with config, elapsed := 0, lastValue := none, forced := false } : ReportState) hnewKey ⟨rfl, rfl, rfl, rfl⟩
      ?_ ?_ (fun state hstate => ?_) fun state hstate hne => ?_
    · change _ ∈ s.1.states.modify i _
      rw [hstates]
      exact List.mem_set (List.getElem?_eq_some_iff.mp hi).1 _
    · change ((s.1.states.modify i _).map _).Nodup
      rw [hstates, Table.map_set_same hi (by rw [hpair, hnewKey])]
      exact h.distinct
    · change state ∈ s.1.states.modify i _ at hstate
      rw [hstates] at hstate
      refine (Table.mem_set_of_nodup h.distinct hi hstate).imp_right fun hother => ⟨hother.1, ?_⟩
      rw [hnewKey, ← hpair]
      exact hother.2
    · change state ∈ s.1.states.modify i _
      rw [hstates]
      refine (Table.mem_set_of_mem _ hstate).resolve_left fun hsame => hne ?_
      rw [hi] at hsame
      cases hsame
      rw [hpair, hnewKey]
  | none =>
    have hnone : ∀ state ∈ s.1.states,
        (state.key, state.config.direction) ≠ (⟨endpoint, clusterId, config.attributeId⟩, config.direction) :=
      fun state hstate hpair => Bool.eq_false_iff.mp (List.findIdx?_eq_none_iff.mp hslot state hstate) ((hmatch state).mpr hpair)
    by_cases hroom : s.1.states.length < maxConfigs
    · simp only [hroom, dif_pos]
      refine h.configured ⟨endpoint, clusterId, config, 0, none, false⟩ rfl ⟨rfl, rfl, rfl, rfl⟩ (by simp) ?_
        (fun state hstate => ?_) fun state hstate _ => List.mem_append_left _ hstate
      · exact Table.nodup_append_new h.distinct hnone
      · rcases List.mem_append.mp hstate with hstate | hstate
        · exact Or.inr ⟨hstate, hnone state hstate⟩
        · exact Or.inl (List.mem_singleton.mp hstate)
    · simp only [hroom, dite_false]
      exact h

/-! ## Timeliness -/

/-- The states that a collection would report. -/
def dueCount {N : Nat} (floats : FloatSupport) (engine : ReportingEngine maxConfigs) (endpoint : UInt8) (clusterId : UInt16)
    (store : AttributeStore N) : Nat :=
  engine.states.countP fun state => state.config.direction = .send ∧ state.endpoint = endpoint ∧ state.clusterId = clusterId ∧
    (store.get state.config.attributeId).any (state.reportDue floats)

/-- A list has room for the reports that are due, and no reportable change is a negative floating-point number. -/
def Meets (floats : FloatSupport) (s : ReportingEngine maxConfigs × List Event) : Op → Prop
  | .configure _ _ config => config.direction = .send → config.reportableChange.any (·.isNegativeFloat floats) = false
  | .collect endpoint clusterId store out => out.length + dueCount floats s.1 endpoint clusterId store ≤ maxConfigs
  | _ => True

instance (floats : FloatSupport) (s : ReportingEngine maxConfigs × List Event) (op : Op) : Decidable (Meets floats s op) :=
  match op with
  | .configure _ _ config =>
    inferInstanceAs (Decidable (config.direction = .send → config.reportableChange.any (·.isNegativeFloat floats) = false))
  | .collect endpoint clusterId store out =>
    inferInstanceAs (Decidable (out.length + dueCount floats s.1 endpoint clusterId store ≤ maxConfigs))
  | .tick _ => isTrue trivial
  | .forceAllDue => isTrue trivial
  | .report _ _ _ => isTrue trivial

theorem emittedOf_reports (due : ReportState → Option AttributeReport) (states : List ReportState) :
    (emittedOf due states).map (·.2) = states.filterMap due := by
  rw [emittedOf, List.map_filterMap]
  congr 1
  funext state
  cases due state <;> rfl

theorem report_pass (floats : FloatSupport) (engine : ReportingEngine maxConfigs) (filterEp : Option UInt8)
    (filterCluster : Option UInt16) (store : AttributeStore N) :
    let op := Op.report filterEp filterCluster store
    let due := dueReport floats (fun state => op.polls state.key) store
    let result := engine.checkAndReportFiltered floats filterEp filterCluster store
    op.emitted floats engine = emittedOf due engine.states ∧ result.1.states = engine.states.map (afterPass due) ∧
      result.2 = if (engine.states.filterMap due).isEmpty then none else some (engine.states.filterMap due) := by
  intro op due result
  have hroom : ([] : List AttributeReport).length + (engine.states.filterMap due).length ≤ maxConfigs := by
    have := List.length_filterMap_le due engine.states
    have := engine.room
    simp only [List.length_nil]
    omega
  obtain ⟨hpass, htagged⟩ := passLoop_visitDue _ hroom
  have hvisit := visitFiltered_eq maxConfigs floats filterEp filterCluster store
  refine ⟨?_, ?_, ?_⟩
  · change tagged _ _ _ = _
    rw [hvisit, htagged, emittedOf]
  · change (passLoop _ _ _).1 = _
    rw [hvisit, hpass]
  · change (if (passLoop _ _ _).2.isEmpty then none else some (passLoop _ _ _).2) = _
    rw [hvisit, hpass, List.nil_append]

theorem dueCount_eq (engine : ReportingEngine maxConfigs) (endpoint : UInt8) (clusterId : UInt16) (store : AttributeStore N)
    (out : List AttributeReport) :
    (engine.states.filterMap (dueReport floats (fun state => (Op.collect endpoint clusterId store out).polls state.key) store)).length =
      dueCount floats engine endpoint clusterId store := by
  rw [List.length_filterMap_eq_countP, dueCount]
  refine List.countP_congr fun state _ => ?_
  have hpolls : (Op.collect endpoint clusterId store out).polls state.key =
      if state.endpoint = endpoint ∧ state.clusterId = clusterId then store.get state.config.attributeId else none := rfl
  unfold dueReport
  simp only [hpolls]
  by_cases hscope : state.endpoint = endpoint ∧ state.clusterId = clusterId
  · cases hget : store.get state.config.attributeId with
    | none => simp [hscope]
    | some current =>
      obtain ⟨d, hd⟩ := find_of_get hget
      by_cases hsend : state.config.direction = .send <;> by_cases hdue : state.reportDue floats current <;>
        simp [hscope, hsend, hd, hdue]
  · by_cases hsend : state.config.direction = .send <;> simp [hsend, hscope]
    intro h1 h2
    exact absurd ⟨h1, h2⟩ hscope

theorem collect_pass (floats : FloatSupport) (engine : ReportingEngine maxConfigs) (endpoint : UInt8) (clusterId : UInt16)
    (store : AttributeStore N) {out : List AttributeReport}
    (hroom : out.length + dueCount floats engine endpoint clusterId store ≤ maxConfigs) :
    let op := Op.collect endpoint clusterId store out
    let due := dueReport floats (fun state => op.polls state.key) store
    let result := engine.checkAndCollectDyn floats endpoint clusterId store out
    op.emitted floats engine = emittedOf due engine.states ∧ result.1.states = engine.states.map (afterPass due) ∧
      result.2 = out ++ engine.states.filterMap due := by
  intro op due result
  rw [← dueCount_eq engine endpoint clusterId store out] at hroom
  obtain ⟨hpass, htagged⟩ := passLoop_visitDue _ hroom
  have hvisit := visitDyn_eq maxConfigs floats endpoint clusterId store out
  refine ⟨?_, ?_, ?_⟩
  · change tagged _ _ _ = _
    rw [hvisit, htagged, emittedOf]
  · change (passLoop _ _ _).1 = _
    rw [hvisit, hpass]
  · change (passLoop _ _ _).2 = _
    rw [hvisit, hpass]

/-- The state of the run follows its events, and every change that is configured meets the condition. -/
structure Sound (floats : FloatSupport) (s : ReportingEngine maxConfigs × List Event) : Prop where
  tracks : Tracks s
  change : ∀ k config, configOf k s.2 = some config → config.reportableChange.any (·.isNegativeFloat floats) = false

/-- **Every operation that meets the condition keeps the states in step with the events.** -/
theorem step_sound (h : Sound floats s) {op : Op} (hop : Meets floats s op) : Sound floats (step floats s op) := by
  cases op with
  | configure endpoint clusterId config =>
    refine ⟨configure_tracks h.tracks endpoint clusterId config, fun k config' hk => ?_⟩
    unfold step at hk
    dsimp only at hk
    split at hk
    · exact h.change k config' hk
    · rw [configOf] at hk
      split at hk
      · rename_i hconfigures
        cases hk
        exact hop (configures_iff.mp hconfigures).1
      · exact h.change k config' hk
  | tick elapsedSecs => exact ⟨tick_tracks h.tracks elapsedSecs, h.change⟩
  | forceAllDue => exact ⟨forceAllDue_tracks h.tracks, h.change⟩
  | report filterEp filterCluster store =>
    obtain ⟨hemitted, hstates, -⟩ := report_pass floats s.1 filterEp filterCluster store
    refine ⟨?_, h.change⟩
    unfold step
    dsimp only
    rw [hemitted]
    exact h.tracks.pass (fun _ _ hdue => (dueReport_eq_some hdue).1) hstates
  | collect endpoint clusterId store out =>
    obtain ⟨hemitted, hstates, -⟩ := collect_pass floats s.1 endpoint clusterId store hop
    refine ⟨?_, h.change⟩
    unfold step
    dsimp only
    rw [hemitted]
    exact h.tracks.pass (fun _ _ hdue => (dueReport_eq_some hdue).1) hstates

theorem allowed_of_due (h : Follows state events) (hforced : isForced state.key events = false)
    (hdue : state.reportDue floats current = true) : Allowed state.key state.config events := by
  have helapsed := h.elapsed
  unfold ReportState.reportDue at hdue
  rw [h.forced, hforced, if_neg Bool.false_ne_true] at hdue
  split at hdue
  · cases hdue
  · rename_i hmax
    refine ⟨hmax, ?_⟩
    by_cases hmin : state.config.minInterval.toNat ≤ sinceReport state.key events
    · exact Or.inl hmin
    · split at hdue
      · rename_i hperiod
        have hle := UInt16.le_iff_toNat_le.mp hperiod.2
        refine Or.inr ⟨hperiod.1, UInt16.lt_iff_toNat_lt.mpr ?_, ?_⟩ <;> omega
      · split at hdue
        · cases hdue
        · rename_i hlt
          have hle := UInt16.le_iff_toNat_le.mp (UInt16.not_lt.mp hlt)
          omega

theorem due_of_wanted (floats : FloatSupport) (h : Follows state events)
    (hchange : state.config.reportableChange.any (·.isNegativeFloat floats) = false)
    (hwanted : Wanted state.key state.config current events) : state.reportDue floats current = true := by
  have helapsed := h.elapsed
  unfold ReportState.reportDue
  rw [h.forced]
  rcases hwanted with hforced | ⟨hmax, hwhen⟩
  · rw [if_pos hforced]
  · split
    · rfl
    · split
      · rfl
      · rename_i hperiod
        have hmaxLt := state.config.maxInterval.toNat_lt
        have hminLt := state.config.minInterval.toNat_lt
        obtain ⟨hmin, hchanged⟩ : state.config.minInterval.toNat ≤ sinceReport state.key events ∧
            Changed current (lastReported state.key events) state.config.reportableChange := by
          refine hwhen.resolve_left fun hperiod' => hperiod ⟨hperiod'.1, UInt16.le_iff_toNat_le.mpr ?_⟩
          omega
        have hready : ¬ state.elapsed < state.config.minInterval := by
          rw [UInt16.lt_iff_toNat_lt]
          omega
        rw [if_neg hready]
        rw [← h.last] at hchanged
        cases hlast : state.lastValue with
        | none => rfl
        | some last =>
          rw [hlast] at hchanged
          cases hconfig : state.config.reportableChange with
          | none =>
            rw [hconfig] at hchanged
            have hne : last.partialEq current = false := (ZclValue.partialEq_comm current last) ▸ hchanged.2
            simp [hne]
          | some change =>
            rw [hconfig] at hchanged hchange
            exact ZclValue.exceedsThreshold_of_reaches hchanged (by simpa using hchange)

/-- The list that an operation returns: what its list held, and the reports that it adds. -/
def Op.Collects (floats : FloatSupport) (op : Op) (engine : ReportingEngine maxConfigs) (reports : List AttributeReport) : Prop :=
  match op with
  | report filterEp filterCluster store =>
    (engine.checkAndReportFiltered floats filterEp filterCluster store).2 = if reports.isEmpty then none else some reports
  | collect endpoint clusterId store out => (engine.checkAndCollectDyn floats endpoint clusterId store out).2 = out ++ reports
  | _ => reports = []

/-- What the engine owes in a state of a run. -/
structure Timely (floats : FloatSupport) (s : ReportingEngine maxConfigs × List Event) : Prop where
  /-- What is recorded as reported was in a list of reports. -/
  recorded : ∀ state ∈ s.1.states, state.config.direction = .send → state.lastValue = lastReported state.key s.2
  /-- The reports of an operation are in the list that it returns. -/
  collected : ∀ op, Meets floats s op → op.Collects floats s.1 ((op.emitted floats s.1).map (·.2))
  /-- No unforced report comes early, or while automatic reports are off. -/
  allowed : ∀ op, Meets floats s op → ∀ k report, (k, report) ∈ op.emitted floats s.1 → isForced k s.2 = false →
    ∃ config, configOf k s.2 = some config ∧ Allowed k config s.2
  /-- Every report that is asked for comes when the attribute is polled. -/
  produced : ∀ op, Meets floats s op → ∀ k config current, configOf k s.2 = some config → op.polls k = some current →
    Wanted k config current s.2 → ∃ report, (k, report) ∈ op.emitted floats s.1 ∧ report.id = k.attributeId ∧ report.value = current

/-- A pass that reports what is due is timely. -/
theorem Sound.pass (h : Sound floats s) {op : Op} (hpolls : ∀ k v, op.polls k = some v → store.get k.attributeId = some v)
    (hdue : due = dueReport floats (fun state => op.polls state.key) store) :
    (∀ k report, (k, report) ∈ emittedOf due s.1.states → isForced k s.2 = false →
      ∃ config, configOf k s.2 = some config ∧ Allowed k config s.2) ∧
    ∀ k config current, configOf k s.2 = some config → op.polls k = some current → Wanted k config current s.2 →
      ∃ report, (k, report) ∈ emittedOf due s.1.states ∧ report.id = k.attributeId ∧ report.value = current := by
  subst hdue
  refine ⟨fun k report hmem hforced => ?_, fun k config current hconfig hpolled hwanted => ?_⟩
  · obtain ⟨state, hstate, rfl, hreport⟩ := mem_emittedOf.mp hmem
    obtain ⟨hsend, -, -, hdue⟩ := dueReport_eq_some hreport
    have hfollows := h.tracks.follows state hstate hsend
    exact ⟨state.config, hfollows.config, allowed_of_due hfollows hforced hdue⟩
  · obtain ⟨state, hstate, rfl, hsend⟩ := h.tracks.known k config hconfig
    have hfollows := h.tracks.follows state hstate hsend
    obtain rfl : state.config = config := Option.some.inj (hfollows.config.symm.trans hconfig)
    have hdue := due_of_wanted floats hfollows (h.change _ _ hconfig) hwanted
    obtain ⟨report, hreport, hvalue⟩ := dueReport_of_due (fun state => op.polls state.key) hsend hpolled (hpolls _ _ hpolled) hdue
    exact ⟨report, mem_emittedOf.mpr ⟨state, hstate, rfl, hreport⟩, (dueReport_eq_some hreport).2.1, hvalue⟩

theorem report_polls (filterEp : Option UInt8) (filterCluster : Option UInt16) (store : AttributeStore N) (k : ReportKey) (v : ZclValue)
    (h : (Op.report filterEp filterCluster store).polls k = some v) : store.get k.attributeId = some v := by
  unfold Op.polls at h
  dsimp only at h
  split at h
  · cases h
  · exact h

theorem collect_polls (endpoint : UInt8) (clusterId : UInt16) (store : AttributeStore N) (out : List AttributeReport) (k : ReportKey)
    (v : ZclValue) (h : (Op.collect endpoint clusterId store out).polls k = some v) : store.get k.attributeId = some v := by
  unfold Op.polls at h
  dsimp only at h
  split at h
  · exact h
  · cases h

theorem Sound.timely (h : Sound floats s) : Timely floats s where
  recorded := fun state hstate hsend => (h.tracks.follows state hstate hsend).last
  collected := by
    intro op hop
    cases op with
    | report filterEp filterCluster store =>
      obtain ⟨hemitted, -, hlist⟩ := report_pass floats s.1 filterEp filterCluster store
      rw [hemitted, emittedOf_reports]
      exact hlist
    | collect endpoint clusterId store out =>
      obtain ⟨hemitted, -, hlist⟩ := collect_pass floats s.1 endpoint clusterId store hop
      rw [hemitted, emittedOf_reports]
      exact hlist
    | _ => rfl
  allowed := by
    intro op hop
    cases op with
    | report filterEp filterCluster store =>
      rw [(report_pass floats s.1 filterEp filterCluster store).1]
      exact (h.pass (report_polls filterEp filterCluster store) rfl).1
    | collect endpoint clusterId store out =>
      rw [(collect_pass floats s.1 endpoint clusterId store hop).1]
      exact (h.pass (collect_polls endpoint clusterId store out) rfl).1
    | _ => exact fun _ _ hmem => by cases hmem
  produced := by
    intro op hop
    cases op with
    | report filterEp filterCluster store =>
      rw [(report_pass floats s.1 filterEp filterCluster store).1]
      exact (h.pass (report_polls filterEp filterCluster store) rfl).2
    | collect endpoint clusterId store out =>
      rw [(collect_pass floats s.1 endpoint clusterId store hop).1]
      exact (h.pass (collect_polls endpoint clusterId store out) rfl).2
    | _ => exact fun _ _ _ _ hpolled => by cases hpolled

/-- **Both paths agree**: with an empty list, the type-erased collection is the static one. -/
theorem same_paths (floats : FloatSupport) (engine : ReportingEngine maxConfigs) (endpoint : UInt8) (clusterId : UInt16)
    (store : AttributeStore N) :
    engine.checkAndReportFiltered floats (some endpoint) (some clusterId) store =
      let collected := engine.checkAndCollectDyn floats endpoint clusterId store []
      (collected.1, if collected.2.isEmpty then none else some collected.2) := by
  have hvisit : visitFiltered maxConfigs floats (some endpoint) (some clusterId) store =
      visitDyn maxConfigs floats endpoint clusterId store := by
    rw [visitFiltered_eq, visitDyn_eq maxConfigs floats endpoint clusterId store []]
    congr 2
    funext state
    simp only [Op.polls, Option.any_some]
    by_cases hep : state.key.endpoint = endpoint <;> by_cases hcluster : state.key.clusterId = clusterId <;>
      simp [hep, hcluster]
  simp only [checkAndReportFiltered, checkAndCollectDyn, hvisit]
  rfl

/-- **Reports are timely and none is lost**: in every run whose lists have room for what is due, and whose
    reportable changes are not negative floating-point numbers. -/
theorem reports_timely (floats : FloatSupport) (maxConfigs : Nat) (ops : List Op)
    (h : Run.Along (step floats) (Meets floats) ((.new, []) : ReportingEngine maxConfigs × List Event) ops) :
    Timely floats (afterOps floats maxConfigs ops) ∧
    ∀ {N : Nat} (endpoint : UInt8) (clusterId : UInt16) (store : AttributeStore N),
      (afterOps floats maxConfigs ops).1.checkAndReportFiltered floats (some endpoint) (some clusterId) store =
        let collected := (afterOps floats maxConfigs ops).1.checkAndCollectDyn floats endpoint clusterId store []
        (collected.1, if collected.2.isEmpty then none else some collected.2) := by
  have hnew : Sound floats ((.new, []) : ReportingEngine maxConfigs × List Event) := ⟨new_tracks, fun _ _ hk => by cases hk⟩
  have hsound : Sound floats (afterOps floats maxConfigs ops) :=
    Run.run_induct (I := Sound floats) (P := Meets floats) (fun _ _ hs hop => step_sound hs hop) hnew h
  exact ⟨hsound.timely, fun endpoint clusterId store => same_paths floats _ endpoint clusterId store⟩

end

/-! ## Examples -/

def allFloats : FloatSupport := ⟨true, true⟩

/-- A store with one measured value. -/
def measured (value : ZclValue) : AttributeStore 1 := ⟨[⟨⟨0, value.dataType, .reportable⟩, value⟩], by simp⟩

/-- Reports of attribute 0 of a temperature cluster, at any change of `change` or more. -/
def exampleConfig (dataType : ZclDataType) (change : ZclValue) : ReportingConfig := ⟨.send, 0, dataType, 0, 0, some change⟩

/-- A value is reported, changes by less than the reportable change, and then by more. -/
def exampleRun : List Op :=
  [.configure 1 0x0402 (exampleConfig .i16 (.i16 50)), .collect 1 0x0402 (measured (.i16 2000)) [], .tick 10,
    .collect 1 0x0402 (measured (.i16 2049)) [], .tick 10, .collect 1 0x0402 (measured (.i16 1950)) []]

theorem exampleRun_timely : Timely allFloats (afterOps allFloats 4 exampleRun) :=
  (reports_timely allFloats 4 exampleRun (by decide)).1

/-- 0.0 is reported under a reportable change of -1.0. -/
def negativeChangeRun : List Op :=
  [.configure 1 0x0402 (exampleConfig .float32 (.float32 0xBF800000)), .collect 1 0x0402 (measured (.float32 0)) []]

/-- A list without room takes the report of a value. -/
def fullListRun : List Op :=
  [.configure 1 0x0402 (exampleConfig .u8 (.u8 1)), .collect 1 0x0402 (measured (.u8 7)) (List.replicate 4 ⟨9, .u8, .u8 0⟩)]

/-- A change from 0.0 to 100.0 is not reported under a reportable change of -1.0, and a value that a full list
    left out is recorded as reported. -/
theorem negative_change_and_full_list :
    ¬ Timely allFloats (afterOps allFloats 4 negativeChangeRun) ∧ ¬ Timely allFloats (afterOps allFloats 4 fullListRun) := by
  constructor
  · intro h
    have hconfig : configOf ⟨1, 0x0402, 0⟩ (afterOps allFloats 4 negativeChangeRun).2 =
        some (exampleConfig .float32 (.float32 0xBF800000)) := by decide
    have hlast : lastReported ⟨1, 0x0402, 0⟩ (afterOps allFloats 4 negativeChangeRun).2 = some (.float32 0) := by decide
    have hreaches : (ZclValue.float32 0x42C80000).Reaches (.float32 0) (.float32 0xBF800000) :=
      .float32 ⟨rfl, rfl⟩ ⟨rfl, rfl, rfl⟩ ⟨⟨by decide, by decide⟩, by decide, by decide, by decide⟩ (by decide) (by decide)
    have hwanted : Wanted ⟨1, 0x0402, 0⟩ (exampleConfig .float32 (.float32 0xBF800000)) (.float32 0x42C80000)
        (afterOps allFloats 4 negativeChangeRun).2 := by
      refine Or.inr ⟨by decide, Or.inr ⟨Nat.zero_le _, ?_⟩⟩
      rw [hlast]
      exact hreaches
    obtain ⟨report, hmem, -⟩ := h.produced (.collect 1 0x0402 (measured (.float32 0x42C80000)) []) (by decide) _ _ _ hconfig
      (by decide) hwanted
    have hnone : (Op.collect 1 0x0402 (measured (.float32 0x42C80000)) []).emitted allFloats
        (afterOps allFloats 4 negativeChangeRun).1 = [] := by decide
    rw [hnone] at hmem
    cases hmem
  · intro h
    have hstates : (afterOps allFloats 4 fullListRun).1.states = [⟨1, 0x0402, exampleConfig .u8 (.u8 1), 0, some (.u8 7), false⟩] := by
      decide
    have hlast : lastReported ⟨1, 0x0402, 0⟩ (afterOps allFloats 4 fullListRun).2 = none := by decide
    have hrecorded := h.recorded _ (by rw [hstates]; exact List.mem_singleton_self _) rfl
    rw [show ReportState.key ⟨1, 0x0402, exampleConfig .u8 (.u8 1), 0, some (.u8 7), false⟩ = ⟨1, 0x0402, 0⟩ from rfl, hlast] at hrecorded
    cases hrecorded

end Zigbee.Zcl.Reporting
