import Zigbee.Lib.Run
import Zigbee.Zcl.Attribute

/-!
# Poll Control cluster

Model of `zigbee-zcl/src/clusters/poll_control.rs`: the settings of a sleepy device, in an attribute
store, and the four entry points that change them.

* `Consistent` — the orderings and limits of the settings, as `isValid` checks them.
* `storeOf` — the attribute store that a configuration stands for.
* `step_kept` — every operation leaves the store of consistent settings, or is refused.
* `settings_consistent` — so the settings are consistent along every run, and can be restored.
-/

namespace Zigbee.Zcl.PollControl

open Bytes AttributeStore

def ATTR_CHECK_IN_INTERVAL : AttributeId := 0x0000

def ATTR_LONG_POLL_INTERVAL : AttributeId := 0x0001

def ATTR_SHORT_POLL_INTERVAL : AttributeId := 0x0002

def ATTR_FAST_POLL_TIMEOUT : AttributeId := 0x0003

def ATTR_CHECK_IN_INTERVAL_MIN : AttributeId := 0x0004

def ATTR_LONG_POLL_INTERVAL_MIN : AttributeId := 0x0005

def ATTR_FAST_POLL_TIMEOUT_MAX : AttributeId := 0x0006

def CMD_CHECK_IN_RESPONSE : UInt8 := 0x00

def CMD_FAST_POLL_STOP : UInt8 := 0x01

def CMD_SET_LONG_POLL_INTERVAL : UInt8 := 0x02

def CMD_SET_SHORT_POLL_INTERVAL : UInt8 := 0x03

/-- Largest LongPollInterval and CheckInInterval, in quarter-seconds. -/
def MAX_POLL_INTERVAL : UInt32 := 0x006E0000

/-- Product power-on values and limits, in quarter-seconds. -/
structure PollControlConfig where
  checkInInterval : UInt32
  longPollInterval : UInt32
  shortPollInterval : UInt16
  fastPollTimeout : UInt16
  checkInIntervalMin : UInt32
  longPollIntervalMin : UInt32
  fastPollTimeoutMax : UInt16
  /-- 0: only the ZCL range limit applies. -/
  longPollIntervalMax : UInt32
  checkInResponseTimeout : UInt16
  deriving DecidableEq

/-- The limit on LongPollInterval that the product sets, or the ZCL one. -/
def PollControlConfig.longMax (config : PollControlConfig) : UInt32 :=
  if config.longPollIntervalMax = 0 then MAX_POLL_INTERVAL else config.longPollIntervalMax

def PollControlConfig.isValid (config : PollControlConfig) : Bool :=
  4 ≤ config.longPollInterval && config.longPollInterval ≤ config.longMax && config.longMax ≤ MAX_POLL_INTERVAL &&
  config.longPollIntervalMin ≤ config.longPollInterval && config.shortPollInterval != 0 &&
  config.shortPollInterval.toUInt32 ≤ config.longPollInterval &&
  (config.checkInInterval == 0 ||
    (config.checkInInterval ≤ MAX_POLL_INTERVAL && config.checkInIntervalMin ≤ config.checkInInterval &&
      config.longPollInterval ≤ config.checkInInterval)) &&
  config.fastPollTimeout != 0 &&
  (config.fastPollTimeoutMax == 0 || config.fastPollTimeout ≤ config.fastPollTimeoutMax) &&
  config.checkInResponseTimeout != 0

/-- The values that a client can change. -/
structure PollControlState where
  checkInInterval : UInt32
  longPollInterval : UInt32
  shortPollInterval : UInt16
  fastPollTimeout : UInt16
  deriving DecidableEq

/-- `PollControlConfig { .., ..config }`: the product's limits with other values. -/
def PollControlConfig.withState (config : PollControlConfig) (state : PollControlState) : PollControlConfig :=
  { config with
    checkInInterval := state.checkInInterval
    longPollInterval := state.longPollInterval
    shortPollInterval := state.shortPollInterval
    fastPollTimeout := state.fastPollTimeout }

inductive FastPollEvent where
  | start (timeoutQs : UInt16)
  | stop
  deriving DecidableEq

structure PollControlCluster where
  store : AttributeStore 7
  config : PollControlConfig
  fastPollEvent : Option FastPollEvent
  fastPolling : Bool
  ticksSinceCheckin : UInt32
  fastPollRemaining : UInt16

/-- The attributes, with the values of a configuration. -/
def attributesOf (config : PollControlConfig) : List (AttributeDefinition × ZclValue) :=
  [(⟨ATTR_CHECK_IN_INTERVAL, .u32, .readWrite⟩, .u32 config.checkInInterval),
    (⟨ATTR_LONG_POLL_INTERVAL, .u32, .readOnly⟩, .u32 config.longPollInterval),
    (⟨ATTR_SHORT_POLL_INTERVAL, .u16, .readOnly⟩, .u16 config.shortPollInterval),
    (⟨ATTR_FAST_POLL_TIMEOUT, .u16, .readWrite⟩, .u16 config.fastPollTimeout),
    (⟨ATTR_CHECK_IN_INTERVAL_MIN, .u32, .readOnly⟩, .u32 config.checkInIntervalMin),
    (⟨ATTR_LONG_POLL_INTERVAL_MIN, .u32, .readOnly⟩, .u32 config.longPollIntervalMin),
    (⟨ATTR_FAST_POLL_TIMEOUT_MAX, .u16, .readOnly⟩, .u16 config.fastPollTimeoutMax)]

def storeOf (config : PollControlConfig) : AttributeStore 7 :=
  (attributesOf config).foldl registerIgnored AttributeStore.new

namespace PollControlCluster

def withConfig (config : PollControlConfig) : PollControlCluster :=
  ⟨storeOf config, config, none, false, 0, 0⟩

def u32Attr (c : PollControlCluster) (id : AttributeId) : UInt32 :=
  match c.store.get id with
  | some (.u32 v) => v
  | some (.u16 v) => v.toUInt32
  | _ => 0

/-- Current client-changeable values. -/
def state (c : PollControlCluster) : PollControlState where
  checkInInterval := c.u32Attr ATTR_CHECK_IN_INTERVAL
  longPollInterval := c.u32Attr ATTR_LONG_POLL_INTERVAL
  shortPollInterval := (c.u32Attr ATTR_SHORT_POLL_INTERVAL).toUInt16
  fastPollTimeout := (c.u32Attr ATTR_FAST_POLL_TIMEOUT).toUInt16

def setRawIgnored (c : PollControlCluster) (id : AttributeId) (value : ZclValue) : PollControlCluster :=
  { c with store := c.store.setRawIgnored id value }

/-- Apply persisted values, and whether they were applied. -/
def restoreState (c : PollControlCluster) (state : PollControlState) : PollControlCluster × Bool :=
  if (c.config.withState state).isValid then
    ((((c.setRawIgnored ATTR_CHECK_IN_INTERVAL (.u32 state.checkInInterval)).setRawIgnored
          ATTR_LONG_POLL_INTERVAL (.u32 state.longPollInterval)).setRawIgnored
        ATTR_SHORT_POLL_INTERVAL (.u16 state.shortPollInterval)).setRawIgnored
      ATTR_FAST_POLL_TIMEOUT (.u16 state.fastPollTimeout), true)
  else (c, false)

/-- FastPollTimeout values are non-zero, and keep to the product's maximum if it has one. -/
def fastPollTimeoutOk (c : PollControlCluster) (v : UInt16) : Bool :=
  v != 0 && (c.u32Attr ATTR_FAST_POLL_TIMEOUT_MAX == 0 || v.toUInt32 ≤ c.u32Attr ATTR_FAST_POLL_TIMEOUT_MAX)

/-- Range and ordering rules for the poll intervals. -/
def checkValue (c : PollControlCluster) (id : AttributeId) (value : ZclValue) : Except ZclStatus Unit :=
  let ok :=
    match value with
    | .u32 v =>
      if id = ATTR_CHECK_IN_INTERVAL then
        v == 0 || (v ≤ MAX_POLL_INTERVAL && c.u32Attr ATTR_CHECK_IN_INTERVAL_MIN ≤ v &&
          c.u32Attr ATTR_LONG_POLL_INTERVAL ≤ v)
      else true
    | .u16 v => if id = ATTR_FAST_POLL_TIMEOUT then c.fastPollTimeoutOk v else true
    | _ => true
  if ok then .ok () else .error .invalidValue

def validateSet (c : PollControlCluster) (id : AttributeId) (value : ZclValue) : Except ZclStatus Unit := do
  c.store.validateSet id value
  c.checkValue id value

/-- An attribute write goes through the cluster, so that the rules are enforced. -/
def set (c : PollControlCluster) (id : AttributeId) (value : ZclValue) : PollControlCluster × Except ZclStatus Unit :=
  match c.validateSet id value with
  | .error e => (c, .error e)
  | .ok _ =>
    match c.store.set id value with
    | .error e => (c, .error e)
    | .ok store => ({ c with store }, .ok ())

/-- Enter fast-polling mode, in quarter-seconds. -/
def setFastPolling (c : PollControlCluster) (timeout : UInt16) : PollControlCluster :=
  { c with fastPollRemaining := timeout, fastPolling := timeout != 0 }

/-- The fast-poll timeout that a Check-in Response asks for; zero stands for the attribute. -/
def responseTimeout (c : PollControlCluster) (requested : UInt16) : Except ZclStatus UInt16 :=
  if requested = 0 then .ok (c.u32Attr ATTR_FAST_POLL_TIMEOUT).toUInt16
  else if c.fastPollTimeoutOk requested then .ok requested
  else .error .invalidField

/-- The end of an interval command: the attribute is replaced, and the response is empty. -/
def replaceInterval (c : PollControlCluster) (id : AttributeId) (value : ZclValue) :
    PollControlCluster × Except ZclStatus Buf :=
  match c.store.setRaw id value with
  | .error e => (c, .error e)
  | .ok store => ({ c with store }, .ok [])

def handleCommand (c : PollControlCluster) (cmdId : UInt8) (payload : Buf) :
    PollControlCluster × Except ZclStatus Buf :=
  if cmdId = CMD_CHECK_IN_RESPONSE then
    if payload.length < 3 then (c, .error .malformedCommand)
    else if u8At payload 0 ≠ 0 then
      match c.responseTimeout (u16At payload 1) with
      | .error e => (c, .error e)
      | .ok timeout => ({ c.setFastPolling timeout with fastPollEvent := some (.start timeout) }, .ok [])
    else ({ c with fastPolling := false, fastPollEvent := some .stop }, .ok [])
  else if cmdId = CMD_FAST_POLL_STOP then ({ c with fastPolling := false, fastPollEvent := some .stop }, .ok [])
  else if cmdId = CMD_SET_LONG_POLL_INTERVAL then
    if payload.length < 4 then (c, .error .malformedCommand)
    else
      let interval := u32At payload 0
      let checkIn := c.u32Attr ATTR_CHECK_IN_INTERVAL
      if ¬ (4 ≤ interval ∧ interval ≤ c.config.longMax) ∨ interval < c.u32Attr ATTR_LONG_POLL_INTERVAL_MIN ∨
          interval < c.u32Attr ATTR_SHORT_POLL_INTERVAL ∨ (checkIn ≠ 0 ∧ checkIn < interval) then
        (c, .error .invalidValue)
      else c.replaceInterval ATTR_LONG_POLL_INTERVAL (.u32 interval)
  else if cmdId = CMD_SET_SHORT_POLL_INTERVAL then
    if payload.length < 2 then (c, .error .malformedCommand)
    else
      let interval := u16At payload 0
      if interval = 0 ∨ c.u32Attr ATTR_LONG_POLL_INTERVAL < interval.toUInt32 then (c, .error .invalidValue)
      else c.replaceInterval ATTR_SHORT_POLL_INTERVAL (.u16 interval)
  else (c, .error .unsupClusterCommand)

def resetToFactoryDefaults (c : PollControlCluster) : PollControlCluster :=
  { (((c.setRawIgnored ATTR_CHECK_IN_INTERVAL (.u32 c.config.checkInInterval)).setRawIgnored
        ATTR_FAST_POLL_TIMEOUT (.u16 c.config.fastPollTimeout)).setRawIgnored
      ATTR_LONG_POLL_INTERVAL (.u32 c.config.longPollInterval)).setRawIgnored
    ATTR_SHORT_POLL_INTERVAL (.u16 c.config.shortPollInterval) with
    fastPollEvent := none
    fastPolling := false
    ticksSinceCheckin := 0
    fastPollRemaining := 0 }

/-- The fast-poll countdown of a quarter-second. -/
def countDown (c : PollControlCluster) : PollControlCluster :=
  if c.fastPolling && 0 < c.fastPollRemaining then
    { c with
      fastPollRemaining := c.fastPollRemaining - 1
      fastPolling := if c.fastPollRemaining - 1 = 0 then false else c.fastPolling }
  else c

/-- One quarter-second, and whether a Check-in is due. -/
def tick (c : PollControlCluster) : PollControlCluster × Bool :=
  let c := c.countDown
  let checkInInterval :=
    match c.store.get ATTR_CHECK_IN_INTERVAL with
    | some (.u32 v) => v
    | _ => 14400
  if checkInInterval = 0 then (c, false)
  else if checkInInterval ≤ c.ticksSinceCheckin + 1 then ({ c with ticksSinceCheckin := 0 }, true)
  else ({ c with ticksSinceCheckin := c.ticksSinceCheckin + 1 }, false)

def takeFastPollEvent (c : PollControlCluster) : PollControlCluster × Option FastPollEvent :=
  ({ c with fastPollEvent := none }, c.fastPollEvent)

end PollControlCluster

/-! ## Operations -/

/-- An attribute write, a command, or a call of the product. -/
inductive Op where
  | write (id : AttributeId) (value : ZclValue)
  | command (cmdId : UInt8) (payload : Buf)
  | restore (state : PollControlState)
  | reset
  | tick
  | setFastPolling (timeout : UInt16)
  | takeFastPollEvent

/-- One operation, and whether it was refused. -/
def PollControlCluster.step (c : PollControlCluster) : Op → PollControlCluster × Bool
  | .write id value => ((c.set id value).1, !(c.set id value).2.isOk)
  | .command cmdId payload => ((c.handleCommand cmdId payload).1, !(c.handleCommand cmdId payload).2.isOk)
  | .restore state => ((c.restoreState state).1, !(c.restoreState state).2)
  | .reset => (c.resetToFactoryDefaults, false)
  | .tick => (c.tick.1, false)
  | .setFastPolling timeout => (c.setFastPolling timeout, false)
  | .takeFastPollEvent => (c.takeFastPollEvent.1, false)

/-! ## The settings -/

/-- The settings respect their order and the product's limits. -/
structure Consistent (config : PollControlConfig) (s : PollControlState) : Prop where
  short_pos : s.shortPollInterval ≠ 0
  short_le_long : s.shortPollInterval.toUInt32 ≤ s.longPollInterval
  long_le_checkIn : s.checkInInterval ≠ 0 → s.longPollInterval ≤ s.checkInInterval
  long_ge : 4 ≤ s.longPollInterval ∧ config.longPollIntervalMin ≤ s.longPollInterval
  long_le : s.longPollInterval ≤ config.longMax
  checkIn_ge : s.checkInInterval ≠ 0 → config.checkInIntervalMin ≤ s.checkInInterval
  checkIn_le : s.checkInInterval ≠ 0 → s.checkInInterval ≤ MAX_POLL_INTERVAL
  fast_pos : s.fastPollTimeout ≠ 0
  fast_le : config.fastPollTimeoutMax ≠ 0 → s.fastPollTimeout ≤ config.fastPollTimeoutMax

/-- The values of a configuration that a client can change. -/
def PollControlConfig.values (config : PollControlConfig) : PollControlState :=
  ⟨config.checkInInterval, config.longPollInterval, config.shortPollInterval, config.fastPollTimeout⟩

variable {config : PollControlConfig} {s : PollControlState} {c : PollControlCluster}

open PollControlConfig

/-- Under valid limits, a state is valid exactly when it is consistent. -/
theorem isValid_withState (hvalid : config.isValid = true) : (config.withState s).isValid = true ↔ Consistent config s := by
  have hmax : (config.withState s).longMax = config.longMax := rfl
  simp only [isValid, Bool.and_eq_true, decide_eq_true_eq, bne_iff_ne] at hvalid
  obtain ⟨⟨⟨⟨⟨⟨⟨⟨-, hlimit⟩, -⟩, -⟩, -⟩, -⟩, -⟩, -⟩, hresponse⟩ := hvalid
  simp only [isValid, hmax, Bool.and_eq_true, Bool.or_eq_true, decide_eq_true_eq, bne_iff_ne,
    beq_iff_eq]
  constructor
  · rintro ⟨⟨⟨⟨⟨⟨⟨⟨⟨h4, hmaxle⟩, -⟩, hmin⟩, hshort⟩, horder⟩, hcheckIn⟩, hfast⟩, hfastMax⟩, -⟩
    exact ⟨hshort, horder, fun h => (hcheckIn.resolve_left h).2, ⟨h4, hmin⟩, hmaxle,
      fun h => (hcheckIn.resolve_left h).1.2, fun h => (hcheckIn.resolve_left h).1.1, hfast,
      fun h => hfastMax.resolve_left h⟩
  · intro h
    refine ⟨⟨⟨⟨⟨⟨⟨⟨⟨h.long_ge.1, h.long_le⟩, hlimit⟩, h.long_ge.2⟩, h.short_pos⟩, h.short_le_long⟩, ?_⟩, h.fast_pos⟩, ?_⟩,
      hresponse⟩
    · exact or_iff_not_imp_left.mpr fun h0 => ⟨⟨h.checkIn_le h0, h.checkIn_ge h0⟩, h.long_le_checkIn h0⟩
    · exact or_iff_not_imp_left.mpr h.fast_le

/-! ## The attribute store of a configuration -/

theorem storeOf_attrs (config : PollControlConfig) :
    (storeOf config).attrs = (attributesOf config).map fun x => ⟨x.1, x.2⟩ :=
  foldl_registerIgnored_attrs (attributesOf config) .new (le_refl 7)

/-- The attributes, in the order of their slots. -/
def attributeIds : List AttributeId :=
  [ATTR_CHECK_IN_INTERVAL, ATTR_LONG_POLL_INTERVAL, ATTR_SHORT_POLL_INTERVAL, ATTR_FAST_POLL_TIMEOUT,
    ATTR_CHECK_IN_INTERVAL_MIN, ATTR_LONG_POLL_INTERVAL_MIN, ATTR_FAST_POLL_TIMEOUT_MAX]

theorem findIdx?_storeOf (config : PollControlConfig) (id : AttributeId) :
    (storeOf config).attrs.findIdx? (·.definition.id == id) = attributeIds.findIdx? (· == id) := by
  have hids : attributeIds = (storeOf config).attrs.map (·.definition.id) := by
    rw [storeOf_attrs]
    rfl
  rw [hids, List.findIdx?_map]
  rfl

variable {value : ZclValue}

/-- A write to a slot turns the store of a configuration into that of another. -/
theorem setSlot_storeOf {config config' : PollControlConfig} {idx : Nat}
    (hvalue : ((attributesOf config).map fun x => (⟨x.1, x.2⟩ : AttributeValue)).modify idx (fun a => { a with value }) =
      (attributesOf config').map fun x => ⟨x.1, x.2⟩) : (storeOf config).setSlot idx value = storeOf config' := by
  apply AttributeStore.ext
  rw [setSlot_attrs, storeOf_attrs, storeOf_attrs, hvalue]

variable {id : AttributeId}

theorem setRaw_storeOf {config config' : PollControlConfig} (idx : Nat) (hslot : attributeIds.findIdx? (· == id) = some idx)
    (hvalue : ((attributesOf config).map fun x => (⟨x.1, x.2⟩ : AttributeValue)).modify idx (fun a => { a with value }) =
      (attributesOf config').map fun x => ⟨x.1, x.2⟩) : (storeOf config).setRaw id value = .ok (storeOf config') := by
  rw [setRaw, findIdx?_storeOf, hslot, ← setSlot_storeOf hvalue]

theorem setRaw_checkIn (config : PollControlConfig) (v : UInt32) :
    (storeOf config).setRaw ATTR_CHECK_IN_INTERVAL (.u32 v) = .ok (storeOf { config with checkInInterval := v }) :=
  setRaw_storeOf 0 (by decide) rfl

theorem setRaw_long (config : PollControlConfig) (v : UInt32) :
    (storeOf config).setRaw ATTR_LONG_POLL_INTERVAL (.u32 v) = .ok (storeOf { config with longPollInterval := v }) :=
  setRaw_storeOf 1 (by decide) rfl

theorem setRaw_short (config : PollControlConfig) (v : UInt16) :
    (storeOf config).setRaw ATTR_SHORT_POLL_INTERVAL (.u16 v) = .ok (storeOf { config with shortPollInterval := v }) :=
  setRaw_storeOf 2 (by decide) rfl

theorem setRaw_fast (config : PollControlConfig) (v : UInt16) :
    (storeOf config).setRaw ATTR_FAST_POLL_TIMEOUT (.u16 v) = .ok (storeOf { config with fastPollTimeout := v }) :=
  setRaw_storeOf 3 (by decide) rfl

theorem get_storeOf {config : PollControlConfig} {x : AttributeDefinition × ZclValue} (idx : Nat)
    (hslot : attributeIds.findIdx? (· == id) = some idx) (hx : (attributesOf config)[idx]? = some x) :
    (storeOf config).get id = some x.2 := by
  rw [← findIdx?_storeOf config] at hslot
  obtain ⟨-, hidx⟩ := List.findIdx?_eq_some_iff_findIdx_eq.mp hslot
  rw [AttributeStore.get, List.find?_eq_getElem?_findIdx, hidx, storeOf_attrs, List.getElem?_map, hx]
  rfl

/-- What the cluster reads of its attributes. -/
structure Reads (c : PollControlCluster) (config : PollControlConfig) : Prop where
  checkIn : c.u32Attr ATTR_CHECK_IN_INTERVAL = config.checkInInterval
  long : c.u32Attr ATTR_LONG_POLL_INTERVAL = config.longPollInterval
  short : c.u32Attr ATTR_SHORT_POLL_INTERVAL = config.shortPollInterval.toUInt32
  fast : c.u32Attr ATTR_FAST_POLL_TIMEOUT = config.fastPollTimeout.toUInt32
  checkInMin : c.u32Attr ATTR_CHECK_IN_INTERVAL_MIN = config.checkInIntervalMin
  longMin : c.u32Attr ATTR_LONG_POLL_INTERVAL_MIN = config.longPollIntervalMin
  fastMax : c.u32Attr ATTR_FAST_POLL_TIMEOUT_MAX = config.fastPollTimeoutMax.toUInt32

open PollControlCluster

theorem reads_of_store (h : c.store = storeOf config) : Reads c config := by
  constructor
  · rw [u32Attr, h, get_storeOf 0 (by decide) rfl]
  · rw [u32Attr, h, get_storeOf 1 (by decide) rfl]
  · rw [u32Attr, h, get_storeOf 2 (by decide) rfl]
  · rw [u32Attr, h, get_storeOf 3 (by decide) rfl]
  · rw [u32Attr, h, get_storeOf 4 (by decide) rfl]
  · rw [u32Attr, h, get_storeOf 5 (by decide) rfl]
  · rw [u32Attr, h, get_storeOf 6 (by decide) rfl]

/-- Only two attributes can be written, each with a value of its type. -/
theorem resolve_storeOf {config : PollControlConfig} {idx : Nat} (h : resolveWritableSlot (storeOf config).attrs id value = .ok idx) :
    (id = ATTR_CHECK_IN_INTERVAL ∧ ∃ v, value = .u32 v) ∨ (id = ATTR_FAST_POLL_TIMEOUT ∧ ∃ v, value = .u16 v) := by
  unfold resolveWritableSlot at h
  cases hslot : (storeOf config).attrs.findIdx? (·.definition.id == id) with
  | none =>
    rw [hslot] at h
    cases h
  | some i =>
    rw [hslot] at h
    obtain ⟨a, hi, ha⟩ := Table.getElem?_of_findIdx? hslot
    simp only [hi] at h
    split at h
    · cases h
    · split at h
      · cases h
      · rename_i haccess htype
        have hid : a.definition.id = id := beq_iff_eq.mp ha
        have hmem := List.mem_of_getElem? hi
        rw [storeOf_attrs] at hmem
        simp only [attributesOf, List.map_cons, List.map_nil, List.mem_cons, List.not_mem_nil, or_false] at hmem
        rcases hmem with rfl | rfl | rfl | rfl | rfl | rfl | rfl
        · exact Or.inl ⟨hid.symm, ZclValue.eq_u32_of_dataType (not_not.mp htype)⟩
        · exact absurd rfl haccess
        · exact absurd rfl haccess
        · exact Or.inr ⟨hid.symm, ZclValue.eq_u16_of_dataType (not_not.mp htype)⟩
        · exact absurd rfl haccess
        · exact absurd rfl haccess
        · exact absurd rfl haccess

theorem resolve_checkIn (config : PollControlConfig) (v : UInt32) :
    resolveWritableSlot (storeOf config).attrs ATTR_CHECK_IN_INTERVAL (.u32 v) = .ok 0 := by
  have hslot : attributeIds.findIdx? (· == ATTR_CHECK_IN_INTERVAL) = some 0 := by decide
  rw [resolveWritableSlot, findIdx?_storeOf, hslot, storeOf_attrs]
  rfl

theorem resolve_fast (config : PollControlConfig) (v : UInt16) :
    resolveWritableSlot (storeOf config).attrs ATTR_FAST_POLL_TIMEOUT (.u16 v) = .ok 3 := by
  have hslot : attributeIds.findIdx? (· == ATTR_FAST_POLL_TIMEOUT) = some 3 := by decide
  rw [resolveWritableSlot, findIdx?_storeOf, hslot, storeOf_attrs]
  rfl

/-! ## One operation -/

/-- The cluster stands for the product's configuration with the settings `s`. -/
structure Keeps (config : PollControlConfig) (c : PollControlCluster) (s : PollControlState) : Prop where
  config_eq : c.config = config
  store_eq : c.store = storeOf (config.withState s)

theorem Keeps.reads (h : Keeps config c s) : Reads c (config.withState s) := reads_of_store h.store_eq

theorem Keeps.state_eq (h : Keeps config c s) : c.state = s := by
  have hr := h.reads
  rw [state, hr.checkIn, hr.long, hr.short, hr.fast]
  simp [PollControlConfig.withState]

theorem withConfig_keeps (config : PollControlConfig) : Keeps config (.withConfig config) config.values where
  config_eq := by dsimp only [withConfig]
  store_eq := by dsimp only [withConfig, PollControlConfig.withState, PollControlConfig.values]

theorem Keeps.withStore (h : Keeps config c s) (s' : PollControlState) :
    Keeps config { c with store := storeOf (config.withState s') } s' where
  config_eq := by
    dsimp only
    exact h.config_eq
  store_eq := by dsimp only

/-- Writing all four settings. -/
theorem setRaw_all (config : PollControlConfig) (s s' : PollControlState) :
    ((((storeOf (config.withState s)).setRawIgnored ATTR_CHECK_IN_INTERVAL (.u32 s'.checkInInterval)).setRawIgnored
          ATTR_LONG_POLL_INTERVAL (.u32 s'.longPollInterval)).setRawIgnored
        ATTR_SHORT_POLL_INTERVAL (.u16 s'.shortPollInterval)).setRawIgnored
      ATTR_FAST_POLL_TIMEOUT (.u16 s'.fastPollTimeout) = storeOf (config.withState s') := by
  simp only [AttributeStore.setRawIgnored, setRaw_checkIn, setRaw_long, setRaw_short, setRaw_fast,
    PollControlConfig.withState]

/-- A consistent state is restored, any other refused. -/
theorem restoreState_eq (h : Keeps config c s) (hvalid : config.isValid = true) {s' : PollControlState} :
    (Consistent config s' → c.restoreState s' = ({ c with store := storeOf (config.withState s') }, true)) ∧
    (¬ Consistent config s' → c.restoreState s' = (c, false)) := by
  have hiff : (c.config.withState s').isValid = true ↔ Consistent config s' := by
    rw [h.config_eq]
    exact isValid_withState hvalid
  unfold restoreState
  constructor
  · intro hs
    rw [if_pos (hiff.mpr hs)]
    simp only [PollControlCluster.setRawIgnored, h.store_eq, setRaw_all]
  · exact fun hs => if_neg fun hok => hs (hiff.mp hok)

/-- What an operation may do: it is refused and changes nothing, or the settings stay consistent. -/
structure Kept (config : PollControlConfig) (c c' : PollControlCluster) (refused : Bool) : Prop where
  keeps : ∃ s', Keeps config c' s' ∧ Consistent config s'
  unchanged : refused = true → c' = c

theorem Keeps.refuse (h : Keeps config c s) (hs : Consistent config s) (refused : Bool) : Kept config c c refused :=
  ⟨⟨s, h, hs⟩, fun _ => rfl⟩

/-- A change beside the settings. -/
theorem Keeps.beside (h : Keeps config c s) (hs : Consistent config s) {c' : PollControlCluster}
    (hconfig : c'.config = c.config) (hstore : c'.store = c.store) : Kept config c c' false :=
  ⟨⟨s, ⟨hconfig.trans h.config_eq, hstore.trans h.store_eq⟩, hs⟩, fun h => by cases h⟩

theorem fastPollTimeoutOk_iff (h : Keeps config c s) {v : UInt16} :
    c.fastPollTimeoutOk v = true ↔ v ≠ 0 ∧ (config.fastPollTimeoutMax ≠ 0 → v ≤ config.fastPollTimeoutMax) := by
  have hmax : c.u32Attr ATTR_FAST_POLL_TIMEOUT_MAX = config.fastPollTimeoutMax.toUInt32 := h.reads.fastMax
  have hzero : config.fastPollTimeoutMax.toUInt32 = 0 ↔ config.fastPollTimeoutMax = 0 := by
    rw [← UInt32.toNat_inj, ← UInt16.toNat_inj]
    simp
  simp only [fastPollTimeoutOk, hmax, Bool.and_eq_true, Bool.or_eq_true, bne_iff_ne, beq_iff_eq,
    decide_eq_true_eq, hzero, UInt16.toUInt32_le, or_iff_not_imp_left]

theorem checkValue_checkIn (h : Keeps config c s) {v : UInt32}
    (hok : c.checkValue ATTR_CHECK_IN_INTERVAL (.u32 v) = .ok ()) :
    v ≠ 0 → v ≤ MAX_POLL_INTERVAL ∧ config.checkInIntervalMin ≤ v ∧ s.longPollInterval ≤ v := by
  have hmin : c.u32Attr ATTR_CHECK_IN_INTERVAL_MIN = config.checkInIntervalMin := h.reads.checkInMin
  have hlong : c.u32Attr ATTR_LONG_POLL_INTERVAL = s.longPollInterval := h.reads.long
  intro hv
  simp only [checkValue, if_true, hmin, hlong] at hok
  split at hok
  · rename_i hcond
    simpa [hv, and_assoc] using hcond
  · cases hok

theorem checkValue_fast {v : UInt16} (hok : c.checkValue ATTR_FAST_POLL_TIMEOUT (.u16 v) = .ok ()) :
    c.fastPollTimeoutOk v = true := by
  simp only [checkValue, if_true] at hok
  split at hok
  · assumption
  · cases hok

theorem set_kept (h : Keeps config c s) (hs : Consistent config s) (id : AttributeId) (value : ZclValue) :
    Kept config c (c.set id value).1 (!(c.set id value).2.isOk) := by
  unfold PollControlCluster.set PollControlCluster.validateSet AttributeStore.validateSet AttributeStore.set
  rw [h.store_eq]
  cases hslot : resolveWritableSlot (storeOf (config.withState s)).attrs id value with
  | error e => exact h.refuse hs _
  | ok idx =>
    simp only [Except.bind, bind]
    cases hcheck : c.checkValue id value with
    | error e => exact h.refuse hs _
    | ok _ =>
      refine ⟨?_, fun hrefused => by cases hrefused⟩
      rcases resolve_storeOf hslot with ⟨rfl, v, rfl⟩ | ⟨rfl, v, rfl⟩
      · rw [resolve_checkIn] at hslot
        cases hslot
        have hv := checkValue_checkIn h hcheck
        refine ⟨{ s with checkInInterval := v }, ⟨h.config_eq, ?_⟩, { hs with
          long_le_checkIn := fun h0 => (hv h0).2.2
          checkIn_ge := fun h0 => (hv h0).2.1
          checkIn_le := fun h0 => (hv h0).1 }⟩
        exact setSlot_storeOf rfl
      · rw [resolve_fast] at hslot
        cases hslot
        obtain ⟨hpos, hmax⟩ := (fastPollTimeoutOk_iff h).mp (checkValue_fast hcheck)
        refine ⟨{ s with fastPollTimeout := v }, ⟨h.config_eq, ?_⟩, { hs with fast_pos := hpos, fast_le := hmax }⟩
        exact setSlot_storeOf rfl

theorem replaceLong_kept (h : Keeps config c s) {v : UInt32} (hs : Consistent config { s with longPollInterval := v }) :
    Kept config c (c.replaceInterval ATTR_LONG_POLL_INTERVAL (.u32 v)).1
      (!(c.replaceInterval ATTR_LONG_POLL_INTERVAL (.u32 v)).2.isOk) := by
  have hconfig : { config.withState s with longPollInterval := v } = config.withState { s with longPollInterval := v } := rfl
  rw [replaceInterval, h.store_eq, setRaw_long, hconfig]
  exact ⟨⟨{ s with longPollInterval := v }, h.withStore _, hs⟩, fun hrefused => by cases hrefused⟩

theorem replaceShort_kept (h : Keeps config c s) {v : UInt16} (hs : Consistent config { s with shortPollInterval := v }) :
    Kept config c (c.replaceInterval ATTR_SHORT_POLL_INTERVAL (.u16 v)).1
      (!(c.replaceInterval ATTR_SHORT_POLL_INTERVAL (.u16 v)).2.isOk) := by
  have hconfig : { config.withState s with shortPollInterval := v } = config.withState { s with shortPollInterval := v } := rfl
  rw [replaceInterval, h.store_eq, setRaw_short, hconfig]
  exact ⟨⟨{ s with shortPollInterval := v }, h.withStore _, hs⟩, fun hrefused => by cases hrefused⟩

theorem handleCommand_kept (h : Keeps config c s) (hs : Consistent config s) (cmdId : UInt8) (payload : Buf) :
    Kept config c (c.handleCommand cmdId payload).1 (!(c.handleCommand cmdId payload).2.isOk) := by
  have hcheckIn : c.u32Attr ATTR_CHECK_IN_INTERVAL = s.checkInInterval := h.reads.checkIn
  have hlong : c.u32Attr ATTR_LONG_POLL_INTERVAL = s.longPollInterval := h.reads.long
  have hshort : c.u32Attr ATTR_SHORT_POLL_INTERVAL = s.shortPollInterval.toUInt32 := h.reads.short
  have hmin : c.u32Attr ATTR_LONG_POLL_INTERVAL_MIN = config.longPollIntervalMin := h.reads.longMin
  unfold handleCommand
  split
  · -- Check-in Response
    split
    · exact h.refuse hs _
    · split
      · cases c.responseTimeout (u16At payload 1) with
        | error e => exact h.refuse hs _
        | ok timeout => exact h.beside hs rfl rfl
      · exact h.beside hs rfl rfl
  · split
    · exact h.beside hs rfl rfl
    · split
      · -- Set Long Poll Interval
        split
        · exact h.refuse hs _
        · simp only [hcheckIn, hshort, hmin, h.config_eq]
          split
          · exact h.refuse hs _
          · rename_i hgood
            simp only [not_or, not_not] at hgood
            obtain ⟨⟨h4, hmax⟩, hge, horder, hbelow⟩ := hgood
            exact replaceLong_kept h { hs with
              short_le_long := UInt32.not_lt.mp horder
              long_le_checkIn := fun h0 => UInt32.not_lt.mp fun hlt => hbelow ⟨h0, hlt⟩
              long_ge := ⟨h4, UInt32.not_lt.mp hge⟩
              long_le := hmax }
      · split
        · -- Set Short Poll Interval
          split
          · exact h.refuse hs _
          · simp only [hlong]
            split
            · exact h.refuse hs _
            · rename_i hgood
              simp only [not_or, UInt32.not_lt] at hgood
              exact replaceShort_kept h { hs with short_pos := hgood.1, short_le_long := hgood.2 }
        · exact h.refuse hs _

theorem reset_keeps (h : Keeps config c s) : Keeps config c.resetToFactoryDefaults config.values := by
  refine ⟨h.config_eq, ?_⟩
  change (((c.store.setRawIgnored _ _).setRawIgnored _ _).setRawIgnored _ _).setRawIgnored _ _ = _
  rw [h.store_eq, h.config_eq]
  simp only [AttributeStore.setRawIgnored, setRaw_checkIn, setRaw_long, setRaw_short, setRaw_fast,
    PollControlConfig.withState, PollControlConfig.values]

theorem tick_store (c : PollControlCluster) : c.tick.1.config = c.config ∧ c.tick.1.store = c.store := by
  have hcount : c.countDown.config = c.config ∧ c.countDown.store = c.store := by
    unfold countDown
    split <;> exact ⟨rfl, rfl⟩
  unfold tick
  dsimp only
  split_ifs
  all_goals exact hcount

/-- The settings of a valid product are consistent. -/
theorem values_consistent (hvalid : config.isValid = true) : Consistent config config.values :=
  (isValid_withState hvalid).mp hvalid

/-- **Every operation keeps the settings consistent**, and what is refused changes nothing. -/
theorem step_kept (hvalid : config.isValid = true) (h : Keeps config c s) (hs : Consistent config s) (op : Op) :
    Kept config c (c.step op).1 (c.step op).2 := by
  cases op with
  | write id value => exact set_kept h hs id value
  | command cmdId payload => exact handleCommand_kept h hs cmdId payload
  | restore s' =>
    change Kept config c (c.restoreState s').1 (!(c.restoreState s').2)
    by_cases hs' : Consistent config s'
    · rw [(restoreState_eq h hvalid).1 hs']
      exact ⟨⟨s', h.withStore s', hs'⟩, fun hrefused => by cases hrefused⟩
    · rw [(restoreState_eq h hvalid).2 hs']
      exact h.refuse hs _
  | reset => exact ⟨⟨config.values, reset_keeps h, values_consistent hvalid⟩, fun hrefused => by cases hrefused⟩
  | tick =>
    obtain ⟨hconfig, hstore⟩ := tick_store c
    exact h.beside hs hconfig hstore
  | setFastPolling timeout => exact h.beside hs rfl rfl
  | takeFastPollEvent => exact h.beside hs rfl rfl

/-! ## The definitions of the attributes -/

/-- The store holds the attributes of the cluster, whatever their values. -/
def Layout (c : PollControlCluster) : Prop :=
  ∀ config, c.store.attrs.map (·.definition) = (attributesOf config).map (·.1)

theorem withConfig_layout (config : PollControlConfig) : Layout (.withConfig config) := by
  intro config'
  rw [withConfig, storeOf_attrs, List.map_map]
  rfl

theorem Layout.of_eq {c' : PollControlCluster} (h : Layout c)
    (hdefinitions : c'.store.attrs.map (·.definition) = c.store.attrs.map (·.definition)) : Layout c' :=
  fun config => hdefinitions.trans (h config)

theorem set_layout (h : Layout c) (id : AttributeId) (value : ZclValue) : Layout (c.set id value).1 := by
  unfold PollControlCluster.set
  split
  · exact h
  · split
    · exact h
    · rename_i hset
      exact h.of_eq (set_definitions hset)

theorem replaceInterval_layout (h : Layout c) (id : AttributeId) (value : ZclValue) :
    Layout (c.replaceInterval id value).1 := by
  unfold replaceInterval
  split
  · exact h
  · rename_i hset
    exact h.of_eq (setRaw_definitions hset)

theorem handleCommand_layout (h : Layout c) (cmdId : UInt8) (payload : Buf) : Layout (c.handleCommand cmdId payload).1 := by
  unfold handleCommand
  split
  · -- Check-in Response
    split
    · exact h
    · split
      · cases c.responseTimeout (u16At payload 1) <;> exact h
      · exact h
  · split
    · exact h
    · split
      · -- Set Long Poll Interval
        split
        · exact h
        · dsimp only
          split
          · exact h
          · exact replaceInterval_layout h _ _
      · split
        · -- Set Short Poll Interval
          split
          · exact h
          · dsimp only
            split
            · exact h
            · exact replaceInterval_layout h _ _
        · exact h

theorem step_layout (h : Layout c) (op : Op) : Layout (c.step op).1 := by
  cases op with
  | write id value => exact set_layout h id value
  | command cmdId payload => exact handleCommand_layout h cmdId payload
  | restore s' =>
    change Layout (c.restoreState s').1
    unfold restoreState
    split
    · exact h.of_eq (by simp [PollControlCluster.setRawIgnored])
    · exact h
  | reset => exact h.of_eq (by simp [PollControlCluster.step, PollControlCluster.resetToFactoryDefaults, PollControlCluster.setRawIgnored])
  | tick => exact h.of_eq (by rw [PollControlCluster.step, (tick_store c).2])
  | setFastPolling timeout => exact h
  | takeFastPollEvent => exact h

/-- A written value never changes the limits that a write is checked against. -/
theorem set_limits (h : Layout c) {idx : Nat} (hslot : resolveWritableSlot c.store.attrs id value = .ok idx) {limit : AttributeId}
    (hlimit : limit ∈ [ATTR_LONG_POLL_INTERVAL, ATTR_CHECK_IN_INTERVAL_MIN, ATTR_FAST_POLL_TIMEOUT_MAX]) :
    (c.store.setSlot idx value).get limit = c.store.get limit := by
  have hread : ∃ j d, (attributesOf c.config)[j]?.map (·.1) = some d ∧ d.access.isWritable = false ∧
      ((attributesOf c.config).map (·.1)).findIdx? (·.id == limit) = some j := by
    simp only [List.mem_cons, List.not_mem_nil, or_false] at hlimit
    rcases hlimit with rfl | rfl | rfl
    · exact ⟨1, _, rfl, rfl, rfl⟩
    · exact ⟨4, _, rfl, rfl, rfl⟩
    · exact ⟨6, _, rfl, rfl, rfl⟩
  obtain ⟨j, d, hd, hreadOnly, hj⟩ := hread
  rw [← List.getElem?_map, ← h c.config, List.getElem?_map, Option.map_eq_some_iff] at hd
  obtain ⟨a, ha, rfl⟩ := hd
  rw [← h c.config, List.findIdx?_map] at hj
  exact get_set_of_readOnly hslot hj ha hreadOnly

/-! ## Runs -/

/-- The state of a run from the product's power-on values. -/
def after (config : PollControlConfig) (ops : List Op) : PollControlCluster :=
  Run.run (fun c op => (c.step op).1) (.withConfig config) ops

theorem after_layout (config : PollControlConfig) (ops : List Op) : Layout (after config ops) :=
  Run.run_invariant (I := Layout) (fun _ op h => step_layout h op) (withConfig_layout config) ops

theorem after_keeps (hvalid : config.isValid = true) (ops : List Op) :
    ∃ s, Keeps config (after config ops) s ∧ Consistent config s := by
  refine Run.run_invariant (I := fun c => ∃ s, Keeps config c s ∧ Consistent config s) (fun c op hc => ?_)
    ⟨config.values, withConfig_keeps config, values_consistent hvalid⟩ ops
  obtain ⟨s, h, hs⟩ := hc
  exact (step_kept hvalid h hs op).keeps

/-- **The settings stay consistent and restorable**: along every run they respect their order and the
    product's limits, they can be restored into any cluster of the product, and a refused operation
    changes nothing. -/
theorem settings_consistent (hvalid : config.isValid = true) (ops : List Op) :
    Consistent config (after config ops).state ∧
    (after config ops).restoreState (after config ops).state = (after config ops, true) ∧
    (∀ ops', ((after config ops').restoreState (after config ops).state).2 = true ∧
      ((after config ops').restoreState (after config ops).state).1.state = (after config ops).state) ∧
    ∀ op, ((after config ops).step op).2 = true → ((after config ops).step op).1 = after config ops := by
  obtain ⟨s, h, hs⟩ := after_keeps hvalid ops
  rw [h.state_eq]
  refine ⟨hs, ?_, fun ops' => ?_, fun op => (step_kept hvalid h hs op).unchanged⟩
  · rw [(restoreState_eq h hvalid).1 hs, ← h.store_eq]
  · obtain ⟨s', h', -⟩ := after_keeps hvalid ops'
    have hkeeps : Keeps config { after config ops' with store := storeOf (config.withState s) } s := h'.withStore s
    rw [(restoreState_eq h' hvalid).1 hs]
    exact ⟨rfl, hkeeps.state_eq⟩

/-- The cluster's historical defaults. -/
def PollControlConfig.DEFAULT : PollControlConfig := ⟨14400, 24, 4, 40, 0, 0, 0, 0, 32⟩

/-- The long poll interval is set to 48, is to be set below the short one, which is refused, and settings are
    restored. -/
def changes : List Op :=
  [.command CMD_SET_LONG_POLL_INTERVAL [48, 0, 0, 0], .command CMD_SET_LONG_POLL_INTERVAL [2, 0, 0, 0],
    .restore ⟨7200, 60, 8, 20⟩]

theorem default_settings :
    ((after .DEFAULT (changes.take 1)).step (.command CMD_SET_LONG_POLL_INTERVAL [2, 0, 0, 0])).2 = true ∧
      ((after .DEFAULT (changes.take 1)).step (.command CMD_SET_LONG_POLL_INTERVAL [2, 0, 0, 0])).1 =
        after .DEFAULT (changes.take 1) ∧
      (after .DEFAULT changes).state = ⟨7200, 60, 8, 20⟩ ∧ Consistent .DEFAULT ⟨7200, 60, 8, 20⟩ ∧
      ((after .DEFAULT (changes.take 1)).restoreState ⟨7200, 60, 8, 20⟩).2 = true := by
  have hvalid : PollControlConfig.DEFAULT.isValid = true := by decide
  have hrefused : ((after .DEFAULT (changes.take 1)).step (.command CMD_SET_LONG_POLL_INTERVAL [2, 0, 0, 0])).2 = true := by
    decide +kernel
  have hstate : (after .DEFAULT changes).state = ⟨7200, 60, 8, 20⟩ := by decide +kernel
  obtain ⟨hconsistent, -, hrestores, -⟩ := settings_consistent hvalid changes
  rw [hstate] at hconsistent hrestores
  exact ⟨hrefused, (settings_consistent hvalid (changes.take 1)).2.2.2 _ hrefused, hstate, hconsistent,
    (hrestores (changes.take 1)).1⟩

end Zigbee.Zcl.PollControl
