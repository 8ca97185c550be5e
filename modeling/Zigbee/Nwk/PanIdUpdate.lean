import Zigbee.Nwk.Layer

/-!
# Change of the PAN identifier

Model of the Network Report and Network Update part of `zigbee-nwk` (`conflict.rs`, `nwk_commands.rs`,
`frames.rs`): how a received command arms the switch to a new PAN identifier, and how an armed switch is
restored after a reboot.

* `handleNetworkUpdate`, `queuePanIdUpdateFromReport` — the two commands.
* `restorePendingPanIdUpdate` — the restore, with its conditions.
* `receive_storable_iff` — what a command arms can be stored and restored exactly when the command is proper.
* `Storable.run` — the invariant of runs.
-/

namespace Zigbee.Nwk

open Bytes

abbrev PanId := UInt16

def NWK_REPORT_COUNT_MASK : UInt8 := 0x1F
def NWK_REPORT_ID_SHIFT : UInt8 := 5
def NWK_REPORT_PAN_ID_CONFLICT : UInt8 := 0x00
def NWK_UPDATE_PAN_ID_UPDATE : UInt8 := 0x00
def MAX_PAN_ID_CONFLICT_REPORT : Nat := 8
def NETWORK_BROADCAST_DELIVERY_TIME_US : UInt32 := 9000000

structure PanIdConflictReport where
  epid : IeeeAddress
  panIds : List PanId
  deriving DecidableEq

/-- The identifiers that do not fit are dropped. -/
def PanIdConflictReport.parse (data : Buf) : Option PanIdConflictReport :=
  let count := (u8At data 0 &&& NWK_REPORT_COUNT_MASK).toNat
  if data.length < 9 then none
  else if u8At data 0 >>> NWK_REPORT_ID_SHIFT ≠ NWK_REPORT_PAN_ID_CONFLICT then none
  else if data.length < 9 + 2 * count then none
  else some ⟨arrayAt 8 data 1, ((List.range count).map fun i => u16At data (9 + 2 * i)).take MAX_PAN_ID_CONFLICT_REPORT⟩

structure PanIdUpdate where
  epid : IeeeAddress
  updateId : UInt8
  newPanId : PanId
  deriving DecidableEq

namespace PanIdUpdate

def WIRE_SIZE : Nat := 12

def parse (data : Buf) : Option PanIdUpdate :=
  if data.length < WIRE_SIZE then none
  else if u8At data 0 >>> NWK_REPORT_ID_SHIFT ≠ NWK_UPDATE_PAN_ID_UPDATE ∨ u8At data 0 &&& NWK_REPORT_COUNT_MASK ≠ 1 then none
  else some ⟨arrayAt 8 data 1, u8At data 9, u16At data 10⟩

def serialize (u : PanIdUpdate) : Buf :=
  (1 ||| (NWK_UPDATE_PAN_ID_UPDATE <<< NWK_REPORT_ID_SHIFT)) :: (u.epid.toList ++ (u.updateId :: le16 u.newPanId))

theorem parse_serialize (u : PanIdUpdate) : parse u.serialize = some u := by
  have hlen : ¬ u.serialize.length < WIRE_SIZE := by simp [serialize, WIRE_SIZE]
  have hsplit : u.serialize = [1] ++ (u.epid.toList ++ ([u.updateId] ++ le16 u.newPanId)) := by simp [serialize]; decide
  unfold parse
  rw [if_neg hlen, if_neg (by rw [hsplit]; simp [u8At]; decide)]
  refine congrArg some ?_
  rw [hsplit, arrayAt_append_right (by simp), u8At_append_right (by simp), u8At_append_right (by simp),
    u16At_append_right (by simp), u16At_append_right (by simp), u16At_append_right (by simp)]
  simp only [List.length_singleton, Vector.length_toList, Nat.sub_self, arrayAt_toList]
  rw [u16At_le16_self]
  rfl

end PanIdUpdate

structure PendingPanIdUpdate where
  newPanId : PanId
  applyAtUs : UInt32
  deriving DecidableEq

/-- The part of the NIB and of the layer that the switch of the PAN identifier reads and changes. -/
structure PanIdState where
  panId : PanId
  extendedPanId : IeeeAddress
  networkAddress : ShortAddress
  nwkManagerAddr : ShortAddress
  updateId : UInt8
  updateIdValid : Bool
  isRouter : Bool
  joined : Bool
  pendingPanIdUpdate : Option PendingPanIdUpdate
  pendingPanIdBroadcast : Option PanIdUpdate
  deriving DecidableEq

/-- `nwk_update_id_is_newer` -/
def nwkUpdateIdIsNewer (candidate reference : UInt8) : Bool :=
  let delta := candidate - reference
  delta != 0 && delta < 0x80

variable {clock : UInt32 → UInt32} {p : PanId} {src : ShortAddress} {payload : Buf} {update : PanIdUpdate} {s' : PanIdState}

namespace PanIdState

variable (s : PanIdState)

def canRoute : Bool := s.isRouter && s.joined

def nwkUpdateId : Option UInt8 := if s.updateIdValid then some s.updateId else none

def setNwkUpdateId (updateId : UInt8) : PanIdState := { s with updateId, updateIdValid := true }

def clearNwkUpdateId : PanIdState := { s with updateId := 0, updateIdValid := false }

def restoreNwkUpdateId : Option UInt8 → PanIdState
  | some value => s.setNwkUpdateId value
  | none => s.clearNwkUpdateId

def armPanIdUpdate (newPanId : PanId) (nowUs : UInt32) : PanIdState :=
  { s with pendingPanIdUpdate := some ⟨newPanId, nowUs + NETWORK_BROADCAST_DELIVERY_TIME_US⟩ }

/-- The identifier of one attempt. -/
def replacementCandidate (attempt nowUs : UInt32) : PanId :=
  let sample := routingRandomSample ((nowUs + attempt * (0x85EBCA6B : UInt32)) ^^^ (s.panId.toUInt32 <<< (8 : UInt32)))
  1 + (sample % 0xFFFE).toUInt16

/-- `clock` is what the clock shows at each of the 32 attempts. -/
def selectReplacementPanId (reported : List PanId) (clock : UInt32 → UInt32) : Option PanId :=
  ((List.range 32).map fun i => s.replacementCandidate (UInt32.ofNat i) (clock (UInt32.ofNat i))).find? fun candidate =>
    candidate != s.panId && !reported.contains candidate

/-- `none`: nothing was armed. -/
def handleNetworkReport (payload : Buf) (clock : UInt32 → UInt32) (nowUs : UInt32) : Option (PanIdUpdate × PanIdState) :=
  if !s.canRoute then none
  else
    match PanIdConflictReport.parse payload with
    | none => none
    | some report =>
      if report.epid ≠ s.extendedPanId ∨ s.networkAddress ≠ s.nwkManagerAddr ∨ s.pendingPanIdUpdate.isSome = true then none
      else
        match s.selectReplacementPanId report.panIds clock with
        | none => none
        | some newPanId =>
          let updateId := s.nwkUpdateId.getD s.updateId + 1
          some (⟨s.extendedPanId, updateId, newPanId⟩, (s.setNwkUpdateId updateId).armPanIdUpdate newPanId nowUs)

/-- The manager's own transition waits for its broadcast: the update identifier is put back. -/
def queuePanIdUpdateFromReport (payload : Buf) (clock : UInt32 → UInt32) (nowUs : UInt32) : PanIdState :=
  if s.pendingPanIdBroadcast.isSome then s
  else
    match s.handleNetworkReport payload clock nowUs with
    | none => s
    | some (update, s') => { s'.restoreNwkUpdateId s.nwkUpdateId with pendingPanIdBroadcast := some update }

/-- The checks of a Network Update before anything changes. -/
def acceptsUpdate (src : ShortAddress) (update : PanIdUpdate) : Bool :=
  src == s.nwkManagerAddr && update.epid == s.extendedPanId && update.newPanId != s.panId &&
    s.pendingPanIdUpdate.all (fun pending => pending.newPanId != update.newPanId) &&
    s.nwkUpdateId.all (nwkUpdateIdIsNewer update.updateId)

def handleNetworkUpdate (src : ShortAddress) (payload : Buf) (nowUs : UInt32) : PanIdState :=
  match PanIdUpdate.parse payload with
  | none => s
  | some update =>
    if s.acceptsUpdate src update then (s.setNwkUpdateId update.updateId).armPanIdUpdate update.newPanId nowUs else s

/-- `none` for `false`: the record is refused. -/
def restorePendingPanIdUpdate (newPanId : PanId) (broadcastPending : Bool) (nowUs : UInt32) : Option PanIdState :=
  if s.nwkUpdateId.isNone || newPanId == s.panId || newPanId == 0 || newPanId == 0xFFFF then none
  else
    some { s.armPanIdUpdate newPanId nowUs with
      pendingPanIdBroadcast := if broadcastPending then some ⟨s.extendedPanId, s.updateId, newPanId⟩ else none }

def queuedBroadcast (update : PanIdUpdate) : Bool :=
  s.pendingPanIdBroadcast.any fun pending => pending.epid == update.epid && pending.newPanId == update.newPanId

/-- The update identifier of the command; a restored broadcast carries the one before it. -/
def commandUpdateId (update : PanIdUpdate) : UInt8 :=
  if s.queuedBroadcast update && s.nwkUpdateId == some update.updateId then update.updateId + 1 else update.updateId

/-- A transition that `handleNetworkReport` has prepared is undone before the send. -/
def undoPrepared (update : PanIdUpdate) (updateId : UInt8) : PanIdState :=
  if !s.queuedBroadcast update && s.nwkUpdateId == some updateId &&
      s.pendingPanIdUpdate.any (fun pending => pending.newPanId == update.newPanId) then
    { s.setNwkUpdateId (updateId - 1) with pendingPanIdUpdate := none }
  else s

/-- The broadcast of an update; `sent`: the MAC accepted it. The second value is the result. -/
def sendPanIdUpdate (update : PanIdUpdate) (sent : Bool) (nowUs : UInt32) : PanIdState × Bool :=
  let updateId := s.commandUpdateId update
  let s := s.undoPrepared update updateId
  if s.canRoute && sent then ((s.setNwkUpdateId updateId).armPanIdUpdate update.newPanId nowUs, true) else (s, false)

/-- The manager resolves a conflict that it saw itself. -/
def reportPanIdConflict (payload : Buf) (clock : UInt32 → UInt32) (sent : Bool) (nowUs : UInt32) : PanIdState :=
  if s.networkAddress ≠ s.nwkManagerAddr then s
  else
    match s.handleNetworkReport payload clock nowUs with
    | none => s
    | some (update, s') => (s'.sendPanIdUpdate update sent nowUs).1

/-- The broadcast that the manager owes. -/
def sendPending (sent : Bool) (nowUs : UInt32) : PanIdState :=
  match s.pendingPanIdBroadcast with
  | none => s
  | some update =>
    let result := s.sendPanIdUpdate update sent nowUs
    if result.2 then { result.1 with pendingPanIdBroadcast := none } else result.1

/-- The switch itself; `applied`: the MAC took the new identifier. -/
def applyDue (applied : Bool) (nowUs : UInt32) : PanIdState :=
  match s.pendingPanIdUpdate with
  | none => s
  | some pending =>
    if s.pendingPanIdBroadcast.isNone && nowUs - pending.applyAtUs < 0xFFFFFFFF / 2 then
      if applied then { s with panId := pending.newPanId, pendingPanIdUpdate := none }
      else s.armPanIdUpdate pending.newPanId nowUs
    else s

def processPendingConflicts (sent applied : Bool) (nowUs : UInt32) : PanIdState :=
  if s.joined then (s.sendPending sent nowUs).applyDue applied nowUs else s

/-- What an association or a rejoin adopts. -/
def adoptNetwork (panId : PanId) (extendedPanId : IeeeAddress) (networkAddress : ShortAddress) (updateId : UInt8) :
    PanIdState :=
  { s.setNwkUpdateId updateId with panId, extendedPanId, networkAddress, joined := true }

def finishLeave (rejoin : Bool) : PanIdState :=
  let s := { s with joined := false, pendingPanIdUpdate := none, pendingPanIdBroadcast := none }
  if rejoin then s
  else { s.clearNwkUpdateId with panId := 0xFFFF, networkAddress := 0xFFFF, extendedPanId := Vector.replicate 8 0 }

/-- What a restart leaves of the switch before it is restored. -/
def rebooted : PanIdState := { s with pendingPanIdUpdate := none, pendingPanIdBroadcast := none }

/-- A restart from the record of this state; where the restore is refused nothing is armed. -/
def reboot (nowUs : UInt32) : PanIdState :=
  match s.pendingPanIdUpdate with
  | none => s.rebooted
  | some pending =>
    (s.rebooted.restorePendingPanIdUpdate pending.newPanId s.pendingPanIdBroadcast.isSome nowUs).getD s.rebooted

/-! ## What a command arms -/

/-- A received command that concerns the PAN identifier. -/
inductive PanIdCommand where
  | networkUpdate (src : ShortAddress) (payload : Buf)
  | networkReport (payload : Buf) (clock : UInt32 → UInt32)

/-- The commands of `dispatch_nwk_command`. -/
def receive (command : PanIdCommand) (nowUs : UInt32) : PanIdState :=
  match command with
  | .networkUpdate src payload => s.handleNetworkUpdate src payload nowUs
  | .networkReport payload clock => s.queuePanIdUpdateFromReport payload clock nowUs

variable {s} {command : PanIdCommand} {nowUs : UInt32}

theorem replacementCandidate_usable (attempt nowUs : UInt32) :
    s.replacementCandidate attempt nowUs ≠ 0 ∧ s.replacementCandidate attempt nowUs ≠ 0xFFFF := by
  have hvalue : (s.replacementCandidate attempt nowUs).toNat = 1 + (routingRandomSample
      ((nowUs + attempt * (0x85EBCA6B : UInt32)) ^^^ (s.panId.toUInt32 <<< (8 : UInt32)))).toNat % 0xFFFE := by
    unfold replacementCandidate
    simp only [UInt16.toNat_add, UInt32.toNat_toUInt16, UInt32.toNat_mod]
    rw [show (1 : UInt16).toNat = 1 from rfl, show (0xFFFE : UInt32).toNat = 0xFFFE from rfl]
    omega
  constructor
  · intro h
    rw [h, show (0 : UInt16).toNat = 0 from rfl] at hvalue
    omega
  · intro h
    rw [h, show (0xFFFF : UInt16).toNat = 0xFFFF from rfl] at hvalue
    omega

theorem selectReplacementPanId_usable {reported : List PanId} (h : s.selectReplacementPanId reported clock = some p) :
    p ≠ 0 ∧ p ≠ 0xFFFF ∧ p ≠ s.panId := by
  have hmem := List.mem_of_find?_eq_some h
  have hnew := List.find?_some h
  obtain ⟨i, -, rfl⟩ := List.mem_map.mp hmem
  obtain ⟨hzero, hones⟩ := replacementCandidate_usable (s := s) (UInt32.ofNat i) (clock (UInt32.ofNat i))
  rw [Bool.and_eq_true, bne_iff_ne] at hnew
  exact ⟨hzero, hones, hnew.1⟩

/-- Is the report one that this manager acts on? -/
def actsOnReport (s : PanIdState) (payload : Buf) (clock : UInt32 → UInt32) : Bool :=
  s.pendingPanIdBroadcast.isNone && s.canRoute && s.pendingPanIdUpdate.isNone && s.networkAddress == s.nwkManagerAddr &&
    (PanIdConflictReport.parse payload).any fun report =>
      report.epid == s.extendedPanId && (s.selectReplacementPanId report.panIds clock).isSome

/-- A report leaves the layer alone, or arms a usable identifier beside the update identifier that was
    there. -/
theorem queuePanIdUpdateFromReport_cases (payload : Buf) (clock : UInt32 → UInt32) (nowUs : UInt32) :
    (s.actsOnReport payload clock = false ∧ s.queuePanIdUpdateFromReport payload clock nowUs = s) ∨
      (s.actsOnReport payload clock = true ∧ ∃ p, p ≠ 0 ∧ p ≠ 0xFFFF ∧ p ≠ s.panId ∧
        (s.queuePanIdUpdateFromReport payload clock nowUs).pendingPanIdUpdate.map (·.newPanId) = some p ∧
        (s.queuePanIdUpdateFromReport payload clock nowUs).pendingPanIdBroadcast.map (·.newPanId) = some p ∧
        (s.queuePanIdUpdateFromReport payload clock nowUs).panId = s.panId ∧
        (s.queuePanIdUpdateFromReport payload clock nowUs).nwkUpdateId = s.nwkUpdateId) := by
  unfold queuePanIdUpdateFromReport handleNetworkReport actsOnReport
  by_cases hbroadcast : s.pendingPanIdBroadcast.isSome = true
  · rw [if_pos hbroadcast]
    exact Or.inl ⟨by simp [Option.isNone_iff_eq_none, Option.isSome_iff_ne_none.mp hbroadcast], rfl⟩
  · rw [if_neg hbroadcast]
    rw [Option.not_isSome_iff_eq_none] at hbroadcast
    cases hroute : s.canRoute with
    | false => exact Or.inl ⟨by simp, by simp⟩
    | true =>
      cases hparse : PanIdConflictReport.parse payload with
      | none => exact Or.inl ⟨by simp, by simp⟩
      | some report =>
        by_cases hother : report.epid ≠ s.extendedPanId ∨ s.networkAddress ≠ s.nwkManagerAddr ∨
            s.pendingPanIdUpdate.isSome = true
        · refine Or.inl ⟨?_, by simp [hother]⟩
          rcases hother with h | h | h
          · simp [h]
          · simp [h]
          · simp [Option.isSome_iff_ne_none.mp h]
        · obtain ⟨hepid, hmanager, hpending⟩ := not_or.mp hother |>.imp_right not_or.mp
          rw [not_not] at hepid hmanager
          rw [Option.not_isSome_iff_eq_none] at hpending
          cases hselect : s.selectReplacementPanId report.panIds clock with
          | none => exact Or.inl ⟨by simp [hselect], by simp [hother, hselect]⟩
          | some p =>
            obtain ⟨hzero, hones, hnew⟩ := selectReplacementPanId_usable hselect
            refine Or.inr ⟨by simp [hbroadcast, hpending, hmanager, hepid, hselect], p, hzero, hones, hnew, ?_⟩
            simp only [Bool.not_true, Bool.false_eq_true, if_false, if_neg hother, hselect]
            cases hid : s.nwkUpdateId with
            | none => exact ⟨rfl, rfl, rfl, rfl⟩
            | some value => exact ⟨rfl, rfl, rfl, rfl⟩

/-- What the stored record asks of a pending identifier. -/
structure PendingRules (s : PanIdState) (p : PanId) : Prop where
  known : s.nwkUpdateId.isSome = true
  ne_zero : p ≠ 0
  ne_ones : p ≠ 0xFFFF
  ne_current : p ≠ s.panId

theorem restorePendingPanIdUpdate_iff (broadcastPending : Bool) (nowUs : UInt32) :
    (s.restorePendingPanIdUpdate p broadcastPending nowUs).isSome = true ↔ s.PendingRules p := by
  have hrules : s.PendingRules p ↔ ¬ (s.nwkUpdateId.isNone || p == s.panId || p == 0 || p == 0xFFFF) = true := by
    simp only [Bool.or_eq_true, not_or, Option.isNone_iff_eq_none, beq_iff_eq]
    constructor
    · exact fun h => ⟨⟨⟨Option.isSome_iff_ne_none.mp h.known, h.ne_current⟩, h.ne_zero⟩, h.ne_ones⟩
    · exact fun ⟨⟨⟨hknown, hcurrent⟩, hzero⟩, hones⟩ => ⟨Option.isSome_iff_ne_none.mpr hknown, hzero, hones, hcurrent⟩
  rw [hrules]
  unfold restorePendingPanIdUpdate
  split
  · rename_i h
    simp [h]
  · rename_i h
    simp [h]

/-- The condition on a command: an accepted update names a usable identifier, and a report is acted on only
    where the update identifier is known. -/
def Proper (s : PanIdState) : PanIdCommand → Prop
  | .networkUpdate src payload =>
    ∀ update, PanIdUpdate.parse payload = some update → s.acceptsUpdate src update = true →
      update.newPanId ≠ 0 ∧ update.newPanId ≠ 0xFFFF
  | .networkReport payload clock => s.actsOnReport payload clock = true → s.nwkUpdateId.isSome = true

/-- An identifier that the command arms obeys the rules. -/
def ArmsStorable (s : PanIdState) (command : PanIdCommand) (nowUs : UInt32) : Prop :=
  ∀ pending, (s.receive command nowUs).pendingPanIdUpdate = some pending → s.pendingPanIdUpdate ≠ some pending →
    (s.receive command nowUs).PendingRules pending.newPanId

theorem receive_update_none (h : PanIdUpdate.parse payload = none) : s.receive (.networkUpdate src payload) nowUs = s := by
  simp only [receive, handleNetworkUpdate, h]

theorem receive_update_some (h : PanIdUpdate.parse payload = some update) :
    s.receive (.networkUpdate src payload) nowUs =
      if s.acceptsUpdate src update then (s.setNwkUpdateId update.updateId).armPanIdUpdate update.newPanId nowUs else s := by
  simp only [receive, handleNetworkUpdate, h]

theorem acceptsUpdate_facts (h : s.acceptsUpdate src update = true) :
    update.newPanId ≠ s.panId ∧ ∀ pending, s.pendingPanIdUpdate = some pending → pending.newPanId ≠ update.newPanId := by
  unfold acceptsUpdate at h
  simp only [Bool.and_eq_true, bne_iff_ne] at h
  obtain ⟨⟨⟨⟨-, -⟩, hcurrent⟩, hpending⟩, -⟩ := h
  refine ⟨hcurrent, fun pending hsome => ?_⟩
  rw [hsome] at hpending
  simpa using hpending

theorem handleNetworkUpdate_storable_iff : s.ArmsStorable (.networkUpdate src payload) nowUs ↔ s.Proper (.networkUpdate src payload) := by
  unfold ArmsStorable Proper
  cases hparse : PanIdUpdate.parse payload with
  | none =>
    rw [receive_update_none hparse]
    exact iff_of_true (fun pending h hne => absurd h hne) (fun update h => by rw [hparse] at h; cases h)
  | some update =>
    rw [receive_update_some hparse]
    by_cases haccepts : s.acceptsUpdate src update = true
    · rw [if_pos haccepts]
      obtain ⟨hcurrent, hother⟩ := acceptsUpdate_facts haccepts
      constructor
      · intro h update' hupdate _
        obtain rfl := Option.some.inj (hparse.symm.trans hupdate)
        have hrules := h ⟨update.newPanId, nowUs + NETWORK_BROADCAST_DELIVERY_TIME_US⟩ rfl
          (fun hsame => hother _ hsame rfl)
        exact ⟨hrules.ne_zero, hrules.ne_ones⟩
      · intro h pending hp _
        obtain ⟨hzero, hones⟩ := h update hparse haccepts
        obtain rfl := Option.some.inj hp
        exact ⟨rfl, hzero, hones, hcurrent⟩
    · rw [if_neg haccepts]
      refine iff_of_true (fun pending h hne => absurd h hne) (fun update' h hfalse => ?_)
      obtain rfl := Option.some.inj (hparse.symm.trans h)
      exact absurd hfalse haccepts

theorem queuePanIdUpdateFromReport_storable_iff :
    s.ArmsStorable (.networkReport payload clock) nowUs ↔ s.Proper (.networkReport payload clock) := by
  unfold ArmsStorable Proper receive
  rcases queuePanIdUpdateFromReport_cases (s := s) payload clock nowUs with ⟨hidle, hsame⟩ | ⟨hacts, p, hzero, hones, hnew, hp, -, hpan, hid⟩
  · simp only [hsame]
    refine iff_of_true (fun pending h hne => absurd h hne) ?_
    intro hacts
    rw [hidle] at hacts
    cases hacts
  · have hnone : s.pendingPanIdUpdate = none := by
      unfold actsOnReport at hacts
      simp only [Bool.and_eq_true, Option.isNone_iff_eq_none] at hacts
      exact hacts.1.1.2
    simp only
    obtain ⟨pending, hpending, rfl⟩ := Option.map_eq_some_iff.mp hp
    constructor
    · intro h _
      have hrules := h pending hpending (by rw [hnone]; exact fun h => by cases h)
      rw [← hid]
      exact hrules.known
    · intro h pending' hpending' _
      rw [hpending] at hpending'
      obtain rfl := Option.some.inj hpending'
      exact ⟨by rw [hid]; exact h hacts, hzero, hones, by rw [hpan]; exact hnew⟩

/-- **What a command arms can be stored and restored** exactly when the command is proper. -/
theorem receive_storable_iff (s : PanIdState) (command : PanIdCommand) (nowUs : UInt32) :
    s.ArmsStorable command nowUs ↔ s.Proper command := by
  cases command with
  | networkUpdate src payload => exact handleNetworkUpdate_storable_iff
  | networkReport payload clock => exact queuePanIdUpdateFromReport_storable_iff

/-! ## Runs -/

/-- What happens to the PAN identifier. -/
inductive Event where
  | receive (command : PanIdCommand) (nowUs : UInt32)
  | conflictSeen (payload : Buf) (clock : UInt32 → UInt32) (sent : Bool) (nowUs : UInt32)
  | poll (sent applied : Bool) (nowUs : UInt32)
  | adopt (panId : PanId) (extendedPanId : IeeeAddress) (networkAddress : ShortAddress) (updateId : UInt8)
  | leave (rejoin : Bool)
  | reboot (nowUs : UInt32)

def step (s : PanIdState) : Event → PanIdState
  | .receive command nowUs => s.receive command nowUs
  | .conflictSeen payload clock sent nowUs => s.reportPanIdConflict payload clock sent nowUs
  | .poll sent applied nowUs => s.processPendingConflicts sent applied nowUs
  | .adopt panId extendedPanId networkAddress updateId => s.adoptNetwork panId extendedPanId networkAddress updateId
  | .leave rejoin => s.finishLeave rejoin
  | .reboot nowUs => s.reboot nowUs

/-- Commands are proper, and a device does not join the PAN that it is about to switch to. -/
def StepProper (s : PanIdState) : Event → Prop
  | .receive command _ => s.Proper command
  | .adopt panId _ _ _ =>
    (∀ pending, s.pendingPanIdUpdate = some pending → pending.newPanId ≠ panId) ∧
      ∀ update, s.pendingPanIdBroadcast = some update → update.newPanId ≠ panId
  | _ => True

/-- What waits obeys the rules: the armed identifier and the one that the manager has yet to announce. -/
structure Storable (s : PanIdState) : Prop where
  armed : ∀ pending, s.pendingPanIdUpdate = some pending → s.PendingRules pending.newPanId
  queued : ∀ update, s.pendingPanIdBroadcast = some update → s.PendingRules update.newPanId

theorem PendingRules.keep (h : s.PendingRules p) (hpan : s'.panId = s.panId)
    (hid : s.nwkUpdateId.isSome = true → s'.nwkUpdateId.isSome = true) : s'.PendingRules p :=
  ⟨hid h.known, h.ne_zero, h.ne_ones, by rw [hpan]; exact h.ne_current⟩

theorem PendingRules.arm (h : s.PendingRules p) (updateId : UInt8) (nowUs : UInt32) :
    ((s.setNwkUpdateId updateId).armPanIdUpdate p nowUs).PendingRules p :=
  h.keep rfl fun _ => rfl

theorem Storable.receive (h : s.Storable) (command : PanIdCommand) (nowUs : UInt32) (hp : s.Proper command) :
    (s.receive command nowUs).Storable := by
  have hstorable := (receive_storable_iff s command nowUs).mpr hp
  cases command with
  | networkUpdate src payload =>
    cases hparse : PanIdUpdate.parse payload with
    | none => rwa [receive_update_none hparse]
    | some update =>
      have heq : s.receive (.networkUpdate src payload) nowUs = _ := receive_update_some hparse
      by_cases haccepts : s.acceptsUpdate src update = true
      · rw [if_pos haccepts] at heq
        obtain ⟨hzero, hones⟩ := hp update hparse haccepts
        rw [heq]
        refine ⟨fun pending hpending => ?_, fun queued hqueued => ?_⟩
        · obtain rfl := Option.some.inj hpending
          exact ⟨rfl, hzero, hones, (acceptsUpdate_facts haccepts).1⟩
        · exact (h.queued queued hqueued).keep rfl fun _ => rfl
      · rw [if_neg haccepts] at heq
        rwa [heq]
  | networkReport payload clock =>
    rcases queuePanIdUpdateFromReport_cases (s := s) payload clock nowUs with
      ⟨-, hsame⟩ | ⟨hacts, p, hzero, hones, hnew, hp', hq, hpan, hid⟩
    · change (s.queuePanIdUpdateFromReport payload clock nowUs).Storable
      rwa [hsame]
    · have hrules : (s.queuePanIdUpdateFromReport payload clock nowUs).PendingRules p :=
        ⟨by rw [hid]; exact hp hacts, hzero, hones, by rw [hpan]; exact hnew⟩
      constructor
      · intro pending hpending
        change (s.queuePanIdUpdateFromReport payload clock nowUs).pendingPanIdUpdate = some pending at hpending
        rw [hpending] at hp'
        obtain rfl := Option.some.inj hp'
        exact hrules
      · intro update hupdate
        change (s.queuePanIdUpdateFromReport payload clock nowUs).pendingPanIdBroadcast = some update at hupdate
        rw [hupdate] at hq
        obtain rfl := Option.some.inj hq
        exact hrules

theorem storable_of_idle (hpending : s.pendingPanIdUpdate = none) (hqueue : s.pendingPanIdBroadcast = none) :
    s.Storable := by
  constructor
  · intro pending hp
    rw [hpending] at hp
    cases hp
  · intro update hu
    rw [hqueue] at hu
    cases hu

/-- Undoing a prepared transition clears the armed identifier and leaves the update identifier known. -/
theorem Storable.undoPrepared (h : s.Storable) (hrules : s.PendingRules p) (update : PanIdUpdate) (updateId : UInt8) :
    (s.undoPrepared update updateId).Storable ∧ (s.undoPrepared update updateId).PendingRules p := by
  unfold PanIdState.undoPrepared
  split
  · refine ⟨⟨fun pending hp => ?_, fun queued hq => (h.queued queued hq).keep rfl fun _ => rfl⟩,
      hrules.keep rfl fun _ => rfl⟩
    cases hp
  · exact ⟨h, hrules⟩

theorem Storable.send (h : s.Storable) (hrules : s.PendingRules update.newPanId) (sent : Bool) (nowUs : UInt32) :
    (s.sendPanIdUpdate update sent nowUs).1.Storable := by
  obtain ⟨hstorable, hrules'⟩ := h.undoPrepared hrules update (s.commandUpdateId update)
  unfold sendPanIdUpdate
  simp only
  split
  · refine ⟨fun pending hp => ?_, fun queued hq => (hstorable.queued queued hq).keep rfl fun _ => rfl⟩
    obtain rfl := Option.some.inj hp
    exact hrules'.arm _ nowUs
  · exact hstorable

theorem handleNetworkReport_prepares (h : s.handleNetworkReport payload clock nowUs = some (update, s')) :
    s'.PendingRules update.newPanId ∧ s'.panId = s.panId ∧ s'.pendingPanIdBroadcast = s.pendingPanIdBroadcast ∧
      s'.pendingPanIdUpdate.map (·.newPanId) = some update.newPanId := by
  unfold handleNetworkReport at h
  split at h
  · cases h
  · split at h
    · cases h
    · split at h
      · cases h
      · split at h
        · cases h
        · rename_i p hselect
          obtain ⟨rfl, rfl⟩ := Prod.mk.inj (Option.some.inj h)
          obtain ⟨hzero, hones, hnew⟩ := selectReplacementPanId_usable hselect
          exact ⟨⟨rfl, hzero, hones, hnew⟩, rfl, rfl, rfl⟩

theorem Storable.conflictSeen (h : s.Storable) (payload : Buf) (clock : UInt32 → UInt32) (sent : Bool) (nowUs : UInt32) :
    (s.reportPanIdConflict payload clock sent nowUs).Storable := by
  unfold reportPanIdConflict
  split
  · exact h
  · split
    · exact h
    · rename_i update s' hreport
      obtain ⟨hrules, hpan, hqueue, hpending⟩ := handleNetworkReport_prepares hreport
      refine Storable.send ⟨fun pending hp => ?_, fun queued hq => ?_⟩ hrules sent nowUs
      · rw [hp] at hpending
        obtain hsame : pending.newPanId = update.newPanId := Option.some.inj hpending
        rw [hsame]
        exact hrules
      · rw [hqueue] at hq
        exact (h.queued queued hq).keep hpan fun _ => hrules.known

theorem Storable.sendPending (h : s.Storable) (sent : Bool) (nowUs : UInt32) : (s.sendPending sent nowUs).Storable := by
  unfold PanIdState.sendPending
  split
  · exact h
  · rename_i update hupdate
    have hsend := h.send (h.queued update hupdate) sent nowUs
    simp only
    split
    · refine ⟨fun pending hp => (hsend.armed pending hp).keep rfl id, fun queued hq => ?_⟩
      cases hq
    · exact hsend

theorem Storable.applyDue (h : s.Storable) (applied : Bool) (nowUs : UInt32) : (s.applyDue applied nowUs).Storable := by
  unfold PanIdState.applyDue
  split
  · exact h
  · rename_i pending hpending
    split
    · rename_i hdue
      rw [Bool.and_eq_true, Option.isNone_iff_eq_none] at hdue
      split
      · exact storable_of_idle rfl hdue.1
      · refine ⟨fun p hp => ?_, fun queued hq => (h.queued queued hq).keep rfl id⟩
        obtain rfl := Option.some.inj hp
        exact (h.armed pending hpending).keep rfl id
    · exact h

theorem Storable.finishLeave (rejoin : Bool) : (s.finishLeave rejoin).Storable := by
  unfold PanIdState.finishLeave
  cases rejoin with
  | true => exact storable_of_idle rfl rfl
  | false => exact storable_of_idle rfl rfl

theorem restorePendingPanIdUpdate_storable {broadcastPending : Bool} (h : s.restorePendingPanIdUpdate p broadcastPending nowUs = some s') :
    s'.Storable := by
  have hrules : s.PendingRules p := (restorePendingPanIdUpdate_iff broadcastPending nowUs).mp (by rw [h]; rfl)
  unfold restorePendingPanIdUpdate at h
  split at h
  · cases h
  · obtain rfl := Option.some.inj h
    refine ⟨fun pending hp => ?_, fun queued hq => ?_⟩
    · obtain rfl := Option.some.inj hp
      exact hrules.keep rfl id
    · cases broadcastPending with
      | false => cases hq
      | true =>
        obtain rfl := Option.some.inj hq
        exact hrules.keep rfl id

theorem rebooted_storable : s.rebooted.Storable := storable_of_idle rfl rfl

theorem reboot_storable (nowUs : UInt32) : (s.reboot nowUs).Storable := by
  unfold PanIdState.reboot
  split
  · exact rebooted_storable
  · rename_i pending _
    cases hrestore : s.rebooted.restorePendingPanIdUpdate pending.newPanId s.pendingPanIdBroadcast.isSome nowUs with
    | none => exact rebooted_storable
    | some s' => exact restorePendingPanIdUpdate_storable hrestore

theorem Storable.adoptNetwork (h : s.Storable) {panId : PanId} {extendedPanId : IeeeAddress}
    {networkAddress : ShortAddress} {updateId : UInt8}
    (hp : s.StepProper (.adopt panId extendedPanId networkAddress updateId)) :
    (s.adoptNetwork panId extendedPanId networkAddress updateId).Storable := by
  obtain ⟨harmed, hqueued⟩ := hp
  constructor
  · intro pending hpending
    have hrules := h.armed pending hpending
    exact ⟨rfl, hrules.ne_zero, hrules.ne_ones, harmed pending hpending⟩
  · intro update hupdate
    have hrules := h.queued update hupdate
    exact ⟨rfl, hrules.ne_zero, hrules.ne_ones, hqueued update hupdate⟩

/-- What a proper step keeps. -/
theorem Storable.step (s : PanIdState) (e : Event) (h : s.Storable) (hp : s.StepProper e) : (s.step e).Storable := by
  cases e with
  | receive command nowUs => exact h.receive command nowUs hp
  | conflictSeen payload clock sent nowUs => exact h.conflictSeen payload clock sent nowUs
  | poll sent applied nowUs =>
    change (s.processPendingConflicts sent applied nowUs).Storable
    unfold processPendingConflicts
    split
    · exact (h.sendPending sent nowUs).applyDue applied nowUs
    · exact h
  | adopt panId extendedPanId networkAddress updateId => exact h.adoptNetwork hp
  | leave rejoin => exact Storable.finishLeave rejoin
  | reboot nowUs => exact reboot_storable nowUs

/-- What a proper run keeps. -/
theorem Storable.run (h : s.Storable) {events : List Event} (hp : Run.Along PanIdState.step StepProper s events) :
    (Run.run PanIdState.step s events).Storable :=
  Run.run_induct Storable.step h hp

end PanIdState

end Zigbee.Nwk
