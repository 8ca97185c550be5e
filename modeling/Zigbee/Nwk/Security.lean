import Zigbee.Types

/-!
# NWK security context

Model of `NwkSecurity` of `zigbee-nwk/src/security.rs`: the two network-key slots, the staged key and
the table of incoming frame-counter floors, with every operation that changes them.  Encryption is
left out.

The `router` feature selects the table's capacity and how a new source is admitted to it.  A router
may give up floors of the retained previous key, which it then seals against new sources, and floors
that have long been silent; an end device keeps a slot for its parent.  The fields and functions that
only one of the builds has keep their names; `SecurityOp.step` takes the build as an argument.
-/

namespace Zigbee.Nwk

/-- Outcome of checking an incoming NWK frame counter before MIC verification. -/
inductive ReplayAdmission where
  | fresh
  | replay
  | tableFull
  deriving DecidableEq, Repr

/-- NWK security material for one key. -/
structure NetworkKeyEntry where
  key : AesKey
  seqNumber : UInt8
  active : Bool
  deriving DecidableEq

def NetworkKeyEntry.setActive (e : NetworkKeyEntry) (active : Bool) : NetworkKeyEntry :=
  { e with active := active }

/-- One incoming floor. -/
structure FrameCounterEntry where
  source : IeeeAddress
  keySequence : UInt8
  counter : UInt32
  /-- Seconds since this floor last advanced; routers only. -/
  silentSecs : UInt16
  deriving DecidableEq

def FrameCounterEntry.isFor (e : FrameCounterEntry) (source : IeeeAddress) (keySequence : UInt8) : Bool :=
  e.source == source && e.keySequence == keySequence

/-- The pair a floor is recorded under. -/
def FrameCounterEntry.domain (e : FrameCounterEntry) : IeeeAddress × UInt8 := (e.source, e.keySequence)

structure NwkSecurity where
  keys0 : Option NetworkKeyEntry
  keys1 : Option NetworkKeyEntry
  /-- Sequence number installed by Transport-Key but not yet activated. -/
  stagedKeySequence : Option UInt8
  activationPending : Bool
  frameCounterTable : List FrameCounterEntry
  /-- The retained previous key has given up a floor and admits no new source; routers only. -/
  previousKeyReplaySealed : Bool
  replayStaleSecs : UInt16

def DEFAULT_REPLAY_STALE_SECS : UInt16 := 3600

/-- Strict serial-number recency; the ambiguous half-window does not count. -/
def keySequenceIsNewer (candidate active : UInt8) : Bool :=
  candidate - active != 0 && candidate - active < 0x80

namespace NwkSecurity

def new : NwkSecurity :=
  ⟨none, none, none, false, [], false, DEFAULT_REPLAY_STALE_SECS⟩

/-! ## Keys -/

def unsealPreviousKey (s : NwkSecurity) : NwkSecurity := { s with previousKeyReplaySealed := false }

def activeKey (s : NwkSecurity) : Option NetworkKeyEntry := s.keys0.filter (·.active)

def keyBySeq (s : NwkSecurity) (seq : UInt8) : Option NetworkKeyEntry :=
  (s.keys0.filter (·.seqNumber == seq)).or (s.keys1.filter (·.seqNumber == seq))

def clearFrameCountersForKey (s : NwkSecurity) (keySequence : UInt8) : NwkSecurity :=
  { s with frameCounterTable := s.frameCounterTable.filter (·.keySequence != keySequence) }

def retainFrameCountersForInstalledKeys (s : NwkSecurity) : NwkSecurity :=
  let s := s.unsealPreviousKey
  { s with
    frameCounterTable := s.frameCounterTable.filter fun e =>
      some e.keySequence == s.keys0.map (·.seqNumber) || some e.keySequence == s.keys1.map (·.seqNumber) }

def clearFrameCountersForSource (s : NwkSecurity) (source : IeeeAddress) : NwkSecurity :=
  { s with frameCounterTable := s.frameCounterTable.filter (·.source != source) }

def clearNetworkKeys (s : NwkSecurity) : NwkSecurity :=
  unsealPreviousKey { s with
    keys0 := none
    keys1 := none
    stagedKeySequence := none
    activationPending := false
    frameCounterTable := [] }

/-- Slot 1 holds this key under this sequence number. -/
def secondaryIs (s : NwkSecurity) (key : AesKey) (seqNumber : UInt8) : Bool :=
  s.keys1.any fun e => e.seqNumber == seqNumber && e.key == key

/-- Both slots swapped and the flags set, as `set_network_key` and `activate_network_key` do it. -/
def swapKeys (s : NwkSecurity) : NwkSecurity :=
  unsealPreviousKey { s with
    keys0 := s.keys1.map (·.setActive true)
    keys1 := s.keys0.map (·.setActive false)
    stagedKeySequence := none }

/-- `set_network_key` over the active key's own sequence number. -/
def replaceActiveKey (s : NwkSecurity) (active : NetworkKeyEntry) (key : AesKey) : NwkSecurity :=
  let s' := { s with
    keys0 := some { active with key := key, active := true }
    stagedKeySequence := none }
  if active.key ≠ key then s'.clearFrameCountersForKey active.seqNumber else s'

/-- `set_network_key` with a key that no slot holds: the active key becomes the previous one. -/
def installNetworkKey (s : NwkSecurity) (key : AesKey) (seqNumber : UInt8) : NwkSecurity :=
  let s := s.clearFrameCountersForKey seqNumber
  let previous := s.keys0.map (·.setActive false)
  retainFrameCountersForInstalledKeys { s with
    keys0 := some ⟨key, seqNumber, true⟩
    keys1 := previous.filter (·.seqNumber != seqNumber)
    stagedKeySequence := none }

def setNetworkKey (s : NwkSecurity) (key : AesKey) (seqNumber : UInt8) : NwkSecurity :=
  match s.keys0.filter (·.seqNumber == seqNumber) with
  | some active => s.replaceActiveKey active key
  | none => if s.secondaryIs key seqNumber then s.swapKeys else s.installNetworkKey key seqNumber

/-- A key put into slot 1, in place of what was there. -/
def setSecondary (s : NwkSecurity) (key : AesKey) (seqNumber : UInt8) (staged : Option UInt8) : NwkSecurity :=
  retainFrameCountersForInstalledKeys { s.clearFrameCountersForKey seqNumber with
    keys1 := some ⟨key, seqNumber, false⟩
    stagedKeySequence := staged }

def stageNetworkKey (s : NwkSecurity) (key : AesKey) (seqNumber : UInt8) : NwkSecurity × Bool :=
  match s.keys0 with
  | none => (s.setNetworkKey key seqNumber, true)
  | some active =>
    if active.seqNumber = seqNumber then (s, active.key == key)
    else if s.secondaryIs key seqNumber then
      if keySequenceIsNewer seqNumber active.seqNumber then
        ({ s with stagedKeySequence := some seqNumber }, true)
      else (s, true)
    else if !keySequenceIsNewer seqNumber active.seqNumber then (s, false)
    else (s.setSecondary key seqNumber (some seqNumber), true)

def restorePreviousNetworkKey (s : NwkSecurity) (key : AesKey) (seqNumber : UInt8) : NwkSecurity × Bool :=
  match s.keys0 with
  | none => (s, false)
  | some active =>
    if active.seqNumber = seqNumber then (s, active.key == key)
    else (s.setSecondary key seqNumber none, true)

def activateNetworkKey (s : NwkSecurity) (seqNumber : UInt8) : NwkSecurity × Bool :=
  if s.keys0.any (·.seqNumber == seqNumber) then
    ({ s with
      keys0 := s.keys0.map (·.setActive true)
      keys1 := s.keys1.map (·.setActive false) }, true)
  else if s.stagedKeySequence ≠ some seqNumber ∨
      s.activeKey.any (fun a => keySequenceIsNewer seqNumber a.seqNumber) = false then (s, false)
  else if s.keys1.any (·.seqNumber == seqNumber) then (s.swapKeys, true)
  else (s, false)

def activateReceivedKey (s : NwkSecurity) (seqNumber : UInt8) : NwkSecurity × Bool :=
  if s.stagedKeySequence = some seqNumber then s.activateNetworkKey seqNumber else (s, false)

def retirePreviousNetworkKey (s : NwkSecurity) : NwkSecurity × Option NetworkKeyEntry :=
  if s.stagedKeySequence.isSome then (s, none)
  else
    match s.keys1 with
    | none => (s, none)
    | some retired => (retainFrameCountersForInstalledKeys { s with keys1 := none }, some retired)

/-! ## Floors -/

def setReplayStaleTimeoutSecs (s : NwkSecurity) (secs : UInt16) : NwkSecurity :=
  { s with replayStaleSecs := secs }

def ageReplayFloors (s : NwkSecurity) (elapsedSecs : UInt16) : NwkSecurity :=
  { s with
    frameCounterTable := s.frameCounterTable.map fun e =>
      { e with silentSecs := saturatingAdd16 e.silentSecs elapsedSecs } }

def hasFrameCounterForKey (s : NwkSecurity) (source : IeeeAddress) (keySequence : UInt8) : Bool :=
  s.frameCounterTable.any (·.isFor source keySequence)

/-- Whether a new domain fits the end-device table. -/
def leafAdmitsNewDomain (s : NwkSecurity) (source : IeeeAddress) (keySequence : UInt8)
    (parent : Option IeeeAddress) : Bool :=
  let free := MAX_FRAME_COUNTER_ENTRIES false - s.frameCounterTable.length
  match parent with
  | some parent =>
    if parent = source then 0 < free || s.frameCounterTable.any (·.source != parent)
    else
      let reserved := if s.hasFrameCounterForKey parent keySequence then 0 else 1
      reserved < free
  | none => 0 < free

/-- `replay_admission` (end device). -/
def replayAdmission (s : NwkSecurity) (source : IeeeAddress) (keySequence : UInt8) (counter : UInt32)
    (parent : Option IeeeAddress) : ReplayAdmission :=
  match s.frameCounterTable.find? (·.isFor source keySequence) with
  | some entry => if entry.counter < counter then .fresh else .replay
  | none => if s.leafAdmitsNewDomain source keySequence parent then .fresh else .tableFull

/-- The sequence number of the retained previous key: of slot 1, unless it is staged. -/
def previousSequence (s : NwkSecurity) : Option UInt8 :=
  (s.keys1.map (·.seqNumber)).filter fun sequence => s.stagedKeySequence != some sequence

/-- Admission rule for a new domain (router): refused when its key is the sealed previous key, else the
    key whose floors it may reclaim. -/
def reclaimableKeySequence (s : NwkSecurity) (keySequence : UInt8) : Option (Option UInt8) :=
  if s.previousSequence = some keySequence then
    if s.previousKeyReplaySealed then none else some none
  else some s.previousSequence

/-- `check_frame_counter_reserving` (router). -/
def checkFrameCounterReserving (s : NwkSecurity) (source : IeeeAddress) (keySequence : UInt8)
    (counter : UInt32) (reserved : Nat) (protect : IeeeAddress → Bool) : ReplayAdmission :=
  match s.frameCounterTable.find? (·.isFor source keySequence) with
  | some entry => if entry.counter < counter then .fresh else .replay
  | none =>
    match s.reclaimableKeySequence keySequence with
    | none => .tableFull
    | some reclaimFrom =>
      let reclaimable := match reclaimFrom with
        | none => 0
        | some previous => s.frameCounterTable.countP (·.keySequence == previous)
      let available := MAX_FRAME_COUNTER_ENTRIES true - s.frameCounterTable.length + reclaimable
      if reserved < available then .fresh
      else
        let stale := ((s.frameCounterTable.filter fun e =>
          some e.keySequence != reclaimFrom && s.replayStaleSecs ≤ e.silentSecs &&
            !protect e.source).take (reserved + 1 - available)).length
        if reserved < available + stale then .fresh else .tableFull

/-- The floor that a full end-device table gives up for its parent: the earliest of another source. -/
def parentVictim (s : NwkSecurity) (source : IeeeAddress) : Option Nat :=
  s.frameCounterTable.findIdx? (·.source != source)

/-- `commit_frame_counter_for_key_with_parent` (end device). -/
def commitFrameCounterForKeyWithParent (s : NwkSecurity) (source : IeeeAddress) (keySequence : UInt8)
    (counter : UInt32) (parent : Option IeeeAddress) : NwkSecurity × Bool :=
  match s.frameCounterTable.findIdx? (·.isFor source keySequence) with
  | some i =>
    ({ s with frameCounterTable := s.frameCounterTable.modify i fun e =>
        { e with counter := max e.counter counter } }, true)
  | none =>
    if !s.leafAdmitsNewDomain source keySequence parent then (s, false)
    else
      let entry : FrameCounterEntry := ⟨source, keySequence, counter, 0⟩
      let table :=
        if s.frameCounterTable.length < MAX_FRAME_COUNTER_ENTRIES false then s.frameCounterTable
        else match s.parentVictim source with
          | some i => s.frameCounterTable.eraseIdx i
          | none => s.frameCounterTable
      if table.length < MAX_FRAME_COUNTER_ENTRIES false then
        ({ s with frameCounterTable := table ++ [entry] }, true)
      else ({ s with frameCounterTable := table }, false)

/-- The floor that a full router table evicts: the longest silent one beyond the stale timeout that is
    not protected. -/
def staleVictim (s : NwkSecurity) (protect : IeeeAddress → Bool) : Option Nat :=
  (maxByKey (fun p => p.1.silentSecs.toNat) (s.frameCounterTable.zipIdx.filter fun p =>
    s.replayStaleSecs ≤ p.1.silentSecs && !protect p.1.source)).map (·.2)

/-- The floor of the retained previous key that a full router table gives up. -/
def previousVictim (s : NwkSecurity) (reclaimFrom : Option UInt8) : Option Nat :=
  reclaimFrom.bind fun previous => s.frameCounterTable.findIdx? (·.keySequence == previous)

/-- `commit_frame_counter_for_key_protecting` (router). -/
def commitFrameCounterForKeyProtecting (s : NwkSecurity) (source : IeeeAddress) (keySequence : UInt8)
    (counter : UInt32) (protect : IeeeAddress → Bool) : NwkSecurity × Bool :=
  match s.frameCounterTable.findIdx? (·.isFor source keySequence) with
  | some i =>
    ({ s with frameCounterTable := s.frameCounterTable.modify i fun e =>
        { e with counter := max e.counter counter, silentSecs := 0 } }, true)
  | none =>
    match s.reclaimableKeySequence keySequence with
    | none => (s, false)
    | some reclaimFrom =>
      let entry : FrameCounterEntry := ⟨source, keySequence, counter, 0⟩
      if s.frameCounterTable.length < MAX_FRAME_COUNTER_ENTRIES true then
        ({ s with frameCounterTable := s.frameCounterTable ++ [entry] }, true)
      else
        match s.previousVictim reclaimFrom with
        | some i =>
          ({ s with
            frameCounterTable := s.frameCounterTable.set i entry
            previousKeyReplaySealed := true }, true)
        | none =>
          match s.staleVictim protect with
          | some i => ({ s with frameCounterTable := s.frameCounterTable.set i entry }, true)
          | none => (s, false)

/-! ## The build's own forms -/

/-- What the NWK layer passes along with a counter: slots it reserves and sources it protects on a
    router, the parent on an end device. -/
structure Caller where
  reserved : Nat
  protect : IeeeAddress → Bool
  parent : Option IeeeAddress

/-- A caller that reserves nothing and lets nothing be evicted. -/
def Caller.conservative : Caller := ⟨0, fun _ => true, none⟩

/-- The admission check of the build. -/
def admission (router : Bool) (s : NwkSecurity) (source : IeeeAddress) (keySequence : UInt8)
    (counter : UInt32) (caller : Caller) : ReplayAdmission :=
  if router then s.checkFrameCounterReserving source keySequence counter caller.reserved caller.protect
  else s.replayAdmission source keySequence counter caller.parent

/-- The commit of the build. -/
def commit (router : Bool) (s : NwkSecurity) (source : IeeeAddress) (keySequence : UInt8)
    (counter : UInt32) (caller : Caller) : NwkSecurity × Bool :=
  if router then s.commitFrameCounterForKeyProtecting source keySequence counter caller.protect
  else s.commitFrameCounterForKeyWithParent source keySequence counter caller.parent

def commitFrameCounterForKey (router : Bool) (s : NwkSecurity) (source : IeeeAddress)
    (keySequence : UInt8) (counter : UInt32) : NwkSecurity × Bool :=
  commit router s source keySequence counter .conservative

/-- The sequence number the keyless forms use. -/
def activeSequence (s : NwkSecurity) : UInt8 := (s.activeKey.map (·.seqNumber)).getD 0

def commitFrameCounter (router : Bool) (s : NwkSecurity) (source : IeeeAddress) (counter : UInt32) :
    NwkSecurity × Bool :=
  s.commitFrameCounterForKey router source s.activeSequence counter

def restoreReplayCounter (router : Bool) (s : NwkSecurity) (replay : NwkReplayCounter) :
    NwkSecurity × Bool :=
  match s.keyBySeq replay.keySequence with
  | none => (s, false)
  | some key =>
    if keyFingerprint key.key ≠ replay.keyFingerprint then (s, false)
    else s.commitFrameCounterForKey router replay.source replay.keySequence replay.counter

end NwkSecurity

/-! ## Operations -/

inductive SecurityOp where
  | clearNetworkKeys
  | setNetworkKey (key : AesKey) (seqNumber : UInt8)
  | stageNetworkKey (key : AesKey) (seqNumber : UInt8)
  | restorePreviousNetworkKey (key : AesKey) (seqNumber : UInt8)
  | activateNetworkKey (seqNumber : UInt8)
  | activateReceivedKey (seqNumber : UInt8)
  | retirePreviousNetworkKey
  | clearFrameCountersForSource (source : IeeeAddress)
  | setReplayStaleTimeoutSecs (secs : UInt16)
  | ageReplayFloors (elapsedSecs : UInt16)
  | commit (source : IeeeAddress) (keySequence : UInt8) (counter : UInt32) (caller : NwkSecurity.Caller)
  | commitFrameCounter (source : IeeeAddress) (counter : UInt32)
  | restoreReplayCounter (replay : NwkReplayCounter)

/-- One operation of the build with or without the `router` feature. -/
def SecurityOp.step (router : Bool) (s : NwkSecurity) : SecurityOp → NwkSecurity
  | .clearNetworkKeys => s.clearNetworkKeys
  | .setNetworkKey key seqNumber => s.setNetworkKey key seqNumber
  | .stageNetworkKey key seqNumber => (s.stageNetworkKey key seqNumber).1
  | .restorePreviousNetworkKey key seqNumber => (s.restorePreviousNetworkKey key seqNumber).1
  | .activateNetworkKey seqNumber => (s.activateNetworkKey seqNumber).1
  | .activateReceivedKey seqNumber => (s.activateReceivedKey seqNumber).1
  | .retirePreviousNetworkKey => s.retirePreviousNetworkKey.1
  | .clearFrameCountersForSource source => s.clearFrameCountersForSource source
  | .setReplayStaleTimeoutSecs secs => s.setReplayStaleTimeoutSecs secs
  | .ageReplayFloors elapsedSecs => s.ageReplayFloors elapsedSecs
  | .commit source keySequence counter caller => (s.commit router source keySequence counter caller).1
  | .commitFrameCounter source counter => (s.commitFrameCounter router source counter).1
  | .restoreReplayCounter replay => (s.restoreReplayCounter router replay).1

end Zigbee.Nwk
