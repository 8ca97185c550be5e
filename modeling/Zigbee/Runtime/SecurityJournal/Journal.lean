import Zigbee.Lib.Crash
import Zigbee.Lib.NorFlash
import Zigbee.Runtime.SecurityJournal.Codec

/-!
# The security-state journal

Model of `SecurityStateJournal` of `zigbee-runtime/src/security_journal.rs`: a two-sector journal of
committed state records and replay slots.  An operation is a program over the flash contents (the
durable part) and the journal's caches (the volatile part).  Every access to the flash can fail or be
interrupted by a power cut: a program or an erase before its effect, or after it, when the driver
reports its error; a read without any.  A read-only loop (`newest`, the replay scan, the searches for
free slots) is one access and a function of the flash: it changes nothing before the read that fails.

* `Config` — sector placement and flash parameters; `Config.rejected` is the check of `current`.
* `load`, `store`, `commitReplayCounter`, `tombstoneReplayCounters`, `retainReplayCounters`,
  `visitReplayCounters`, `selectRoleTag`, `productTag`, `setProductTag` — the operations.
-/

namespace Zigbee.Runtime.SecurityJournal

open Bytes NorFlash Crash Crash.Prog

/-- Sector placement (`sectors`, `SECTOR_SIZE`) and flash parameters.  Offsets are 32-bit. -/
structure Config where
  sectors : Fin 2 → Nat
  sectorSize : Nat
  readSize : Nat
  writeSize : Nat
  eraseSize : Nat
  capacity : Nat
  features : Features
  capacity_lt : capacity < 2 ^ 32

/-- The geometry `current` refuses. -/
def Config.Rejected (c : Config) : Prop :=
  c.sectors 0 = c.sectors 1 ∨ c.sectorSize < SECURITY_JOURNAL_SLOT_SIZE ∨
  ¬ SECURITY_JOURNAL_SLOT_SIZE ∣ c.sectorSize ∨ c.sectorSize > 2 ^ 32 - 1 ∨
  (max (c.sectors 0) (c.sectors 1) - min (c.sectors 0) (c.sectors 1)) < c.sectorSize ∨
  c.readSize = 0 ∨ c.writeSize = 0 ∨ c.eraseSize = 0 ∨
  ¬ c.readSize ∣ SECURITY_JOURNAL_SLOT_SIZE ∨ ¬ c.writeSize ∣ SECURITY_JOURNAL_SLOT_SIZE ∨
  ¬ c.eraseSize ∣ c.sectorSize ∨ ¬ c.writeSize ∣ RECORD_PREFIX_LEN ∨
  ¬ c.writeSize ∣ RECORD_COMMIT_OFFSET ∨ ¬ c.writeSize ∣ RECORD_COMMIT.length ∨
  ¬ c.writeSize ∣ REPLAY_HEADER_LEN ∨ ¬ c.writeSize ∣ REPLAY_ENTRY_PREFIX_LEN ∨
  ¬ c.writeSize ∣ REPLAY_ENTRY_COMMIT_OFFSET ∨ ¬ c.writeSize ∣ REPLAY_ENTRY_COMMIT.length ∨
  ¬ c.eraseSize ∣ c.sectors 0 ∨ ¬ c.eraseSize ∣ c.sectors 1 ∨
  c.capacity < c.sectors 0 + c.sectorSize ∨ c.capacity < c.sectors 1 + c.sectorSize

instance (c : Config) : Decidable c.Rejected := by unfold Config.Rejected; infer_instance

/-- The newest committed record and where it lies. -/
structure LocatedState where
  generation : UInt32
  sector : Fin 2
  state : PersistentSecurityState
  tag : UInt16
  deriving DecidableEq

/-- The caches of a journal. -/
structure Journal where
  cached : Option LocatedState
  cachedReplay : List PersistentReplayCounter
  replayGeneration : Option UInt32
  scanned : Bool
  productTag : Option UInt16

/-- `new_with_sector_size`. -/
def Journal.new : Journal := ⟨none, [], none, false, none⟩

/-- Forget every cached view. -/
def Journal.invalidate (j : Journal) : Journal :=
  { j with cached := none, cachedReplay := [], replayGeneration := none, scanned := false }

/-- Tag for a new record: the selection, else the superseded record's. -/
def Journal.tagForCommit (j : Journal) : UInt16 :=
  (j.productTag.or (j.cached.map (·.tag))).getD SECURITY_JOURNAL_UNTAGGED

abbrev JournalM := Prog Flash Journal SecurityStoreError

/-- `checked_add(1)` of a generation. -/
def nextGeneration (g : UInt32) : Option UInt32 :=
  if g.toNat + 1 < 2 ^ 32 then some (g + 1) else none

def otherSector (sector : Fin 2) : Fin 2 := 1 - sector

/-- `resolve_duplicate_generation`; `second` is the later physical position. -/
def resolveDuplicateGeneration (first second : LocatedState) : LocatedState :=
  if first.state.encode = second.state.encode then first
  else
    let globalCounterLimit := max first.state.globalCounterLimit second.state.globalCounterLimit
    let sameTclk := first.state.tclkPresent && second.state.tclkPresent &&
      first.state.trustCenterAddress == second.state.trustCenterAddress &&
      first.state.trustCenterLinkKey == second.state.trustCenterLinkKey
    let tclkCounterLimit := max first.state.tclkCounterLimit second.state.tclkCounterLimit
    let laterRank := first.state.globalCounterLimit < second.state.globalCounterLimit ∨
      (first.state.globalCounterLimit = second.state.globalCounterLimit ∧
        first.state.tclkCounterLimit ≤ second.state.tclkCounterLimit)
    let chosen := if laterRank then second else first
    { chosen with state :=
        { chosen.state with
            globalCounterLimit := globalCounterLimit
            tclkCounterLimit := if sameTclk then tclkCounterLimit else chosen.state.tclkCounterLimit } }

/-- One slot of the `newest` scan. -/
def newestStep (sector : Fin 2) (newest : Option LocatedState) (record : Buf) : Option LocatedState :=
  match decodeRecord record with
  | none => newest
  | some (generation, state) =>
    let candidate : LocatedState := ⟨generation, sector, state, recordTag record⟩
    match newest with
    | none => some candidate
    | some current =>
      if current.generation < generation then some candidate
      else if generation = current.generation then
        some (resolveDuplicateGeneration current candidate)
      else some current

/-- The entries of a replay slot up to the first erased or undecodable one. -/
def committedEntries : List Buf → List PersistentReplayCounter
  | [] => []
  | entry :: entries =>
    if isErased entry then []
    else
      match decodeReplayEntry entry with
      | none => []
      | some update => update :: committedEntries entries

/-- The four entries of a replay slot. -/
def replayEntries (record : Buf) : List Buf :=
  (List.range REPLAY_ENTRIES_PER_SLOT).map (replayEntryAt record)

def mergeReplay (cap : Nat) (replay : List PersistentReplayCounter) (update : PersistentReplayCounter) :
    Except SecurityStoreError (List PersistentReplayCounter) :=
  match replay.findIdx? (·.sameDomain update) with
  | some i =>
    .ok (replay.modify i fun stored => if stored.counter < update.counter then update else stored)
  | none => if replay.length < cap then .ok (replay ++ [update]) else .error .full

/-- One entry of the replay scan; NWK floors of older firmware are skipped. -/
def scanEntry (cap : Nat) (cache : List PersistentReplayCounter) (update : PersistentReplayCounter) :
    Except SecurityStoreError (List PersistentReplayCounter) :=
  if update.isNwk then .ok cache else mergeReplay cap cache update

/-- One slot of the replay scan. -/
def scanSlot (cap : Nat) (generation : UInt32) (cache : List PersistentReplayCounter) (record : Buf) :
    Except SecurityStoreError (List PersistentReplayCounter) :=
  if replayHeaderGeneration record ≠ some generation then .ok cache
  else (committedEntries (replayEntries record)).foldlM (scanEntry cap) cache

/-- First erased entry of a replay slot whose earlier entries all decode. -/
def appendIndex : List Buf → Nat → Option Nat
  | [], _ => none
  | entry :: entries, index =>
    if isErased entry then some index
    else if (decodeReplayEntry entry).isNone then none
    else appendIndex entries (index + 1)

/-- Append position `(slot, index, initialize)` in the slots from number `slot` on. -/
def appendPosition (generation : UInt32) : List Buf → Nat → Option (Nat × Nat × Bool)
  | [], _ => none
  | record :: records, slot =>
    if isErased record then some (slot, 0, true)
    else if replayHeaderGeneration record ≠ some generation then
      appendPosition generation records (slot + 1)
    else
      match appendIndex (replayEntries record) 0 with
      | some index => some (slot, index, false)
      | none => appendPosition generation records (slot + 1)

def replaySnapshotSlots (count : Nat) : Nat :=
  (count + (REPLAY_ENTRIES_PER_SLOT - 1)) / REPLAY_ENTRIES_PER_SLOT

variable (cfg : Config)

namespace Config

/-- Capacity of the replay cache. -/
def maxReplay : Nat := MAX_PERSISTENT_REPLAY_COUNTERS cfg.features

def slotsPerSector : Nat := cfg.sectorSize / SECURITY_JOURNAL_SLOT_SIZE

def slotAddress (sector : Fin 2) (slot : Nat) : Nat :=
  cfg.sectors sector + slot * SECURITY_JOURNAL_SLOT_SIZE

def readSlot (f : Flash) (sector : Fin 2) (slot : Nat) : Buf :=
  read f (cfg.slotAddress sector slot) SECURITY_JOURNAL_SLOT_SIZE

/-- The slots of a sector in scan order. -/
def sectorSlots (f : Flash) (sector : Fin 2) : List Buf :=
  (List.range cfg.slotsPerSector).map (cfg.readSlot f sector)

def newest (f : Flash) : Option LocatedState :=
  (cfg.sectorSlots f 1).foldl (newestStep 1) ((cfg.sectorSlots f 0).foldl (newestStep 0) none)

/-- `scan_replay_into_cache`, starting from the cleared cache. -/
def scanReplay (f : Flash) (sector : Fin 2) (generation : UInt32) :
    Except SecurityStoreError (List PersistentReplayCounter) :=
  (cfg.sectorSlots f sector).foldlM (scanSlot cfg.maxReplay generation) []

def findErasedRun (f : Flash) (sector : Fin 2) (needed : Nat) : Option Nat :=
  if needed = 0 ∨ cfg.slotsPerSector < needed then none
  else
    (List.range (cfg.slotsPerSector - needed + 1)).find? fun start =>
      (List.range needed).all fun k => isErased (cfg.readSlot f sector (start + k))

def findReplayAppendPosition (f : Flash) (sector : Fin 2) (generation : UInt32) :
    Option (Nat × Nat × Bool) :=
  appendPosition generation (cfg.sectorSlots f sector) 0

end Config

/-! ## Flash commands -/

def write (address : Nat) (data : Buf) : JournalM Unit := do
  command .hardware fun f => program f address data
  -- the driver may report an error once the bytes are programmed
  access .hardware

def eraseSector (sector : Fin 2) : JournalM Unit := do
  command .hardware fun f => erase f (cfg.sectors sector) (cfg.sectors sector + cfg.sectorSize)
  access .hardware

/-- The contents, when the reads that follow do not fail. -/
def readFlash : JournalM Flash := do
  access .hardware
  getDisk

def writeReplayHeader (sector : Fin 2) (slot : Nat) (generation : UInt32) : JournalM Unit := do
  write (cfg.slotAddress sector slot) (replayHeader generation)
  let f ← readFlash
  if replayHeaderGeneration (cfg.readSlot f sector slot) = some generation then pure ()
  else fail .hardware

def writeReplayEntry (sector : Fin 2) (slot index : Nat) (replay : PersistentReplayCounter) :
    JournalM Unit := do
  let address := cfg.slotAddress sector slot + (REPLAY_HEADER_LEN + index * REPLAY_ENTRY_LEN)
  write address (encodeReplayEntry replay)
  write (address + REPLAY_ENTRY_COMMIT_OFFSET) REPLAY_ENTRY_COMMIT
  let f ← readFlash
  match decodeReplayEntry (replayEntryAt (cfg.readSlot f sector slot) index) with
  | some stored => if stored.eq replay then pure () else fail .hardware
  | none => fail .hardware

/-- `write_replay_snapshot`: the entries from `position` on. -/
def writeReplaySnapshot (sector : Fin 2) (firstSlot : Nat) (generation : UInt32) :
    List PersistentReplayCounter → Nat → JournalM Unit
  | [], _ => pure ()
  | update :: updates, position => do
    let slot := firstSlot + position / REPLAY_ENTRIES_PER_SLOT
    let index := position % REPLAY_ENTRIES_PER_SLOT
    if index = 0 then writeReplayHeader cfg sector slot generation
    writeReplayEntry cfg sector slot index update
    writeReplaySnapshot sector firstSlot generation updates (position + 1)

def writeRecord (sector : Fin 2) (slot : Nat) (generation : UInt32) (state : PersistentSecurityState)
    (tag : UInt16) : JournalM Unit := do
  ofExcept state.validate
  write (cfg.slotAddress sector slot) (recordPrefix generation state tag)
  write (cfg.slotAddress sector slot + RECORD_COMMIT_OFFSET) RECORD_COMMIT
  let f ← readFlash
  let verify := cfg.readSlot f sector slot
  match decodeRecord verify with
  | some (storedGeneration, storedState) =>
    if storedGeneration = generation ∧ storedState.encode = state.encode ∧ recordTag verify = tag then
      pure ()
    else fail .hardware
  | none => fail .hardware

/-- The snapshot first, the state record last. -/
def activateGeneration (sector : Fin 2) (stateSlot : Nat) (generation : UInt32)
    (state : PersistentSecurityState) (tag : UInt16) : JournalM Unit := do
  let j ← getRam
  writeReplaySnapshot cfg sector (stateSlot + 1) generation j.cachedReplay 0
  writeRecord cfg sector stateSlot generation state tag

def writeGeneration (currentSector : Option (Fin 2)) (rollover : Bool) (generation : UInt32)
    (state : PersistentSecurityState) (tag : UInt16) : JournalM (Fin 2) := do
  let j ← getRam
  let needed := 1 + replaySnapshotSlots j.cachedReplay.length
  if cfg.slotsPerSector < needed then fail .full
  else
    let run ← match currentSector with
      | some sector =>
        if rollover then pure none
        else do
          let f ← readFlash
          pure (cfg.findErasedRun f sector needed)
      | none => pure none
    match currentSector, run with
    | some sector, some slot =>
      activateGeneration cfg sector slot generation state tag
      pure sector
    | some sector, none =>
      eraseSector cfg (otherSector sector)
      activateGeneration cfg (otherSector sector) 0 generation state tag
      pure (otherSector sector)
    | none, _ =>
      eraseSector cfg 0
      activateGeneration cfg 0 0 generation state tag
      pure 0

/-- Write the staged `cached_replay` and `state` as `generation`; a failure drops every cache. -/
def commitGeneration (currentSector : Option (Fin 2)) (rollover : Bool) (generation : UInt32)
    (state : PersistentSecurityState) : JournalM Unit := do
  let j ← getRam
  let tag := j.tagForCommit
  match ← attempt (writeGeneration cfg currentSector rollover generation state tag) with
  | .ok target =>
    modifyRam fun j =>
      { j with cached := some ⟨generation, target, state, tag⟩, replayGeneration := some generation }
  | .error e =>
    modifyRam Journal.invalidate
    fail e

/-! ## Cached views -/

def current : JournalM (Option LocatedState) :=
  if cfg.Rejected then fail .hardware
  else do
    let j ← getRam
    if j.scanned then pure j.cached
    else
      let f ← readFlash
      modifyRam fun j => { j with cached := cfg.newest f, scanned := true }
      pure (cfg.newest f)

def ensureReplayCache (located : LocatedState) : JournalM Unit := do
  let j ← getRam
  if j.replayGeneration = some located.generation then pure ()
  else
    let scan : JournalM (List PersistentReplayCounter) := do
      let f ← readFlash
      ofExcept (cfg.scanReplay f located.sector located.generation)
    match ← attempt scan with
    | .ok replay =>
      modifyRam fun j =>
        { j with cachedReplay := replay, replayGeneration := some located.generation }
    | .error e =>
      modifyRam fun j => { j with cachedReplay := [], replayGeneration := none }
      fail e

/-! ## Operations -/

def setProductTag (tag : UInt16) : JournalM Unit := modifyRam fun j => { j with productTag := some tag }

def productTag : JournalM (Option UInt16) := do
  let located ← current cfg
  pure (located.map (·.tag))

def load : JournalM (Option PersistentSecurityState) := do
  let located ← current cfg
  pure (located.map (·.state))

/-- Both states belong to one network of one device. -/
def sameNetwork (old new : PersistentSecurityState) : Bool :=
  old.commissioned && new.commissioned && old.extendedPanId == new.extendedPanId &&
    old.ieeeAddress == new.ieeeAddress

def store (state : PersistentSecurityState) : JournalM Unit := do
  match ← current cfg with
  | none =>
    modifyRam fun j => { j with cachedReplay := [], replayGeneration := none }
    commitGeneration cfg none false 0 state
  | some located =>
    match nextGeneration located.generation with
    | none => fail .generationExhausted
    | some generation =>
      if sameNetwork located.state state then ensureReplayCache cfg located
      else modifyRam fun j => { j with cachedReplay := [], replayGeneration := none }
      commitGeneration cfg (some located.sector) false generation state

/-- The state a foreign role tag resets to. -/
def clearedState (state : PersistentSecurityState) : PersistentSecurityState :=
  { PersistentSecurityState.empty with
      globalCounterLimit := state.globalCounterLimit
      tclkCounterLimit := state.tclkCounterLimit }

def selectRoleTag (tag : UInt16) : JournalM Bool := do
  match ← current cfg with
  | none =>
    setProductTag tag
    pure false
  | some located =>
    setProductTag tag
    if located.tag = tag then pure false
    else
      store cfg (clearedState located.state)
      pure true

def visitReplayCounters : JournalM (List PersistentReplayCounter) := do
  match ← current cfg with
  | none => pure []
  | some located =>
    ensureReplayCache cfg located
    let j ← getRam
    pure j.cachedReplay

/-- Write one floor at an append position. -/
def appendEntry (located : LocatedState) (slot index : Nat) (init : Bool)
    (replay : PersistentReplayCounter) : JournalM Unit := do
  if init then writeReplayHeader cfg located.sector slot located.generation
  writeReplayEntry cfg located.sector slot index replay

def appendDurableReplayCounter (replay : PersistentReplayCounter) : JournalM Unit := do
  match ← current cfg with
  | none => fail .notFound
  | some located =>
    if ¬ located.state.commissioned then fail .corrupt
    else
      ensureReplayCache cfg located
      let j ← getRam
      if (j.cachedReplay.find? (·.sameDomain replay)).any (replay.counter ≤ ·.counter) then pure ()
      else
        let f ← readFlash
        match cfg.findReplayAppendPosition f located.sector located.generation with
        | some (slot, index, init) =>
          match ← attempt (appendEntry cfg located slot index init replay) with
          | .ok () =>
            let j ← getRam
            let merged ← ofExcept (mergeReplay cfg.maxReplay j.cachedReplay replay)
            modifyRam fun j => { j with cachedReplay := merged }
          | .error e =>
            modifyRam fun j => { j with cachedReplay := [], replayGeneration := none }
            fail e
        | none =>
          match nextGeneration located.generation with
          | none => fail .generationExhausted
          | some generation =>
            let merged ← ofExcept (mergeReplay cfg.maxReplay j.cachedReplay replay)
            modifyRam fun j => { j with cachedReplay := merged }
            commitGeneration cfg (some located.sector) true generation located.state

/-- Incoming NWK floors are RAM-only. -/
def commitReplayCounter (replay : PersistentReplayCounter) : JournalM Unit :=
  if replay.isNwk then pure () else appendDurableReplayCounter cfg replay

/-- The body shared by the two removals: compact the cache in place and rewrite the generation when
    something was removed. -/
def compactReplayCounters (keep : PersistentReplayCounter → Bool) (located : LocatedState) :
    JournalM Nat := do
  ensureReplayCache cfg located
  let j ← getRam
  let previousLen := j.cachedReplay.length
  let kept := j.cachedReplay.filter keep
  modifyRam fun j => { j with cachedReplay := kept }
  if kept.length = previousLen then pure 0
  else
    match nextGeneration located.generation with
    | none =>
      modifyRam Journal.invalidate
      fail .generationExhausted
    | some generation =>
      commitGeneration cfg (some located.sector) false generation located.state
      pure (previousLen - kept.length)

def tombstoneReplayCounters (tombstone : ReplayCounterTombstone) : JournalM Unit := do
  match ← current cfg with
  | none => pure ()
  | some located =>
    let _ ← compactReplayCounters cfg (fun replay => !replay.matchesTombstone tombstone) located

def retainReplayCounters (retain : PersistentReplayCounter → Bool) : JournalM Nat := do
  match ← current cfg with
  | none => pure 0
  | some located => compactReplayCounters cfg retain located

end Zigbee.Runtime.SecurityJournal
