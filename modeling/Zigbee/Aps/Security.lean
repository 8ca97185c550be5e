import Zigbee.Runtime.ReplayCounter
import Zigbee.Lib.Table

/-!
# APS security state

Model of `zigbee-aps/src/security.rs` without its cipher: the link-key table, the two global link keys
and the incoming replay floors.

A key-pair entry is named by its partner and key type.  Its outgoing counter, the end of the reserved
range of it, and its incoming floor belong to the entry, not to the key; the two global keys have no
entry, and their incoming floors stand in a table of their own.
-/

namespace Zigbee.Aps

open Zigbee.Runtime (ApsReplayCounter ApsReplayOrigin)
open Table (modifyFirst swapRemove)

/-- Identifies the security material that protects one APS frame. -/
inductive ApsKeyOrigin where
  | keyPair (partner : IeeeAddress) (keyType : ApsKeyType)
  | preconfiguredGlobal
  | distributedGlobal
  deriving DecidableEq

/-- APS link key table entry. -/
structure ApsLinkKeyEntry where
  partnerAddress : IeeeAddress
  key : AesKey
  keyType : ApsKeyType
  outgoingFrameCounter : UInt32
  /-- Exclusive upper bound of the durably reserved outgoing-counter range. -/
  outgoingFrameCounterLimit : UInt32
  incomingFrameCounter : UInt32
  incomingFrameCounterValid : Bool
  deriving DecidableEq

/-- The entry of `(partner, keyType)`. -/
def ApsLinkKeyEntry.isFor (partner : IeeeAddress) (keyType : ApsKeyType) (e : ApsLinkKeyEntry) : Bool :=
  e.partnerAddress == partner && e.keyType == keyType

def MAX_ACTIVE_GLOBAL_REPLAY_DOMAINS : Nat := 2

/-- `maxKeyTableEntries` is 32 for a Trust Center build, else 16. -/
structure ApsSecurity where
  maxKeyTableEntries : Nat
  keyTable : List ApsLinkKeyEntry
  defaultTcLinkKey : AesKey
  distributedSecurityLinkKey : Option AesKey
  globalReplayTable : List ApsReplayCounter
  /-- Entries whose incoming floor was established under a previous key. -/
  staleIncomingFloors : List (IeeeAddress × ApsKeyType)

open ApsLinkKeyEntry

namespace ApsSecurity

def findKey (s : ApsSecurity) (partner : IeeeAddress) (keyType : ApsKeyType) : Option ApsLinkKeyEntry :=
  s.keyTable.find? (isFor partner keyType)

/-- A change through `find_key_mut`. -/
def updateKey (s : ApsSecurity) (partner : IeeeAddress) (keyType : ApsKeyType)
    (f : ApsLinkKeyEntry → ApsLinkKeyEntry) : ApsSecurity :=
  { s with keyTable := modifyFirst (isFor partner keyType) f s.keyTable }

/-! ## Floors that predate their key -/

def incomingFloorPredatesKey (s : ApsSecurity) (partner : IeeeAddress) (keyType : ApsKeyType) : Bool :=
  s.staleIncomingFloors.any (· == (partner, keyType))

def setStaleIncomingFloor (s : ApsSecurity) (partner : IeeeAddress) (keyType : ApsKeyType) (stale : Bool) :
    ApsSecurity :=
  match s.staleIncomingFloors.findIdx? (· == (partner, keyType)), stale with
  | none, true =>
    if s.staleIncomingFloors.length < s.maxKeyTableEntries then
      { s with staleIncomingFloors := s.staleIncomingFloors ++ [(partner, keyType)] }
    else s
  | some index, false => { s with staleIncomingFloors := swapRemove s.staleIncomingFloors index }
  | _, _ => s

/-- Drop the incoming floor of an entry if it belongs to a previous key. -/
def resetStaleIncomingFloor (s : ApsSecurity) (partner : IeeeAddress) (keyType : ApsKeyType) : ApsSecurity :=
  if !s.incomingFloorPredatesKey partner keyType then s
  else
    (s.setStaleIncomingFloor partner keyType false).updateKey partner keyType fun e =>
      { e with incomingFrameCounter := 0, incomingFrameCounterValid := false }

/-! ## Keys -/

/-- `none` when the table is full. -/
def addKey (s : ApsSecurity) (entry : ApsLinkKeyEntry) : Option ApsSecurity :=
  match s.findKey entry.partnerAddress entry.keyType with
  | some existing =>
    let s' := s.updateKey entry.partnerAddress entry.keyType fun e =>
      { e with
        key := entry.key
        outgoingFrameCounter := entry.outgoingFrameCounter
        outgoingFrameCounterLimit := entry.outgoingFrameCounterLimit
        incomingFrameCounter := entry.incomingFrameCounter
        incomingFrameCounterValid := entry.incomingFrameCounterValid }
    some (if existing.key != entry.key then
      s'.setStaleIncomingFloor entry.partnerAddress entry.keyType entry.incomingFrameCounterValid
    else s')
  | none =>
    if s.keyTable.length < s.maxKeyTableEntries then some { s with keyTable := s.keyTable ++ [entry] } else none

def removeKey (s : ApsSecurity) (partner : IeeeAddress) (keyType : ApsKeyType) : ApsSecurity :=
  match s.keyTable.findIdx? (isFor partner keyType) with
  | some index =>
    { s with keyTable := swapRemove s.keyTable index }.setStaleIncomingFloor partner keyType false
  | none => s

/-- The loop of `clear_application_link_keys` from a slot on. -/
def clearFrom : Nat → Nat → List ApsLinkKeyEntry → List ApsLinkKeyEntry
  | 0, _, l => l
  | fuel + 1, index, l =>
    match l[index]? with
    | none => l
    | some e =>
      if e.keyType == .applicationLinkKey then clearFrom fuel index (swapRemove l index)
      else clearFrom fuel (index + 1) l

/-- Trust Center link keys stay. -/
def clearApplicationLinkKeys (s : ApsSecurity) : ApsSecurity :=
  { s with
    keyTable := clearFrom s.keyTable.length 0 s.keyTable
    staleIncomingFloors := s.staleIncomingFloors.filter (·.2 != .applicationLinkKey) }

/-! ## Incoming floors -/

/-- Read-only replay check of a key-pair entry. -/
def checkFrameCounter (s : ApsSecurity) (partner : IeeeAddress) (keyType : ApsKeyType) (counter : UInt32) : Bool :=
  match s.findKey partner keyType with
  | some e => !e.incomingFrameCounterValid || e.incomingFrameCounter < counter
  | none => true

def commitFrameCounter (s : ApsSecurity) (partner : IeeeAddress) (keyType : ApsKeyType) (counter : UInt32) :
    ApsSecurity :=
  match s.findKey partner keyType with
  | some e =>
    if !e.incomingFrameCounterValid || e.incomingFrameCounter < counter then
      (s.updateKey partner keyType fun e =>
        { e with incomingFrameCounter := counter, incomingFrameCounterValid := true }).setStaleIncomingFloor
          partner keyType false
    else s
  | none => s

/-- Commit a verified floor. -/
def commitReplayCounter (s : ApsSecurity) (replay : ApsReplayCounter) : ApsSecurity :=
  match replay.origin with
  | .keyPair partner keyType => s.commitFrameCounter partner keyType replay.counter
  | _ =>
    match s.globalReplayTable.find? fun e => e.origin.eq replay.origin with
    | some e =>
      if e.counter < replay.counter then
        { s with
          globalReplayTable := modifyFirst (fun e => e.origin.eq replay.origin) (fun _ => replay) s.globalReplayTable }
      else s
    | none =>
      if s.globalReplayTable.length < MAX_ACTIVE_GLOBAL_REPLAY_DOMAINS then
        { s with globalReplayTable := s.globalReplayTable ++ [replay] }
      else s

/-! ## Outgoing counters -/

/-- The counter before the increment; `none` without an entry or at the end of its reserved range. -/
def nextFrameCounter (s : ApsSecurity) (partner : IeeeAddress) (keyType : ApsKeyType) :
    ApsSecurity × Option UInt32 :=
  match s.findKey partner keyType with
  | some e =>
    if e.outgoingFrameCounterLimit ≤ e.outgoingFrameCounter then (s, none)
    else
      (s.updateKey partner keyType fun e => { e with outgoingFrameCounter := e.outgoingFrameCounter + 1 },
        some e.outgoingFrameCounter)
  | none => (s, none)

/-! ## Where a key is found -/

variable {s : ApsSecurity} {partner partner' : IeeeAddress} {keyType keyType' : ApsKeyType}

theorem findKey_eq_some {e : ApsLinkKeyEntry} (h : s.findKey partner keyType = some e) :
    e ∈ s.keyTable ∧ e.partnerAddress = partner ∧ e.keyType = keyType := by
  refine ⟨List.mem_of_find?_eq_some h, ?_⟩
  simpa [isFor] using List.find?_some h

/-- A change that keeps the names of the entries. -/
theorem findKey_updateKey {f : ApsLinkKeyEntry → ApsLinkKeyEntry} (hpartner : ∀ e, (f e).partnerAddress = e.partnerAddress)
    (htype : ∀ e, (f e).keyType = e.keyType) :
    (s.updateKey partner keyType f).findKey partner' keyType' =
      if partner' = partner ∧ keyType' = keyType then (s.findKey partner' keyType').map f
      else s.findKey partner' keyType' := by
  have hsame : ∀ p t e, isFor p t (f e) = isFor p t e := by
    intro p t e
    unfold isFor
    rw [hpartner, htype]
  split
  · rename_i heq
    obtain ⟨rfl, rfl⟩ := heq
    exact Table.find?_modifyFirst (fun e he => (hsame _ _ e).trans he) _
  · rename_i hne
    refine Table.find?_modifyFirst_other (hsame _ _) (fun e he => ?_) _
    simp only [isFor, Bool.and_eq_true, beq_iff_eq] at he
    by_contra hother
    simp only [isFor, Bool.not_eq_false, Bool.and_eq_true, beq_iff_eq] at hother
    exact hne ⟨hother.1.symm.trans he.1, hother.2.symm.trans he.2⟩

@[simp] theorem setStaleIncomingFloor_findKey (stale : Bool) :
    (s.setStaleIncomingFloor partner keyType stale).findKey partner' keyType' = s.findKey partner' keyType' := by
  unfold setStaleIncomingFloor
  split
  · split <;> rfl
  · rfl
  · rfl

theorem findKey_addKey {entry : ApsLinkKeyEntry} {s' : ApsSecurity} (h : s.addKey entry = some s') :
    s'.findKey partner keyType =
      if partner = entry.partnerAddress ∧ keyType = entry.keyType then some entry else s.findKey partner keyType := by
  unfold addKey at h
  split at h
  · rename_i existing hexisting
    obtain ⟨-, hpartner, htype⟩ := findKey_eq_some hexisting
    have hfind : ∀ s'' : ApsSecurity, s''.findKey partner keyType = (s.updateKey entry.partnerAddress entry.keyType fun e =>
        { e with
          key := entry.key
          outgoingFrameCounter := entry.outgoingFrameCounter
          outgoingFrameCounterLimit := entry.outgoingFrameCounterLimit
          incomingFrameCounter := entry.incomingFrameCounter
          incomingFrameCounterValid := entry.incomingFrameCounterValid }).findKey partner keyType →
        s''.findKey partner keyType =
          if partner = entry.partnerAddress ∧ keyType = entry.keyType then some entry else s.findKey partner keyType := by
      intro s'' hs
      rw [hs, findKey_updateKey]
      · split
        · rename_i heq
          rw [heq.1, heq.2, hexisting, Option.map_some, hpartner, htype]
        · rfl
      · exact fun _ => rfl
      · exact fun _ => rfl
    cases h
    apply hfind
    split
    · exact setStaleIncomingFloor_findKey _
    · rfl
  · rename_i hnone
    split at h
    · cases h
      unfold findKey at hnone ⊢
      rw [List.find?_append]
      split
      · rename_i heq
        rw [heq.1, heq.2, hnone]
        simp [isFor]
      · rename_i hne
        have hnot : ¬ isFor partner keyType entry = true := by
          simp only [isFor, Bool.and_eq_true, beq_iff_eq]
          exact fun h => hne ⟨h.1.symm, h.2.symm⟩
        simp [hnot]
    · cases h

theorem clearFrom_spec {fuel index : Nat} {l : List ApsLinkKeyEntry} (hfuel : l.length ≤ index + fuel)
    (hbefore : ∀ e ∈ l.take index, e.keyType ≠ .applicationLinkKey) :
    ∀ e ∈ clearFrom fuel index l, e.keyType ≠ .applicationLinkKey := by
  induction fuel generalizing index l with
  | zero =>
    intro e he
    exact hbefore e (by rwa [List.take_of_length_le (by omega)])
  | succ fuel ih =>
    unfold clearFrom
    split
    · rename_i hnone
      intro e he
      exact hbefore e (by rwa [List.take_of_length_le (List.getElem?_eq_none_iff.mp hnone)])
    · rename_i e hget
      obtain ⟨hlt, hslot⟩ := List.getElem?_eq_some_iff.mp hget
      split
      · refine ih ?_ ?_
        · rw [Table.length_swapRemove hlt]
          omega
        · rw [Table.take_swapRemove hlt]
          exact hbefore
      · rename_i hkeep
        refine ih (by omega) ?_
        intro x hx
        rw [List.take_succ_eq_append_getElem hlt, hslot] at hx
        rcases List.mem_append.mp hx with hx | hx
        · exact hbefore x hx
        · rw [List.mem_singleton.mp hx]
          simpa using hkeep

theorem findKey_clearApplicationLinkKeys : s.clearApplicationLinkKeys.findKey partner .applicationLinkKey = none := by
  have hspec : ∀ e ∈ clearFrom s.keyTable.length 0 s.keyTable, e.keyType ≠ .applicationLinkKey :=
    clearFrom_spec (by omega) (by simp)
  refine List.find?_eq_none.mpr fun e he => ?_
  simp [isFor, hspec e he]

end ApsSecurity

end Zigbee.Aps
