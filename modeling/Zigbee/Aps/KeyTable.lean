import Zigbee.Aps.Security
import Zigbee.Lib.Run

/-!
# Runs of the link-key table

The operations of `ApsSecurity` on its key table (`zigbee-aps/src/security.rs`), in any order from an empty table.

* `KeyOp`, `keyStep` — the operations.
* `Consistent` — one entry a name, one mark a name, and no mark without an entry.
* `KeySlot` — what the table holds under one name, with the same operations; `slot_step` is the refinement.
* `key_table_invariant` — what holds of every run.
-/

namespace Zigbee.Aps

open Zigbee.Runtime (ApsReplayCounter ApsReplayOrigin)
open Table (swapRemove)
open ApsSecurity

namespace ApsSecurity

/-- An empty table. -/
def new (maxKeyTableEntries : Nat) (defaultTcLinkKey : AesKey) : ApsSecurity where
  maxKeyTableEntries
  keyTable := []
  defaultTcLinkKey
  distributedSecurityLinkKey := none
  globalReplayTable := []
  staleIncomingFloors := []

def clearKeys (s : ApsSecurity) : ApsSecurity := { s with keyTable := [], globalReplayTable := [], staleIncomingFloors := [] }

end ApsSecurity

/-- A partner and a key type. -/
abbrev KeyName := IeeeAddress × ApsKeyType

def ApsLinkKeyEntry.name (e : ApsLinkKeyEntry) : KeyName := (e.partnerAddress, e.keyType)

inductive KeyOp where
  | addKey (entry : ApsLinkKeyEntry)
  | removeKey (name : KeyName)
  | clearKeys
  | clearApplicationLinkKeys
  | resetStaleIncomingFloor (name : KeyName)
  | commitFrameCounter (name : KeyName) (counter : UInt32)
  | commitReplayCounter (replay : ApsReplayCounter)
  | nextFrameCounter (name : KeyName)

/-- One operation, with the counter that it allocates. -/
def keyStep (s : ApsSecurity) : KeyOp → ApsSecurity × Option UInt32
  | .addKey entry => ((s.addKey entry).getD s, none)
  | .removeKey name => (s.removeKey name.1 name.2, none)
  | .clearKeys => (s.clearKeys, none)
  | .clearApplicationLinkKeys => (s.clearApplicationLinkKeys, none)
  | .resetStaleIncomingFloor name => (s.resetStaleIncomingFloor name.1 name.2, none)
  | .commitFrameCounter name counter => (s.commitFrameCounter name.1 name.2 counter, none)
  | .commitReplayCounter replay => (s.commitReplayCounter replay, none)
  | .nextFrameCounter name => s.nextFrameCounter name.1 name.2

/-! ## Consistent tables -/

structure Consistent (s : ApsSecurity) : Prop where
  distinct : (s.keyTable.map ApsLinkKeyEntry.name).Nodup
  room : s.keyTable.length ≤ s.maxKeyTableEntries
  marks : s.staleIncomingFloors.Nodup
  owned : ∀ name ∈ s.staleIncomingFloors, name ∈ s.keyTable.map ApsLinkKeyEntry.name

variable {s : ApsSecurity}

variable {e : ApsLinkKeyEntry}

theorem isFor_iff {name : KeyName} : ApsLinkKeyEntry.isFor name.1 name.2 e = true ↔ e.name = name := by
  simp [ApsLinkKeyEntry.isFor, ApsLinkKeyEntry.name, Prod.ext_iff]

theorem findKey_iff (hs : (s.keyTable.map ApsLinkKeyEntry.name).Nodup) {name : KeyName} :
    s.findKey name.1 name.2 = some e ↔ e ∈ s.keyTable ∧ e.name = name := by
  constructor
  · intro h
    exact ⟨List.mem_of_find?_eq_some h, isFor_iff.mp (List.find?_some h)⟩
  · rintro ⟨he, rfl⟩
    exact Table.find?_eq_of_nodup hs (fun y => isFor_iff) he

theorem findKey_none {name : KeyName} : s.findKey name.1 name.2 = none ↔ name ∉ s.keyTable.map ApsLinkKeyEntry.name := by
  rw [findKey, List.find?_eq_none, List.mem_map]
  constructor
  · rintro h ⟨e, he, rfl⟩
    exact h e he (isFor_iff.mpr rfl)
  · intro h e he hfor
    exact h ⟨e, he, isFor_iff.mp hfor⟩

theorem predates_iff {name : KeyName} : s.incomingFloorPredatesKey name.1 name.2 = true ↔ name ∈ s.staleIncomingFloors := by
  rw [incomingFloorPredatesKey, List.any_eq_true]
  simp

/-- A new mark has room. -/
theorem Consistent.marks_lt (h : Consistent s) {name : KeyName} (hname : name ∈ s.keyTable.map ApsLinkKeyEntry.name)
    (hnew : name ∉ s.staleIncomingFloors) : s.staleIncomingFloors.length < s.maxKeyTableEntries := by
  have hsub : (name :: s.staleIncomingFloors).Subperm (s.keyTable.map ApsLinkKeyEntry.name) := by
    refine List.Nodup.subperm (List.nodup_cons.mpr ⟨hnew, h.marks⟩) fun x hx => ?_
    rcases List.mem_cons.mp hx with rfl | hx
    · exact hname
    · exact h.owned x hx
  have hlen := hsub.length_le
  rw [List.length_cons, List.length_map] at hlen
  have := h.room
  omega

/-! ### The parts of an operation -/

variable {f : ApsLinkKeyEntry → ApsLinkKeyEntry}

theorem names_updateKey (name : KeyName) (hf : ∀ e, (f e).name = e.name) :
    (s.updateKey name.1 name.2 f).keyTable.map ApsLinkKeyEntry.name = s.keyTable.map ApsLinkKeyEntry.name :=
  Table.map_modifyFirst hf

/-- A change through `find_key_mut` that keeps the names. -/
theorem Consistent.updateKey (h : Consistent s) (name : KeyName) (hf : ∀ e, (f e).name = e.name) :
    Consistent (s.updateKey name.1 name.2 f) := by
  have hnames := names_updateKey (s := s) name hf
  refine ⟨by rw [hnames]; exact h.distinct, ?_, h.marks, ?_⟩
  · rw [ApsSecurity.updateKey, Table.length_modifyFirst]
    exact h.room
  · rw [hnames]
    exact h.owned

/-- What setting a mark does, where there is room for it. -/
theorem setStale_marks (hmarks : s.staleIncomingFloors.Nodup) {name : KeyName} {stale : Bool}
    (hroom : stale = true → name ∉ s.staleIncomingFloors → s.staleIncomingFloors.length < s.maxKeyTableEntries) :
    (s.setStaleIncomingFloor name.1 name.2 stale).staleIncomingFloors.Nodup ∧
      ∀ name', name' ∈ (s.setStaleIncomingFloor name.1 name.2 stale).staleIncomingFloors ↔
        if name' = name then stale = true else name' ∈ s.staleIncomingFloors := by
  have hfound : ∀ {i}, s.staleIncomingFloors.findIdx? (· == (name.1, name.2)) = some i →
      ∃ hi : i < s.staleIncomingFloors.length, s.staleIncomingFloors[i] = name := by
    intro i hi
    obtain ⟨x, hx, heq⟩ := Table.getElem?_of_findIdx? hi
    obtain ⟨hlt, hat⟩ := List.getElem?_eq_some_iff.mp hx
    exact ⟨hlt, hat.trans (beq_iff_eq.mp heq)⟩
  unfold setStaleIncomingFloor
  split
  · rename_i hnone
    have hnew : name ∉ s.staleIncomingFloors := by
      intro hmem
      have := List.findIdx?_eq_none_iff.mp hnone name hmem
      simp at this
    rw [if_pos (hroom rfl hnew)]
    refine ⟨hmarks.append (List.nodup_singleton _) (by simpa using hnew), fun name' => ?_⟩
    rw [List.mem_append, List.mem_singleton]
    split
    · rename_i heq
      exact iff_of_true (Or.inr heq) rfl
    · rename_i hne
      exact or_iff_left hne
  · rename_i index hindex
    obtain ⟨hi, hat⟩ := hfound hindex
    have hperm := Table.swapRemove_perm hi
    refine ⟨hperm.nodup_iff.mpr (hmarks.eraseIdx index), fun name' => ?_⟩
    rw [hperm.mem_iff, ← List.Nodup.erase_getElem hmarks index hi, hmarks.mem_erase_iff, hat]
    split
    · rename_i heq
      simp [heq]
    · rename_i hne
      exact and_iff_right hne
  · rename_i stale _ _ hother hnot
    refine ⟨hmarks, fun name' => ?_⟩
    split
    · rename_i heq
      rw [heq]
      cases hindex : s.staleIncomingFloors.findIdx? (· == (name.1, name.2)) with
      | none =>
        cases stale with
        | true => exact absurd rfl (hother hindex)
        | false =>
          refine iff_of_false (fun hmem => ?_) Bool.false_ne_true
          have := List.findIdx?_eq_none_iff.mp hindex name hmem
          simp at this
      | some i =>
        cases stale with
        | true =>
          obtain ⟨hi, hat⟩ := hfound hindex
          exact iff_of_true (by rw [← hat]; exact List.getElem_mem hi) rfl
        | false => exact absurd rfl (hnot i hindex)
    · exact Iff.rfl

@[simp] theorem setStale_keyTable (name : KeyName) (stale : Bool) :
    (s.setStaleIncomingFloor name.1 name.2 stale).keyTable = s.keyTable := by
  unfold setStaleIncomingFloor
  split
  · split <;> rfl
  · rfl
  · rfl

@[simp] theorem setStale_max (name : KeyName) (stale : Bool) :
    (s.setStaleIncomingFloor name.1 name.2 stale).maxKeyTableEntries = s.maxKeyTableEntries := by
  unfold setStaleIncomingFloor
  split
  · split <;> rfl
  · rfl
  · rfl

theorem Consistent.setStale (h : Consistent s) {name : KeyName} (hname : name ∈ s.keyTable.map ApsLinkKeyEntry.name) (stale : Bool) :
    Consistent (s.setStaleIncomingFloor name.1 name.2 stale) ∧
      ∀ name', name' ∈ (s.setStaleIncomingFloor name.1 name.2 stale).staleIncomingFloors ↔
        if name' = name then stale = true else name' ∈ s.staleIncomingFloors := by
  obtain ⟨hnodup, hmem⟩ := setStale_marks h.marks fun (_ : stale = true) hnew => h.marks_lt hname hnew
  refine ⟨⟨?_, ?_, hnodup, fun name' hname' => ?_⟩, hmem⟩
  · rw [setStale_keyTable]
    exact h.distinct
  · rw [setStale_keyTable, setStale_max]
    exact h.room
  · rw [setStale_keyTable]
    rw [hmem] at hname'
    split at hname'
    · rename_i heq
      rw [heq]
      exact hname
    · exact h.owned name' hname'

/-! ## One name -/

/-- The entry of a name, and whether its floor is marked as stale. -/
structure KeySlot where
  entry : Option ApsLinkKeyEntry
  stale : Bool

def slot (s : ApsSecurity) (name : KeyName) : KeySlot := ⟨s.findKey name.1 name.2, s.incomingFloorPredatesKey name.1 name.2⟩

namespace KeySlot

def empty : KeySlot := ⟨none, false⟩

def addKey (k : KeySlot) (room : Bool) (entry : ApsLinkKeyEntry) : KeySlot :=
  match k.entry with
  | some existing => ⟨some entry, if existing.key ≠ entry.key then entry.incomingFrameCounterValid else k.stale⟩
  | none => if room then ⟨some entry, k.stale⟩ else k

def resetStaleIncomingFloor (k : KeySlot) : KeySlot :=
  if k.stale then ⟨k.entry.map fun e => { e with incomingFrameCounter := 0, incomingFrameCounterValid := false }, false⟩ else k

def commitFrameCounter (k : KeySlot) (counter : UInt32) : KeySlot :=
  match k.entry with
  | some e =>
    if !e.incomingFrameCounterValid || e.incomingFrameCounter < counter then
      ⟨some { e with incomingFrameCounter := counter, incomingFrameCounterValid := true }, false⟩
    else k
  | none => k

def nextFrameCounter (k : KeySlot) : KeySlot × Option UInt32 :=
  match k.entry with
  | some e =>
    if e.outgoingFrameCounterLimit ≤ e.outgoingFrameCounter then (k, none)
    else (⟨some { e with outgoingFrameCounter := e.outgoingFrameCounter + 1 }, k.stale⟩, some e.outgoingFrameCounter)
  | none => (k, none)

/-- What an operation does under one name; `room` says whether the table takes another entry. -/
def step (room : Bool) (name : KeyName) (k : KeySlot) : KeyOp → KeySlot
  | .addKey entry => if entry.name = name then k.addKey room entry else k
  | .removeKey name' => if name' = name then empty else k
  | .clearKeys => empty
  | .clearApplicationLinkKeys => if name.2 = .applicationLinkKey then empty else k
  | .resetStaleIncomingFloor name' => if name' = name then k.resetStaleIncomingFloor else k
  | .commitFrameCounter name' counter => if name' = name then k.commitFrameCounter counter else k
  | .commitReplayCounter replay => if replay.origin = .keyPair name.1 name.2 then k.commitFrameCounter replay.counter else k
  | .nextFrameCounter name' => if name' = name then k.nextFrameCounter.1 else k

end KeySlot

variable {s' : ApsSecurity} {k : KeySlot}

theorem slot_eq {name : KeyName} (hentry : s'.findKey name.1 name.2 = k.entry) (hstale : name ∈ s'.staleIncomingFloors ↔ k.stale = true) :
    slot s' name = k := by
  rw [slot, hentry]
  have : s'.incomingFloorPredatesKey name.1 name.2 = k.stale := by rw [Bool.eq_iff_iff, predates_iff, hstale]
  rw [this]

theorem slot_entry (s : ApsSecurity) (name : KeyName) : (slot s name).entry = s.findKey name.1 name.2 := rfl

theorem slot_stale {name : KeyName} : (slot s name).stale = true ↔ name ∈ s.staleIncomingFloors := predates_iff

/-! ## Every operation -/

theorem ApsLinkKeyEntry.name_eq {name : KeyName} : (name.1 = e.partnerAddress ∧ name.2 = e.keyType) ↔ e.name = name := by
  rw [ApsLinkKeyEntry.name, Prod.ext_iff]
  exact and_congr eq_comm eq_comm

theorem mem_names {name : KeyName} (h : s.findKey name.1 name.2 = some e) : name ∈ s.keyTable.map ApsLinkKeyEntry.name := by
  by_contra hnot
  rw [findKey_none.mpr hnot] at h
  cases h

open KeySlot

theorem addKey_spec (hs : Consistent s) {entry : ApsLinkKeyEntry} (h : s.addKey entry = some s') :
    Consistent s' ∧ ∀ name, slot s' name = if entry.name = name then (slot s name).addKey true entry else slot s name := by
  have hfind : ∀ name : KeyName, s'.findKey name.1 name.2 = if entry.name = name then some entry else s.findKey name.1 name.2 := by
    intro name
    rw [findKey_addKey h]
    exact if_congr ApsLinkKeyEntry.name_eq rfl rfl
  unfold ApsSecurity.addKey at h
  split at h
  · -- the entry is there: it is changed, and marked as its key and floor say
    rename_i existing hexisting
    generalize hu : s.updateKey entry.partnerAddress entry.keyType _ = u at h
    have hupdate : Consistent u := by
      rw [← hu]
      exact hs.updateKey entry.name fun _ => rfl
    have hmarks : u.staleIncomingFloors = s.staleIncomingFloors := by rw [← hu]; rfl
    have hnames : u.keyTable.map ApsLinkKeyEntry.name = s.keyTable.map ApsLinkKeyEntry.name := by
      rw [← hu]
      exact names_updateKey entry.name fun _ => rfl
    have hname : entry.name ∈ u.keyTable.map ApsLinkKeyEntry.name := by
      rw [hnames]
      exact mem_names (show s.findKey entry.name.1 entry.name.2 = some existing from hexisting)
    have hmark : Consistent s' ∧ ∀ name, name ∈ s'.staleIncomingFloors ↔
        if name = entry.name then (if existing.key ≠ entry.key then entry.incomingFrameCounterValid else (slot s name).stale) = true
        else name ∈ s.staleIncomingFloors := by
      cases h
      by_cases hkey : existing.key = entry.key
      · rw [if_neg (by simpa using hkey)]
        refine ⟨hupdate, fun name => ?_⟩
        rw [hmarks, if_neg (not_not.mpr hkey), slot_stale, ite_self]
      · rw [if_pos (by simpa using hkey)]
        obtain ⟨hconsistent, hmem⟩ := hupdate.setStale hname entry.incomingFrameCounterValid
        refine ⟨hconsistent, fun name => ?_⟩
        rw [if_pos hkey, ← hmarks]
        exact hmem name
    refine ⟨hmark.1, fun name => slot_eq ?_ ?_⟩
    · rw [hfind]
      split
      · rename_i heq
        subst heq
        rw [KeySlot.addKey, show (slot s entry.name).entry = some existing from hexisting]
      · rfl
    · rw [hmark.2]
      split
      · rename_i heq
        subst heq
        rw [if_pos rfl, KeySlot.addKey, show (slot s entry.name).entry = some existing from hexisting]
      · rename_i hne
        rw [if_neg fun heq => hne heq.symm]
        exact slot_stale.symm
  · rename_i hnone
    split at h
    · rename_i hroom
      cases h
      have hnew : entry.name ∉ s.keyTable.map ApsLinkKeyEntry.name := findKey_none.mp hnone
      refine ⟨⟨Table.nodup_append_new hs.distinct fun y hy heq => hnew (heq ▸ List.mem_map_of_mem hy), ?_, hs.marks, fun name hname => ?_⟩,
        fun name => slot_eq ?_ ?_⟩
      · rw [List.length_append, List.length_singleton]
        exact hroom
      · rw [List.map_append]
        exact List.mem_append_left _ (hs.owned name hname)
      · rw [hfind]
        split
        · rename_i heq
          subst heq
          rw [KeySlot.addKey, show (slot s entry.name).entry = none from hnone]
          rfl
        · rfl
      · split
        · rename_i heq
          subst heq
          rw [KeySlot.addKey, show (slot s entry.name).entry = none from hnone]
          exact slot_stale.symm
        · exact slot_stale.symm
    · cases h

theorem addKey_none {entry : ApsLinkKeyEntry} (h : s.addKey entry = none) (name : KeyName) :
    slot s name = if entry.name = name then (slot s name).addKey false entry else slot s name := by
  unfold ApsSecurity.addKey at h
  split at h
  · cases h
  · rename_i hnone
    split
    · rename_i heq
      subst heq
      rw [KeySlot.addKey, show (slot s entry.name).entry = none from hnone]
      rfl
    · rfl

/-- A table without the entries and marks of some names. -/
theorem removed_spec (hs : Consistent s) (gone : KeyName → Prop) [DecidablePred gone]
    (hdistinct : (s'.keyTable.map ApsLinkKeyEntry.name).Nodup) (hmem : ∀ e, e ∈ s'.keyTable ↔ e ∈ s.keyTable ∧ ¬ gone e.name)
    (hlen : s'.keyTable.length ≤ s.keyTable.length) (hmax : s'.maxKeyTableEntries = s.maxKeyTableEntries)
    (hnodup : s'.staleIncomingFloors.Nodup) (hmarks : ∀ name, name ∈ s'.staleIncomingFloors ↔ name ∈ s.staleIncomingFloors ∧ ¬ gone name) :
    Consistent s' ∧ ∀ name, slot s' name = if gone name then .empty else slot s name := by
  refine ⟨⟨hdistinct, ?_, hnodup, fun name hname => ?_⟩, fun name => ?_⟩
  · rw [hmax]
    exact hlen.trans hs.room
  · obtain ⟨hold, hkept⟩ := (hmarks name).mp hname
    obtain ⟨e, he, rfl⟩ := List.mem_map.mp (hs.owned name hold)
    exact List.mem_map_of_mem ((hmem e).mpr ⟨he, hkept⟩)
  · split
    · rename_i hgone
      refine slot_eq (findKey_none.mpr fun hname => ?_) ?_
      · obtain ⟨e, he, rfl⟩ := List.mem_map.mp hname
        exact ((hmem e).mp he).2 hgone
      · rw [hmarks]
        exact iff_of_false (fun h => h.2 hgone) Bool.false_ne_true
    · rename_i hkept
      refine slot_eq ?_ ?_
      · rw [slot_entry]
        refine Option.ext fun e => ?_
        have hiff : (e ∈ s'.keyTable ∧ e.name = name) ↔ (e ∈ s.keyTable ∧ e.name = name) := by
          rw [hmem]
          constructor
          · rintro ⟨⟨he, -⟩, hname⟩
            exact ⟨he, hname⟩
          · rintro ⟨he, rfl⟩
            exact ⟨⟨he, hkept⟩, rfl⟩
        exact (findKey_iff hdistinct).trans (hiff.trans (findKey_iff hs.distinct).symm)
      · rw [hmarks, slot_stale, and_iff_left hkept]

/-- A name without an entry has an empty slot. -/
theorem Consistent.slot_empty (hs : Consistent s) {name : KeyName} (h : s.findKey name.1 name.2 = none) : slot s name = .empty :=
  slot_eq h (iff_of_false (fun hmark => findKey_none.mp h (hs.owned name hmark)) Bool.false_ne_true)

theorem removeKey_spec (hs : Consistent s) (name : KeyName) :
    Consistent (s.removeKey name.1 name.2) ∧
      ∀ name', slot (s.removeKey name.1 name.2) name' = if name = name' then .empty else slot s name' := by
  unfold removeKey
  split
  · rename_i index hindex
    obtain ⟨e, he, hfor⟩ := Table.getElem?_of_findIdx? hindex
    obtain ⟨hi, hat⟩ := List.getElem?_eq_some_iff.mp he
    have hname : s.keyTable[index].name = name := by
      rw [hat]
      exact isFor_iff.mp hfor
    have hmarks := setStale_marks (s := { s with keyTable := swapRemove s.keyTable index }) hs.marks
      fun (h : false = true) (_ : name ∉ s.staleIncomingFloors) => absurd h Bool.false_ne_true
    refine removed_spec hs (fun name' => name = name') ?_ (fun x => ?_) ?_ (setStale_max _ _) hmarks.1 fun name' => ?_
    · rw [setStale_keyTable]
      exact Table.nodup_swapRemove hs.distinct
    · have hnodup : s.keyTable.Nodup := hs.distinct.of_map _
      rw [setStale_keyTable]
      show x ∈ swapRemove s.keyTable index ↔ x ∈ s.keyTable ∧ ¬ name = x.name
      rw [(Table.swapRemove_perm hi).mem_iff, ← List.Nodup.erase_getElem hnodup index hi, hnodup.mem_erase_iff, and_comm]
      refine and_congr_right fun hx => not_congr ⟨fun heq => ?_, fun heq => ?_⟩
      · rw [heq]
        exact hname.symm
      · exact List.inj_on_of_nodup_map hs.distinct hx (List.getElem_mem hi) (heq.symm.trans hname.symm)
    · rw [setStale_keyTable]
      exact Table.length_swapRemove_le _ _
    · rw [hmarks.2]
      split
      · rename_i heq
        simp [heq]
      · rename_i hne
        exact (and_iff_left fun heq => hne heq.symm).symm
  · rename_i hnone
    refine ⟨hs, fun name' => ?_⟩
    split
    · rename_i heq
      subst heq
      refine hs.slot_empty (List.find?_eq_none.mpr fun e he hfor => ?_)
      have := List.findIdx?_eq_none_iff.mp hnone e he
      rw [hfor] at this
      cases this
    · rfl

theorem clearKeys_spec (s : ApsSecurity) : Consistent s.clearKeys ∧ ∀ name, slot s.clearKeys name = .empty :=
  ⟨⟨List.nodup_nil, Nat.zero_le _, List.nodup_nil, fun _ h => absurd h List.not_mem_nil⟩, fun _ => rfl⟩

/-- The loop keeps what is not an application link key. -/
theorem clearFrom_perm {fuel index : Nat} {l : List ApsLinkKeyEntry} (hfuel : l.length ≤ index + fuel) :
    (clearFrom fuel index l).Perm (l.take index ++ (l.drop index).filter (·.keyType != .applicationLinkKey)) := by
  induction fuel generalizing index l with
  | zero =>
    rw [clearFrom, List.take_of_length_le (by omega), List.drop_eq_nil_of_le (by omega)]
    simp
  | succ fuel ih =>
    unfold clearFrom
    split
    · rename_i hnone
      have hlen := List.getElem?_eq_none_iff.mp hnone
      rw [List.take_of_length_le hlen, List.drop_eq_nil_of_le hlen]
      simp
    · rename_i e hget
      obtain ⟨hlt, hat⟩ := List.getElem?_eq_some_iff.mp hget
      have hdrop : l.drop index = e :: l.drop (index + 1) := by rw [List.drop_eq_getElem_cons hlt, hat]
      split
      · rename_i happ
        have hrest : ((swapRemove l index).drop index).Perm (l.drop (index + 1)) := by
          have hperm := Table.swapRemove_perm hlt
          rw [← List.take_append_drop index (swapRemove l index), Table.take_swapRemove hlt, List.eraseIdx_eq_take_drop_succ] at hperm
          exact (List.perm_append_left_iff _).mp hperm
        refine (ih (by rw [Table.length_swapRemove hlt]; omega)).trans ?_
        rw [Table.take_swapRemove hlt, hdrop, List.filter_cons_of_neg (by simpa using happ)]
        exact List.Perm.append_left _ (hrest.filter _)
      · rename_i hkeep
        refine (ih (by omega)).trans (List.Perm.of_eq ?_)
        rw [List.take_succ_eq_append_getElem hlt, hat, hdrop, List.filter_cons_of_pos (by simpa using hkeep), List.append_assoc,
          List.singleton_append]

theorem clearApplicationLinkKeys_spec (hs : Consistent s) :
    Consistent s.clearApplicationLinkKeys ∧
      ∀ name, slot s.clearApplicationLinkKeys name = if name.2 = .applicationLinkKey then .empty else slot s name := by
  have hperm : s.clearApplicationLinkKeys.keyTable.Perm (s.keyTable.filter (·.keyType != .applicationLinkKey)) := by
    have hclear := clearFrom_perm (l := s.keyTable) (show s.keyTable.length ≤ 0 + s.keyTable.length by omega)
    rw [List.take_zero, List.drop_zero, List.nil_append] at hclear
    exact hclear
  refine removed_spec hs (fun name => name.2 = .applicationLinkKey) ?_ (fun e => ?_) ?_ rfl (hs.marks.filter _) fun name => ?_
  · exact (hperm.map _).nodup_iff.mpr (hs.distinct.sublist (List.filter_sublist.map _))
  · rw [hperm.mem_iff, List.mem_filter]
    simp [ApsLinkKeyEntry.name]
  · rw [hperm.length_eq]
    exact List.length_filter_le _ _
  · show name ∈ s.staleIncomingFloors.filter (·.2 != .applicationLinkKey) ↔ _
    rw [List.mem_filter]
    simp

/-- A change of one entry that keeps its name. -/
theorem updateKey_spec (hs : Consistent s) (name : KeyName) (hpartner : ∀ e, (f e).partnerAddress = e.partnerAddress)
    (htype : ∀ e, (f e).keyType = e.keyType) :
    Consistent (s.updateKey name.1 name.2 f) ∧
      ∀ name', slot (s.updateKey name.1 name.2 f) name' = if name = name' then ⟨(slot s name').entry.map f, (slot s name').stale⟩ else slot s name' := by
  refine ⟨hs.updateKey name fun e => by rw [ApsLinkKeyEntry.name, hpartner, htype]; rfl, fun name' => ?_⟩
  have hfind : (s.updateKey name.1 name.2 f).findKey name'.1 name'.2 =
      if name'.1 = name.1 ∧ name'.2 = name.2 then (s.findKey name'.1 name'.2).map f else s.findKey name'.1 name'.2 :=
    findKey_updateKey hpartner htype
  have hstale : ∀ (u : ApsSecurity), u.staleIncomingFloors = s.staleIncomingFloors → (name' ∈ u.staleIncomingFloors ↔ (slot s name').stale = true) := by
    intro u hu
    rw [hu, slot_stale]
  split
  · rename_i heq
    subst heq
    refine slot_eq ?_ (hstale _ rfl)
    rw [hfind, if_pos ⟨rfl, rfl⟩]
    rfl
  · rename_i hne
    refine slot_eq ?_ (hstale _ rfl)
    rw [hfind, if_neg fun heq => hne (Prod.ext heq.1.symm heq.2.symm)]
    rfl

theorem setStale_spec (hs : Consistent s) {name : KeyName} (hname : name ∈ s.keyTable.map ApsLinkKeyEntry.name) (stale : Bool) :
    Consistent (s.setStaleIncomingFloor name.1 name.2 stale) ∧
      ∀ name', slot (s.setStaleIncomingFloor name.1 name.2 stale) name' = if name = name' then ⟨(slot s name').entry, stale⟩ else slot s name' := by
  obtain ⟨hset, hmem⟩ := hs.setStale hname stale
  refine ⟨hset, fun name' => ?_⟩
  split
  · rename_i heq
    subst heq
    exact slot_eq (setStaleIncomingFloor_findKey _) (by rw [hmem, if_pos rfl])
  · rename_i hne
    exact slot_eq (setStaleIncomingFloor_findKey _) (by rw [hmem, if_neg fun heq => hne heq.symm, slot_stale])

theorem resetStale_spec (hs : Consistent s) (name : KeyName) :
    Consistent (s.resetStaleIncomingFloor name.1 name.2) ∧
      ∀ name', slot (s.resetStaleIncomingFloor name.1 name.2) name' = if name = name' then (slot s name').resetStaleIncomingFloor else slot s name' := by
  unfold ApsSecurity.resetStaleIncomingFloor
  split
  · rename_i hclean
    rw [Bool.not_eq_true'] at hclean
    refine ⟨hs, fun name' => ?_⟩
    split
    · rename_i heq
      subst heq
      rw [KeySlot.resetStaleIncomingFloor, if_neg (by rw [show (slot s name).stale = false from hclean]; exact Bool.false_ne_true)]
    · rfl
  · rename_i hmarked
    rw [Bool.not_eq_true', Bool.not_eq_false, predates_iff] at hmarked
    obtain ⟨hset, hslot⟩ := setStale_spec hs (hs.owned name hmarked) false
    obtain ⟨hupdate, hslot'⟩ := updateKey_spec hset name (f := fun e => { e with incomingFrameCounter := 0, incomingFrameCounterValid := false })
      (fun _ => rfl) (fun _ => rfl)
    refine ⟨hupdate, fun name' => ?_⟩
    rw [hslot', hslot]
    split
    · rename_i heq
      subst heq
      rw [KeySlot.resetStaleIncomingFloor, if_pos (slot_stale.mpr hmarked)]
    · rfl

theorem commitFrameCounter_spec (hs : Consistent s) (name : KeyName) (counter : UInt32) :
    Consistent (s.commitFrameCounter name.1 name.2 counter) ∧
      ∀ name', slot (s.commitFrameCounter name.1 name.2 counter) name' =
        if name = name' then (slot s name').commitFrameCounter counter else slot s name' := by
  unfold ApsSecurity.commitFrameCounter
  split
  · rename_i e he
    have hentry : (slot s name).entry = some e := he
    split
    · rename_i hfresh
      obtain ⟨hupdate, hslot⟩ := updateKey_spec hs name
        (f := fun e => { e with incomingFrameCounter := counter, incomingFrameCounterValid := true }) (fun _ => rfl) (fun _ => rfl)
      have hname : name ∈ (s.updateKey name.1 name.2 fun e =>
          { e with incomingFrameCounter := counter, incomingFrameCounterValid := true }).keyTable.map ApsLinkKeyEntry.name := by
        rw [names_updateKey name (f := fun e => { e with incomingFrameCounter := counter, incomingFrameCounterValid := true }) fun _ => rfl]
        exact mem_names he
      obtain ⟨hset, hslot'⟩ := setStale_spec hupdate hname false
      refine ⟨hset, fun name' => ?_⟩
      rw [hslot', hslot]
      split
      · rename_i heq
        subst heq
        simp only [KeySlot.commitFrameCounter, hentry]
        rw [if_pos hfresh]
        rfl
      · rfl
    · rename_i hold
      refine ⟨hs, fun name' => ?_⟩
      split
      · rename_i heq
        subst heq
        simp only [KeySlot.commitFrameCounter, hentry]
        rw [if_neg hold]
      · rfl
  · rename_i hnone
    have hentry : (slot s name).entry = none := hnone
    refine ⟨hs, fun name' => ?_⟩
    split
    · rename_i heq
      subst heq
      simp only [KeySlot.commitFrameCounter, hentry]
    · rfl

/-- A global floor leaves the key table alone. -/
theorem commitReplayCounter_spec (hs : Consistent s) (replay : ApsReplayCounter) :
    Consistent (s.commitReplayCounter replay) ∧
      ∀ name, slot (s.commitReplayCounter replay) name =
        if replay.origin = .keyPair name.1 name.2 then (slot s name).commitFrameCounter replay.counter else slot s name := by
  have hglobal : ∀ u : ApsSecurity, u.keyTable = s.keyTable → u.maxKeyTableEntries = s.maxKeyTableEntries →
      u.staleIncomingFloors = s.staleIncomingFloors → (∀ p k, replay.origin ≠ .keyPair p k) →
      Consistent u ∧ ∀ name, slot u name =
        if replay.origin = .keyPair name.1 name.2 then (slot s name).commitFrameCounter replay.counter else slot s name := by
    intro u hkeys hmax hmarks horigin
    refine ⟨⟨hkeys ▸ hs.distinct, by rw [hkeys, hmax]; exact hs.room, hmarks ▸ hs.marks, by rw [hkeys, hmarks]; exact hs.owned⟩, fun name => ?_⟩
    rw [if_neg (horigin _ _), slot, slot, findKey, incomingFloorPredatesKey, hkeys, hmarks]
    rfl
  unfold commitReplayCounter
  split
  · rename_i partner keyType horigin
    obtain ⟨hcommit, hslot⟩ := commitFrameCounter_spec hs (partner, keyType) replay.counter
    refine ⟨hcommit, fun name => ?_⟩
    rw [hslot]
    refine if_congr ?_ rfl rfl
    rw [horigin]
    simp [Prod.ext_iff]
  · rename_i horigin
    split
    · split
      · exact hglobal _ rfl rfl rfl horigin
      · exact hglobal _ rfl rfl rfl horigin
    · split
      · exact hglobal _ rfl rfl rfl horigin
      · exact hglobal _ rfl rfl rfl horigin

theorem nextFrameCounter_spec (hs : Consistent s) (name : KeyName) :
    Consistent (s.nextFrameCounter name.1 name.2).1 ∧
      (∀ name', slot (s.nextFrameCounter name.1 name.2).1 name' = if name = name' then (slot s name').nextFrameCounter.1 else slot s name') ∧
      (s.nextFrameCounter name.1 name.2).2 = (slot s name).nextFrameCounter.2 := by
  have hstay : (slot s name).nextFrameCounter.1 = slot s name →
      ∀ name', slot s name' = if name = name' then (slot s name').nextFrameCounter.1 else slot s name' := by
    intro h name'
    split
    · rename_i heq
      subst heq
      exact h.symm
    · rfl
  unfold ApsSecurity.nextFrameCounter
  split
  · rename_i e he
    have hentry : (slot s name).entry = some e := he
    split
    · rename_i hfull
      have hnext : (slot s name).nextFrameCounter = (slot s name, none) := by
        simp only [KeySlot.nextFrameCounter, hentry]
        rw [if_pos hfull]
      exact ⟨hs, hstay (by rw [hnext]), by rw [hnext]⟩
    · rename_i hroom
      have hnext : (slot s name).nextFrameCounter =
          (⟨some { e with outgoingFrameCounter := e.outgoingFrameCounter + 1 }, (slot s name).stale⟩, some e.outgoingFrameCounter) := by
        simp only [KeySlot.nextFrameCounter, hentry]
        rw [if_neg hroom]
      obtain ⟨hupdate, hslot⟩ := updateKey_spec hs name
        (f := fun e => { e with outgoingFrameCounter := e.outgoingFrameCounter + 1 }) (fun _ => rfl) (fun _ => rfl)
      refine ⟨hupdate, fun name' => ?_, by rw [hnext]⟩
      rw [hslot]
      split
      · rename_i heq
        subst heq
        rw [hnext, hentry]
        rfl
      · rfl
  · rename_i hnone
    have hentry : (slot s name).entry = none := hnone
    have hnext : (slot s name).nextFrameCounter = (slot s name, none) := by
      simp only [KeySlot.nextFrameCounter, hentry]
    exact ⟨hs, hstay (by rw [hnext]), by rw [hnext]⟩

/-- **The table refines its slots.** -/
theorem slot_step (hs : Consistent s) (op : KeyOp) :
    Consistent (keyStep s op).1 ∧ ∃ room, ∀ name, slot (keyStep s op).1 name = (slot s name).step room name op := by
  cases op with
  | addKey entry =>
    cases hadd : s.addKey entry with
    | some s' =>
      obtain ⟨hs', hslot⟩ := addKey_spec hs hadd
      have hstep : (keyStep s (.addKey entry)).1 = s' := by rw [keyStep, hadd]; rfl
      rw [hstep]
      exact ⟨hs', true, hslot⟩
    | none =>
      have hstep : (keyStep s (.addKey entry)).1 = s := by rw [keyStep, hadd]; rfl
      rw [hstep]
      exact ⟨hs, false, addKey_none hadd⟩
  | removeKey name => exact ⟨(removeKey_spec hs name).1, true, (removeKey_spec hs name).2⟩
  | clearKeys => exact ⟨(clearKeys_spec s).1, true, (clearKeys_spec s).2⟩
  | clearApplicationLinkKeys => exact ⟨(clearApplicationLinkKeys_spec hs).1, true, (clearApplicationLinkKeys_spec hs).2⟩
  | resetStaleIncomingFloor name => exact ⟨(resetStale_spec hs name).1, true, (resetStale_spec hs name).2⟩
  | commitFrameCounter name counter => exact ⟨(commitFrameCounter_spec hs name counter).1, true, (commitFrameCounter_spec hs name counter).2⟩
  | commitReplayCounter replay => exact ⟨(commitReplayCounter_spec hs replay).1, true, (commitReplayCounter_spec hs replay).2⟩
  | nextFrameCounter name => exact ⟨(nextFrameCounter_spec hs name).1, true, (nextFrameCounter_spec hs name).2.1⟩

/-! ## Runs -/

def keyRun (s : ApsSecurity) (ops : List KeyOp) : ApsSecurity := Run.run (fun s op => (keyStep s op).1) s ops

theorem consistent_new (max : Nat) (key : AesKey) : Consistent (.new max key) :=
  ⟨List.nodup_nil, Nat.zero_le _, List.nodup_nil, fun _ h => absurd h List.not_mem_nil⟩

theorem consistent_run (hs : Consistent s) (ops : List KeyOp) : Consistent (keyRun s ops) :=
  Run.run_invariant (I := Consistent) (fun _ op h => (slot_step h op).1) hs ops

/-- What every step of a slot keeps, a run of the table keeps under the slot's name. -/
theorem slot_run {name : KeyName} {I : KeySlot → Prop} {P : ApsSecurity → KeyOp → Prop}
    (hstep : ∀ (s : ApsSecurity) op room, Consistent s → I (slot s name) → P s op → I ((slot s name).step room name op))
    (hs : Consistent s) (hI : I (slot s name)) {ops : List KeyOp} (ha : Run.Along (fun s op => (keyStep s op).1) P s ops) :
    I (slot (keyRun s ops) name) := by
  have hboth := Run.run_induct (I := fun s => Consistent s ∧ I (slot s name)) (P := P)
    (fun s op ⟨hs, hI⟩ hP => by
      obtain ⟨hnext, room, hslot⟩ := slot_step hs op
      refine ⟨hnext, ?_⟩
      rw [hslot]
      exact hstep s op room hs hI hP) ⟨hs, hI⟩ ha
  exact hboth.2

/-! ### Marks with a floor -/

/-- The operation does not install a marked entry's own key again without a floor. -/
def KeepsFloor (s : ApsSecurity) : KeyOp → Prop
  | .addKey entry => ∀ e, s.findKey entry.partnerAddress entry.keyType = some e → e.key = entry.key →
      entry.name ∈ s.staleIncomingFloors → entry.incomingFrameCounterValid = true
  | _ => True

/-- A mark is for an entry with a floor. -/
def KeySlot.Floored (k : KeySlot) : Prop := k.stale = true → ∃ e, k.entry = some e ∧ e.incomingFrameCounterValid = true

theorem KeySlot.Floored.empty : KeySlot.empty.Floored := fun h => absurd h Bool.false_ne_true

variable {op : KeyOp}

theorem floored_step {name : KeyName} (room : Bool) (h : (slot s name).Floored) (hop : KeepsFloor s op) :
    ((slot s name).step room name op).Floored := by
  have hcommit : ∀ counter, ((slot s name).commitFrameCounter counter).Floored := by
    intro counter
    unfold KeySlot.commitFrameCounter
    split
    · split
      · exact fun hstale => absurd hstale Bool.false_ne_true
      · exact h
    · exact h
  unfold KeySlot.step
  split
  · rename_i entry
    split
    · rename_i heq
      subst heq
      unfold KeySlot.addKey
      split
      · rename_i existing hexisting
        intro hstale
        refine ⟨entry, rfl, ?_⟩
        dsimp only at hstale
        split at hstale
        · exact hstale
        · rename_i hkey
          exact hop existing hexisting (not_not.mp hkey) (slot_stale.mp hstale)
      · rename_i hnone
        split
        · intro hstale
          obtain ⟨e, he, -⟩ := h hstale
          rw [hnone] at he
          cases he
        · exact h
    · exact h
  · split
    · exact .empty
    · exact h
  · exact .empty
  · split
    · exact .empty
    · exact h
  · split
    · unfold KeySlot.resetStaleIncomingFloor
      split
      · exact fun hstale => absurd hstale Bool.false_ne_true
      · exact h
    · exact h
  · split
    · exact hcommit _
    · exact h
  · split
    · exact hcommit _
    · exact h
  · split
    · unfold KeySlot.nextFrameCounter
      split
      · rename_i e he
        split
        · exact h
        · intro hstale
          obtain ⟨e', he', hvalid⟩ := h hstale
          rw [he] at he'
          cases he'
          exact ⟨_, rfl, hvalid⟩
      · exact h
    · exact h

/-! ### A floor under the current key -/

/-- The operation installs no other key under the name. -/
def SameKey (name : KeyName) (key : AesKey) : KeyOp → Prop
  | .addKey entry => entry.name = name → entry.key = key
  | _ => True

/-- There is no mark, and no other key. -/
def KeySlot.Settled (key : AesKey) (k : KeySlot) : Prop := k.stale = false ∧ ∀ e, k.entry = some e → e.key = key

theorem KeySlot.Settled.empty (key : AesKey) : KeySlot.empty.Settled key := ⟨rfl, fun _ h => nomatch h⟩

theorem settled_commit {key : AesKey} (h : k.Settled key) (counter : UInt32) : (k.commitFrameCounter counter).Settled key := by
  unfold KeySlot.commitFrameCounter
  split
  · rename_i e he
    split
    · refine ⟨rfl, fun e' he' => ?_⟩
      cases he'
      exact h.2 e he
    · exact h
  · exact h

theorem settled_step {name : KeyName} {key : AesKey} (room : Bool) (h : k.Settled key) (hop : SameKey name key op) :
    (k.step room name op).Settled key := by
  unfold KeySlot.step
  split
  · rename_i entry
    split
    · rename_i heq
      have hkey := hop heq
      unfold KeySlot.addKey
      split
      · rename_i existing hexisting
        refine ⟨?_, fun e he => ?_⟩
        · dsimp only
          rw [if_neg (not_not.mpr ((h.2 existing hexisting).trans hkey.symm)), h.1]
        · cases he
          exact hkey
      · split
        · refine ⟨h.1, fun e he => ?_⟩
          cases he
          exact hkey
        · exact h
    · exact h
  · split
    · exact .empty key
    · exact h
  · exact .empty key
  · split
    · exact .empty key
    · exact h
  · split
    · unfold KeySlot.resetStaleIncomingFloor
      rw [if_neg (by rw [h.1]; exact Bool.false_ne_true)]
      exact h
    · exact h
  · split
    · exact settled_commit h _
    · exact h
  · split
    · exact settled_commit h _
    · exact h
  · split
    · unfold KeySlot.nextFrameCounter
      split
      · rename_i e he
        split
        · exact h
        · refine ⟨h.1, fun e' he' => ?_⟩
          cases he'
          exact h.2 e he
      · exact h
    · exact h

/-! ### Between two installations -/

/-- The operation installs nothing under the name. -/
def NoInstall (name : KeyName) : KeyOp → Prop
  | .addKey entry => entry.name ≠ name
  | _ => True

/-- The operation resets no marked floor of the name. -/
def NoReset (name : KeyName) (s : ApsSecurity) : KeyOp → Prop
  | .resetStaleIncomingFloor name' => name' = name → name ∉ s.staleIncomingFloors
  | _ => True

/-- The second floor is not below the first. -/
def FloorLe (e e' : ApsLinkKeyEntry) : Prop :=
  e.incomingFrameCounterValid = true → e'.incomingFrameCounterValid = true ∧ e.incomingFrameCounter ≤ e'.incomingFrameCounter

theorem FloorLe.refl (e : ApsLinkKeyEntry) : FloorLe e e := fun h => ⟨h, UInt32.le_refl _⟩

variable {e' : ApsLinkKeyEntry}

theorem FloorLe.trans {e'' : ApsLinkKeyEntry} (h : FloorLe e e') (h' : FloorLe e' e'') : FloorLe e e'' := fun hvalid =>
  have h₁ := h hvalid
  have h₂ := h' h₁.1
  ⟨h₂.1, UInt32.le_trans h₁.2 h₂.2⟩

/-- The same installation, later. -/
structure Later (e e' : ApsLinkKeyEntry) : Prop where
  key : e'.key = e.key
  limit : e'.outgoingFrameCounterLimit = e.outgoingFrameCounterLimit
  counter : e.outgoingFrameCounter ≤ e'.outgoingFrameCounter

theorem Later.refl (e : ApsLinkKeyEntry) : Later e e := ⟨rfl, rfl, UInt32.le_refl _⟩

theorem Later.trans {e'' : ApsLinkKeyEntry} (h : Later e e') (h' : Later e' e'') : Later e e'' :=
  ⟨h'.key.trans h.key, h'.limit.trans h.limit, UInt32.le_trans h.counter h'.counter⟩

theorem later_commit {counter : UInt32} (h : (k.commitFrameCounter counter).entry = some e') :
    ∃ e, k.entry = some e ∧ Later e e' ∧ FloorLe e e' := by
  unfold KeySlot.commitFrameCounter at h
  split at h
  · rename_i e he
    split at h
    · rename_i hfresh
      cases h
      refine ⟨e, he, ⟨rfl, rfl, UInt32.le_refl _⟩, fun hvalid => ⟨rfl, ?_⟩⟩
      simp only [hvalid, Bool.not_true, Bool.false_or, decide_eq_true_eq] at hfresh
      exact UInt32.le_of_lt hfresh
    · exact ⟨e', h, .refl e', .refl e'⟩
  · exact ⟨e', h, .refl e', .refl e'⟩

/-- Where nothing is installed, an entry is the earlier one. -/
theorem later_step {name : KeyName} {room : Bool} (hop : NoInstall name op) (h : ((slot s name).step room name op).entry = some e') :
    ∃ e, (slot s name).entry = some e ∧ Later e e' ∧ (NoReset name s op → FloorLe e e') := by
  have hstay : (slot s name).entry = some e' → ∃ e, (slot s name).entry = some e ∧ Later e e' ∧ (NoReset name s op → FloorLe e e') :=
    fun he => ⟨e', he, .refl e', fun _ => .refl e'⟩
  have hcommit : ∀ {counter}, ((slot s name).commitFrameCounter counter).entry = some e' →
      ∃ e, (slot s name).entry = some e ∧ Later e e' ∧ (NoReset name s op → FloorLe e e') := by
    intro counter he
    obtain ⟨e, he, hlater, hfloor⟩ := later_commit he
    exact ⟨e, he, hlater, fun _ => hfloor⟩
  unfold KeySlot.step at h
  split at h
  · rw [if_neg hop] at h
    exact hstay h
  · split at h
    · cases h
    · exact hstay h
  · cases h
  · split at h
    · cases h
    · exact hstay h
  · split at h
    · rename_i heq
      unfold KeySlot.resetStaleIncomingFloor at h
      split at h
      · rename_i hstale
        obtain ⟨e, he, hpair⟩ := Option.map_eq_some_iff.mp h
        cases hpair
        exact ⟨e, he, ⟨rfl, rfl, UInt32.le_refl _⟩, fun hreset => absurd (slot_stale.mp hstale) (hreset heq)⟩
      · exact hstay h
    · exact hstay h
  · split at h
    · exact hcommit h
    · exact hstay h
  · split at h
    · exact hcommit h
    · exact hstay h
  · split at h
    · unfold KeySlot.nextFrameCounter at h
      split at h
      · rename_i e he
        split at h
        · exact hstay h
        · rename_i hroom
          cases h
          refine ⟨e, he, ⟨rfl, rfl, ?_⟩, fun _ => .refl e⟩
          have hlimit := e.outgoingFrameCounterLimit.toNat_lt
          rw [UInt32.le_iff_toNat_le] at hroom ⊢
          rw [UInt32.toNat_add, UInt32.toNat_one]
          omega
      · exact hstay h
    · exact hstay h

theorem later_run (hs : Consistent s) {name : KeyName} {ops : List KeyOp} (hops : ∀ op ∈ ops, NoInstall name op)
    (h : (keyRun s ops).findKey name.1 name.2 = some e') :
    ∃ e, s.findKey name.1 name.2 = some e ∧ Later e e' ∧
      (Run.Along (fun s op => (keyStep s op).1) (NoReset name) s ops → FloorLe e e') := by
  induction ops generalizing s with
  | nil => exact ⟨e', h, .refl e', fun _ => .refl e'⟩
  | cons op ops ih =>
    obtain ⟨hnext, room, hslot⟩ := slot_step hs op
    obtain ⟨e₁, he₁, hlater, hfloor⟩ := ih hnext (fun op' hop' => hops op' (List.mem_cons_of_mem op hop')) h
    have hentry : ((slot s name).step room name op).entry = some e₁ := by
      rw [← hslot]
      exact he₁
    obtain ⟨e, he, hlater', hfloor'⟩ := later_step (hops op List.mem_cons_self) hentry
    exact ⟨e, he, hlater'.trans hlater, fun ha => (hfloor' ha.1).trans (hfloor ha.2)⟩

/-- The counters that a run allocates under a name. -/
def allocated (name : KeyName) : ApsSecurity → List KeyOp → List UInt32
  | _, [] => []
  | s, .nextFrameCounter name' :: ops =>
    (if name' = name then (keyStep s (.nextFrameCounter name')).2.toList else []) ++ allocated name (keyStep s (.nextFrameCounter name')).1 ops
  | s, op :: ops => allocated name (keyStep s op).1 ops

/-- What a slot allocates, and its entry afterwards. -/
theorem KeySlot.nextFrameCounter_some {c : UInt32} (h : k.nextFrameCounter.2 = some c) :
    ∃ e, k.entry = some e ∧ e.outgoingFrameCounter = c ∧ c < e.outgoingFrameCounterLimit ∧
      k.nextFrameCounter.1.entry = some { e with outgoingFrameCounter := c + 1 } := by
  unfold KeySlot.nextFrameCounter at h ⊢
  split at h
  · rename_i e he
    split at h
    · cases h
    · rename_i hroom
      cases h
      refine ⟨e, he, rfl, UInt32.not_le.mp hroom, ?_⟩
      simp only [if_neg hroom]
  · cases h

/-- **The counters allocated between two installations increase, below the limit.** -/
theorem allocated_increasing (hs : Consistent s) {name : KeyName} {ops : List KeyOp} (hops : ∀ op ∈ ops, NoInstall name op) :
    (allocated name s ops).Pairwise (· < ·) ∧ ∀ c ∈ allocated name s ops, ∃ e, s.findKey name.1 name.2 = some e ∧
      e.outgoingFrameCounter ≤ c ∧ c < e.outgoingFrameCounterLimit := by
  induction ops generalizing s with
  | nil => exact ⟨List.Pairwise.nil, fun _ h => absurd h List.not_mem_nil⟩
  | cons op ops ih =>
    obtain ⟨hnext, room, hslot⟩ := slot_step hs op
    obtain ⟨hsorted, hbound⟩ := ih hnext fun op' hop' => hops op' (List.mem_cons_of_mem op hop')
    have hlift : ∀ c ∈ allocated name (keyStep s op).1 ops, ∃ e, s.findKey name.1 name.2 = some e ∧
        e.outgoingFrameCounter ≤ c ∧ c < e.outgoingFrameCounterLimit := by
      intro c hc
      obtain ⟨e₁, he₁, hle, hlt⟩ := hbound c hc
      have hentry : ((slot s name).step room name op).entry = some e₁ := by
        rw [← hslot]
        exact he₁
      obtain ⟨e, he, hlater, -⟩ := later_step (hops op List.mem_cons_self) hentry
      exact ⟨e, he, UInt32.le_trans hlater.counter hle, hlater.limit ▸ hlt⟩
    cases op with
    | nextFrameCounter name' =>
      rw [allocated]
      by_cases hname : name' = name
      · subst hname
        rw [if_pos rfl]
        cases hout : (keyStep s (.nextFrameCounter name')).2 with
        | none => exact ⟨hsorted, hlift⟩
        | some c₀ =>
          have hsome : (slot s name').nextFrameCounter.2 = some c₀ := (nextFrameCounter_spec hs name').2.2.symm.trans hout
          obtain ⟨e, he, hcounter, hlimit, hafter⟩ := nextFrameCounter_some hsome
          have hentry : (keyStep s (.nextFrameCounter name')).1.findKey name'.1 name'.2 =
              some { e with outgoingFrameCounter := c₀ + 1 } := by
            rw [← slot_entry, hslot, KeySlot.step, if_pos rfl]
            exact hafter
          have hfirst : ∀ c ∈ allocated name' (keyStep s (.nextFrameCounter name')).1 ops, c₀ < c := by
            intro c hc
            obtain ⟨e₁, he₁, hle, -⟩ := hbound c hc
            cases hentry.symm.trans he₁
            have htop := e.outgoingFrameCounterLimit.toNat_lt
            rw [UInt32.lt_iff_toNat_lt] at hlimit ⊢
            rw [UInt32.le_iff_toNat_le, UInt32.toNat_add, UInt32.toNat_one] at hle
            omega
          refine ⟨List.pairwise_cons.mpr ⟨hfirst, hsorted⟩, fun c hc => ?_⟩
          rcases List.mem_cons.mp hc with rfl | hc
          · exact ⟨e, he, UInt32.le_of_eq hcounter, hlimit⟩
          · exact hlift c hc
      · rw [if_neg hname]
        exact ⟨hsorted, hlift⟩
    | _ => exact ⟨hsorted, hlift⟩

/-! ## The invariant -/

/-- The operation is a commit of `counter` under the name. -/
def Commits (name : KeyName) (counter : UInt32) : KeyOp → Prop
  | .commitFrameCounter name' counter' => name' = name ∧ counter' = counter
  | .commitReplayCounter replay => replay.origin = .keyPair name.1 name.2 ∧ replay.counter = counter
  | _ => False

/-- A commit that passes its check leaves no mark, and the key as it was. -/
theorem commits_settled {name : KeyName} {counter : UInt32} (hop : Commits name counter op) (he : s.findKey name.1 name.2 = some e)
    (hcheck : s.checkFrameCounter name.1 name.2 counter = true) (room : Bool) : ((slot s name).step room name op).Settled e.key := by
  have hfresh : (!e.incomingFrameCounterValid || decide (e.incomingFrameCounter < counter)) = true := by
    rw [checkFrameCounter, he] at hcheck
    exact hcheck
  have hcommit : ((slot s name).commitFrameCounter counter).Settled e.key := by
    rw [KeySlot.commitFrameCounter, slot_entry, he]
    dsimp only
    rw [if_pos hfresh]
    refine ⟨rfl, fun e' he' => ?_⟩
    cases he'
    rfl
  cases op with
  | commitFrameCounter name' counter' =>
    obtain ⟨rfl, rfl⟩ := hop
    rw [KeySlot.step, if_pos rfl]
    exact hcommit
  | commitReplayCounter replay =>
    obtain ⟨horigin, rfl⟩ := hop
    rw [KeySlot.step, if_pos horigin]
    exact hcommit
  | _ => exact hop.elim

/-- Without a mark there is nothing to reset. -/
theorem reset_of_settled {name : KeyName} {key : AesKey} (h : (slot s name).Settled key) : s.resetStaleIncomingFloor name.1 name.2 = s := by
  have hunmarked : s.incomingFloorPredatesKey name.1 name.2 = false := h.1
  simp [ApsSecurity.resetStaleIncomingFloor, hunmarked]

/-- **The invariant of the key table**, in every run from an empty one. -/
theorem key_table_invariant (max : Nat) (key : AesKey) (ops : List KeyOp) :
    -- one entry a name, one mark a name, and no mark without an entry
    Consistent (keyRun (.new max key) ops) ∧
    -- a mark is for a valid floor, where no key is installed again without one
    (Run.Along (fun s op => (keyStep s op).1) KeepsFloor (.new max key) ops →
      ∀ name ∈ (keyRun (.new max key) ops).staleIncomingFloors,
        ∃ e, (keyRun (.new max key) ops).findKey name.1 name.2 = some e ∧ e.incomingFrameCounterValid = true) ∧
    -- after a commit nothing is reset, until another key is installed
    (∀ name e counter op, (keyRun (.new max key) ops).findKey name.1 name.2 = some e →
      Commits name counter op → (keyRun (.new max key) ops).checkFrameCounter name.1 name.2 counter = true →
      ∀ ops', (∀ op' ∈ ops', SameKey name e.key op') →
        (keyRun (.new max key) (ops ++ op :: ops')).resetStaleIncomingFloor name.1 name.2 = keyRun (.new max key) (ops ++ op :: ops')) ∧
    -- between two installations
    ∀ name ops', (∀ op ∈ ops', NoInstall name op) →
      (∀ e', (keyRun (.new max key) (ops ++ ops')).findKey name.1 name.2 = some e' →
        ∃ e, (keyRun (.new max key) ops).findKey name.1 name.2 = some e ∧ Later e e' ∧
          (Run.Along (fun s op => (keyStep s op).1) (NoReset name) (keyRun (.new max key) ops) ops' → FloorLe e e')) ∧
      (allocated name (keyRun (.new max key) ops) ops').Pairwise (· < ·) ∧
      ∀ c ∈ allocated name (keyRun (.new max key) ops) ops', ∃ e, (keyRun (.new max key) ops).findKey name.1 name.2 = some e ∧
        e.outgoingFrameCounter ≤ c ∧ c < e.outgoingFrameCounterLimit := by
  have hs : Consistent (keyRun (.new max key) ops) := consistent_run (consistent_new max key) ops
  have happend : ∀ ops', keyRun (.new max key) (ops ++ ops') = keyRun (keyRun (.new max key) ops) ops' := fun ops' => Run.run_append _ _ _
  refine ⟨hs, fun ha name hname => ?_, fun name e counter op he hop hcheck ops' hops' => ?_, fun name ops' hops' => ⟨fun e' he' => ?_, ?_⟩⟩
  · exact slot_run (I := Floored) (fun _ _ room _ => floored_step room) (consistent_new max key)
      (fun hmark => absurd (slot_stale.mp hmark) List.not_mem_nil) ha (slot_stale.mpr hname)
  · obtain ⟨hnext, room, hslot⟩ := slot_step hs op
    have hsettled : (slot (keyStep (keyRun (.new max key) ops) op).1 name).Settled e.key := by
      rw [hslot]
      exact commits_settled hop he hcheck room
    rw [happend]
    refine @reset_of_settled _ _ e.key ?_
    exact slot_run (I := Settled e.key) (P := fun _ => SameKey name e.key) (fun _ _ room _ => settled_step room) hnext hsettled
      (Run.along_of_forall hops')
  · rw [happend] at he'
    exact later_run hs hops' he'
  · exact allocated_increasing hs hops'

/-! ### A mark without a floor, and a floor that is lowered -/

namespace Sample

def partner : IeeeAddress := Vector.replicate 8 1

def entry (byte : UInt8) (floor : UInt32) (valid : Bool) : ApsLinkKeyEntry where
  partnerAddress := partner
  key := Vector.replicate 16 byte
  keyType := .trustCenterLinkKey
  outgoingFrameCounter := 0
  outgoingFrameCounterLimit := 8
  incomingFrameCounter := floor
  incomingFrameCounterValid := valid

def name : KeyName := (partner, .trustCenterLinkKey)

/-- A key that replaces another one, with the old floor. -/
def replaced : ApsSecurity := keyRun (.new 1 (Vector.replicate 16 0)) [.addKey (entry 1 5 true), .addKey (entry 2 5 true)]

/-- The replaced key's floor is lowered with no installation in between, and the mark outlives a floor. -/
theorem floor_lowered :
    (replaced.findKey name.1 name.2 = some (entry 2 5 true) ∧
      (keyRun replaced [.resetStaleIncomingFloor name]).findKey name.1 name.2 = some (entry 2 0 false)) ∧
    name ∈ (keyRun replaced [.addKey (entry 2 0 false)]).staleIncomingFloors ∧
      (keyRun replaced [.addKey (entry 2 0 false)]).findKey name.1 name.2 = some (entry 2 0 false) := by
  decide

end Sample

end Zigbee.Aps
