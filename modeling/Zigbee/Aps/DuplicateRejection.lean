import Zigbee.Aps.Layer
import Zigbee.Lib.RecentTable
import Zigbee.Lib.Run
import Zigbee.Lib.Serial

/-!
# Rejection of duplicates over a run

The duplicate table under its lookups, recordings and ageing, against the log of everything that was
recorded.  The clock of the log does not wrap.

* `DupRun` — the layer, its clock, the log, and the recording that each slot holds.
* `DupRun.NotRevived` — no slot looks live through the wrapped clock whose recording has timed out.
* `DupRun.OldestAlone` — a full table tells which slot is the oldest.
* `duplicate_rejection` — in every run under the two conditions a recording is matched until it times out
  or as many others as the table has slots have been recorded, and not matched afterwards; how often the
  table is aged changes no answer.
-/

namespace Zigbee.Aps

open RecentTable Run

/-- Source, counter, and whether the transaction is fragmented. -/
abbrev DupKey := ShortAddress × UInt8 × Bool

def ApsDuplicateEntry.key (e : ApsDuplicateEntry) : DupKey := (e.srcAddr, e.apsCounter, e.fragmentWindow.isSome)

/-- The rejection timeout in microseconds. -/
def ApsLayer.dupTimeout (l : ApsLayer) : Nat := l.apsDuplicateRejectionTimeout.toNat * 1000

structure DupRun where
  layer : ApsLayer
  /-- Microseconds; the layer sees the low 32 bits. -/
  clock : Nat
  log : List (Recording DupKey)
  /-- The place in the log of what each slot holds. -/
  held : List (Option Nat)

inductive DupEvent where
  | advance (micros : Nat)
  /-- `is_aps_duplicate`. -/
  | unfragmented (srcAddr : ShortAddress) (apsCounter : UInt8)
  /-- The lookup before a block is stored. -/
  | fragment (srcAddr : ShortAddress) (apsCounter : UInt8)
  /-- The recording when the last block is in. -/
  | fragmentsComplete (srcAddr : ShortAddress) (apsCounter : UInt8) (fragmentWindow : Nat)
  | ageDupTable

namespace DupEvent

/-- The transaction that an event looks up. -/
def looksUp : DupEvent → Option DupKey
  | .unfragmented srcAddr apsCounter => some (srcAddr, apsCounter, false)
  | .fragment srcAddr apsCounter => some (srcAddr, apsCounter, true)
  | _ => none

def isAgeing : DupEvent → Bool
  | .ageDupTable => true
  | _ => false

end DupEvent

open ApsLayer

variable {e : ApsDuplicateEntry}

namespace DupRun

/-- An empty table, at any time. -/
def start (l : ApsLayer) (clock : Nat) : DupRun where
  layer := { l with dupTable := List.replicate (APS_DUP_TABLE_SIZE l.router) .empty }
  clock
  log := []
  held := List.replicate (APS_DUP_TABLE_SIZE l.router) none

variable (s : DupRun)

def now : UInt32 := UInt32.ofNat s.clock

/-- The log after a recording, which took the slot that the layer chose. -/
def recorded (layer : ApsLayer) (key : DupKey) : DupRun where
  layer
  clock := s.clock
  log := s.log ++ [⟨key, s.clock⟩]
  held :=
    match s.layer.duplicateSlot s.now with
    | some idx => s.held.set idx (some s.log.length)
    | none => s.held

/-- One event; a lookup answers whether it found a duplicate. -/
def step : DupEvent → DupRun × Option Bool
  | .advance micros => ({ s with clock := s.clock + micros }, none)
  | .unfragmented srcAddr apsCounter =>
    let result := s.layer.isApsDuplicate s.now srcAddr apsCounter
    (if result.2 then { s with layer := result.1 } else s.recorded result.1 (srcAddr, apsCounter, false), some result.2)
  | .fragment srcAddr apsCounter => (s, some (s.layer.findDuplicate s.now srcAddr apsCounter true).isSome)
  | .fragmentsComplete srcAddr apsCounter fragmentWindow =>
    (s.recorded (s.layer.recordDuplicate s.now srcAddr apsCounter (some fragmentWindow)) (srcAddr, apsCounter, true), none)
  | .ageDupTable =>
    let layer := s.layer.ageDupTable s.now
    ({ s with layer, held := List.zipWith (fun e o => if e.active then o else none) layer.dupTable s.held }, none)

/-- The slot's recording has not timed out. -/
def slotLive (o : Option Nat) : Bool := live s.layer.dupTimeout s.clock s.log o

/-- The layer takes a slot for live. -/
def looksLive (e : ApsDuplicateEntry) : Bool := dupEntryLive e s.now s.layer.duplicateRejectionTimeoutUs

def waited (e : ApsDuplicateEntry) : UInt32 := s.now - e.acceptedAtUs

/-- What looks live has not timed out: the clock has not come round to it again. -/
def NotRevived : Prop := ∀ p ∈ s.layer.dupTable.zip s.held, s.looksLive p.1 = true → s.slotLive p.2 = true

/-- When every slot is live, the one that has waited longest is the only one that has waited so long. -/
def OldestAlone : Prop :=
  (∀ e ∈ s.layer.dupTable, s.looksLive e = true) →
    ∃ p ∈ s.layer.dupTable.zipIdx, ∀ q ∈ s.layer.dupTable.zipIdx, q.2 = p.2 ∨ s.waited q.1 < s.waited p.1

instance : Decidable s.NotRevived := inferInstanceAs (Decidable (∀ p ∈ _, _))

instance : Decidable s.OldestAlone := inferInstanceAs (Decidable (_ → _))

/-- The condition on an event. -/
def Unconfused : DupEvent → Prop
  | .advance _ | .ageDupTable => True
  | .unfragmented srcAddr apsCounter =>
    s.NotRevived ∧ ((s.layer.findDuplicate s.now srcAddr apsCounter false).isSome = true ∨ s.OldestAlone)
  | .fragment _ _ => s.NotRevived
  | .fragmentsComplete _ _ _ => s.NotRevived ∧ s.OldestAlone

instance : (e : DupEvent) → Decidable (s.Unconfused e)
  | .advance _ | .ageDupTable => inferInstanceAs (Decidable True)
  | .unfragmented _ _ => inferInstanceAs (Decidable (_ ∧ _))
  | .fragment _ _ => inferInstanceAs (Decidable s.NotRevived)
  | .fragmentsComplete _ _ _ => inferInstanceAs (Decidable (_ ∧ _))

/-! ## The invariant -/

/-- A slot and the recording it holds. -/
def Slot (log : List (Recording DupKey)) (e : ApsDuplicateEntry) (o : Option Nat) : Prop :=
  match o with
  | none => e.active = false
  | some p => e.active = true ∧ ∃ r, log[p]? = some r ∧ r.key = e.key ∧ e.acceptedAtUs = UInt32.ofNat r.time

structure Inv : Prop where
  room : s.layer.dupTable ≠ []
  length : s.held.length = s.layer.dupTable.length
  ordered : s.log.Pairwise (·.time ≤ ·.time)
  tracks : Tracks s.layer.dupTimeout s.clock s.log s.held
  slots : ∀ (i : Nat) e o, s.layer.dupTable[i]? = some e → s.held[i]? = some o → Slot s.log e o

variable {s}

theorem dupTimeout_lt (l : ApsLayer) : l.dupTimeout < 2 ^ 32 := by
  have := l.apsDuplicateRejectionTimeout.toNat_lt
  unfold dupTimeout
  omega

theorem duplicateRejectionTimeoutUs_toNat (l : ApsLayer) : l.duplicateRejectionTimeoutUs.toNat = l.dupTimeout := by
  have := l.apsDuplicateRejectionTimeout.toNat_lt
  unfold duplicateRejectionTimeoutUs dupTimeout
  rw [UInt32.toNat_mul, UInt16.toNat_toUInt32]
  exact Nat.mod_eq_of_lt (by rw [show (1000 : UInt32).toNat = 1000 from rfl]; omega)

theorem start_inv (l : ApsLayer) (clock : Nat) : (start l clock).Inv where
  room := by
    change List.replicate (APS_DUP_TABLE_SIZE l.router) _ ≠ []
    cases hrouter : l.router <;> simp [APS_DUP_TABLE_SIZE]
  length := by simp [start]
  ordered := List.Pairwise.nil
  tracks := Tracks.empty _ _ _
  slots i e o he ho := by
    rw [List.eq_of_mem_replicate (List.mem_of_getElem? ho), List.eq_of_mem_replicate (List.mem_of_getElem? he)]
    rfl

namespace Inv

/-- The slot that holds a recording. -/
theorem slot_at (h : s.Inv) {i : Nat} (hi : s.layer.dupTable[i]? = some e) :
    ∃ o, s.held[i]? = some o ∧ (e, o) ∈ s.layer.dupTable.zip s.held ∧ Slot s.log e o := by
  have hlt : i < s.held.length := h.length ▸ (List.getElem?_eq_some_iff.mp hi).1
  have ho := List.getElem?_eq_getElem hlt
  exact ⟨s.held[i], ho, List.mem_of_getElem? (List.getElem?_zip_eq_some.mpr ⟨hi, ho⟩), h.slots i e _ hi ho⟩

theorem entry_at (h : s.Inv) {i : Nat} {o : Option Nat} (ho : s.held[i]? = some o) :
    ∃ e, s.layer.dupTable[i]? = some e ∧ Slot s.log e o := by
  have hlt : i < s.layer.dupTable.length := h.length ▸ (List.getElem?_eq_some_iff.mp ho).1
  have hi := List.getElem?_eq_getElem hlt
  exact ⟨_, hi, h.slots i _ o hi ho⟩

/-- The time that a live recording has waited. -/
theorem waited_toNat (h : s.Inv) {p : Nat} {r : Recording DupKey} (hp : s.log[p]? = some r)
    (hstamp : e.acceptedAtUs = UInt32.ofNat r.time) (hlive : s.clock < r.time + s.layer.dupTimeout) :
    (s.waited e).toNat = s.clock - r.time := by
  have hpast := h.tracks.past r (List.mem_of_getElem? hp)
  have hlt := dupTimeout_lt s.layer
  unfold waited now
  rw [hstamp, Serial.age_toNat hpast (by omega)]

/-- A slot whose recording has not timed out looks live. -/
theorem looksLive_of_slotLive (h : s.Inv) {o : Option Nat} (hslot : Slot s.log e o) (hlive : s.slotLive o = true) :
    s.looksLive e = true := by
  obtain ⟨p, r, rfl, hp, hr⟩ := live_iff.mp hlive
  obtain ⟨hactive, r', hp', -, hstamp⟩ := hslot
  obtain rfl : r' = r := Option.some.inj (hp'.symm.trans hp)
  have hage := h.waited_toNat hp hstamp hr
  have hpast := h.tracks.past r' (List.mem_of_getElem? hp)
  unfold looksLive dupEntryLive
  rw [hactive, Bool.true_and, decide_eq_true_eq, UInt32.lt_iff_toNat_lt, duplicateRejectionTimeoutUs_toNat]
  unfold waited at hage
  omega

theorem looksLive_eq (h : s.Inv) (hclear : s.NotRevived) {o : Option Nat} (hmem : (e, o) ∈ s.layer.dupTable.zip s.held)
    (hslot : Slot s.log e o) : s.looksLive e = s.slotLive o := by
  rw [Bool.eq_iff_iff]
  exact ⟨hclear (e, o) hmem, h.looksLive_of_slotLive hslot⟩

/-! ### Lookups -/

/-- A lookup finds what a slot holds that has not timed out. -/
theorem findDuplicate_iff (h : s.Inv) (hclear : s.NotRevived) (srcAddr : ShortAddress) (apsCounter : UInt8)
    (fragmented : Bool) :
    (s.layer.findDuplicate s.now srcAddr apsCounter fragmented).isSome = true ↔
      ∃ p r, some p ∈ s.held ∧ s.log[p]? = some r ∧ r.key = (srcAddr, apsCounter, fragmented) ∧
        s.clock < r.time + s.layer.dupTimeout := by
  unfold findDuplicate
  rw [List.find?_isSome]
  constructor
  · rintro ⟨e, he, hfound⟩
    simp only [Bool.and_eq_true, beq_iff_eq] at hfound
    obtain ⟨⟨⟨hlooks, hsrc⟩, hcounter⟩, hkind⟩ := hfound
    obtain ⟨i, hi⟩ := List.mem_iff_getElem?.mp he
    obtain ⟨o, ho, hmem, hslot⟩ := h.slot_at hi
    obtain ⟨p, r, rfl, hp, hr⟩ := live_iff.mp (hclear (e, o) hmem hlooks)
    obtain ⟨-, r', hp', hkey, -⟩ := hslot
    obtain rfl : r' = r := Option.some.inj (hp'.symm.trans hp)
    refine ⟨p, r', List.mem_of_getElem? ho, hp, ?_, hr⟩
    rw [hkey, ApsDuplicateEntry.key, hsrc, hcounter, hkind]
  · rintro ⟨p, r, hheld, hp, hkey, hr⟩
    obtain ⟨i, hi⟩ := List.mem_iff_getElem?.mp hheld
    obtain ⟨e, he, hslot⟩ := h.entry_at hi
    have hlooks := h.looksLive_of_slotLive hslot (live_iff.mpr ⟨p, r, rfl, hp, hr⟩)
    obtain ⟨-, r', hp', hkey', -⟩ := hslot
    obtain rfl : r' = r := Option.some.inj (hp'.symm.trans hp)
    rw [hkey] at hkey'
    obtain ⟨hsrc, hrest⟩ := Prod.mk.inj hkey'
    obtain ⟨hcounter, hkind⟩ := Prod.mk.inj hrest
    refine ⟨e, List.mem_of_getElem? he, ?_⟩
    simp only [Bool.and_eq_true, beq_iff_eq]
    exact ⟨⟨⟨hlooks, hsrc.symm⟩, hcounter.symm⟩, hkind.symm⟩

/-! ### Recordings -/

/-- The slot that is taken: one that does not look live, or one that no other has waited longer than. -/
theorem duplicateSlot_spec (h : s.Inv) :
    ∃ i e, s.layer.duplicateSlot s.now = some i ∧ s.layer.dupTable[i]? = some e ∧
      (s.looksLive e = false ∨
        (∀ e ∈ s.layer.dupTable, s.looksLive e = true) ∧ ∀ q ∈ s.layer.dupTable.zipIdx, s.waited q.1 ≤ s.waited e) := by
  unfold duplicateSlot
  cases hfree : s.layer.dupTable.findIdx? fun e => !ApsLayer.dupEntryLive e s.now s.layer.duplicateRejectionTimeoutUs with
  | some i =>
    obtain ⟨e, hi, hdead⟩ := Table.getElem?_of_findIdx? hfree
    exact ⟨i, e, rfl, hi, Or.inl (by simpa [looksLive] using hdead)⟩
  | none =>
    have hall : ∀ e ∈ s.layer.dupTable, s.looksLive e = true := fun e he => by
      simpa [looksLive] using List.findIdx?_eq_none_iff.mp hfree e he
    rw [Option.none_or]
    cases hmax : maxByKey (fun p : ApsDuplicateEntry × Nat => (s.now - p.1.acceptedAtUs).toNat) s.layer.dupTable.zipIdx with
    | none =>
      have hnil := maxByKey_eq_none.mp hmax
      exact absurd (List.zipIdx_eq_nil_iff.mp hnil) h.room
    | some p =>
      obtain ⟨hmem, hle⟩ := maxByKey_spec hmax
      refine ⟨p.2, p.1, rfl, List.mem_zipIdx_iff_getElem?.mp hmem, Or.inr ⟨hall, fun q hq => ?_⟩⟩
      exact UInt32.le_iff_toNat_le.mpr (hle q hq)

/-- Of two live slots the one that has waited longer was taken first. -/
theorem taken_before (h : s.Inv) {e' : ApsDuplicateEntry} {o o' : Option Nat} (hslot : Slot s.log e o) (hslot' : Slot s.log e' o')
    (hlive : s.slotLive o = true) (hlive' : s.slotLive o' = true) (hwaited : s.waited e' < s.waited e) :
    ∃ p q, o = some p ∧ o' = some q ∧ p < q := by
  obtain ⟨p, r, rfl, hp, hr⟩ := live_iff.mp hlive
  obtain ⟨q, r', rfl, hq, hr'⟩ := live_iff.mp hlive'
  obtain ⟨-, x, hx, -, hstamp⟩ := hslot
  obtain rfl : x = r := Option.some.inj (hx.symm.trans hp)
  obtain ⟨-, y, hy, -, hstamp'⟩ := hslot'
  obtain rfl : y = r' := Option.some.inj (hy.symm.trans hq)
  have hage := h.waited_toNat hp hstamp hr
  have hage' := h.waited_toNat hq hstamp' hr'
  rw [UInt32.lt_iff_toNat_lt, hage, hage'] at hwaited
  refine ⟨p, q, rfl, rfl, ?_⟩
  by_contra hle
  have hlt : q < s.log.length := (List.getElem?_eq_some_iff.mp hq).1
  have hlt' : p < s.log.length := (List.getElem?_eq_some_iff.mp hp).1
  have hordered : y.time ≤ x.time := by
    rcases Nat.lt_or_eq_of_le (Nat.le_of_not_lt hle) with hqp | rfl
    · have := List.pairwise_iff_getElem.mp h.ordered q p hlt hlt' hqp
      rwa [(List.getElem?_eq_some_iff.mp hq).2, (List.getElem?_eq_some_iff.mp hp).2] at this
    · rw [Option.some.inj (hp.symm.trans hq)]
  omega

/-- The chosen slot may be taken. -/
theorem reusable (h : s.Inv) (hclear : s.NotRevived) (halone : s.OldestAlone) :
    ∃ i o, s.layer.duplicateSlot s.now = some i ∧ s.held[i]? = some o ∧
      (s.slotLive o = false ∨ ∃ p, o = some p ∧ ∀ o' ∈ s.held.eraseIdx i, ∃ q, o' = some q ∧ p < q) := by
  obtain ⟨i, e, hchosen, hi, hcase⟩ := h.duplicateSlot_spec
  obtain ⟨o, ho, hmem, hslot⟩ := h.slot_at hi
  refine ⟨i, o, hchosen, ho, ?_⟩
  rcases hcase with hdead | ⟨hall, hmax⟩
  · exact Or.inl (by rw [← h.looksLive_eq hclear hmem hslot, hdead])
  · have hlive : ∀ (j : Nat) e' o', s.layer.dupTable[j]? = some e' → s.held[j]? = some o' → s.slotLive o' = true := by
      intro j e' o' hj ho'
      obtain ⟨o'', hheld, hmem', hslot'⟩ := h.slot_at hj
      obtain rfl : o'' = o' := Option.some.inj (hheld.symm.trans ho')
      rw [← h.looksLive_eq hclear hmem' hslot']
      exact hall e' (List.mem_of_getElem? hj)
    -- the slot that has waited longest is the chosen one
    obtain ⟨p, hp, hothers⟩ := halone hall
    have holdest : i = p.2 ∧ e = p.1 := by
      rcases hothers (e, i) (List.mem_zipIdx_iff_getElem?.mpr hi) with hsame | hless
      · have hsame : i = p.2 := hsame
        have hp' := List.mem_zipIdx_iff_getElem?.mp hp
        rw [← hsame, hi] at hp'
        exact ⟨hsame, Option.some.inj hp'⟩
      · exact absurd (UInt32.lt_of_lt_of_le hless (hmax p hp)) (UInt32.lt_irrefl _)
    obtain ⟨rfl, rfl⟩ := holdest
    have hlater : ∀ (j : Nat) o', j ≠ p.2 → s.held[j]? = some o' → ∃ a b, o = some a ∧ o' = some b ∧ a < b := by
      intro j o' hne ho'
      obtain ⟨e', hj, hslot'⟩ := h.entry_at ho'
      have hless := (hothers (e', j) (List.mem_zipIdx_iff_getElem?.mpr hj)).resolve_left hne
      exact h.taken_before hslot hslot' (hlive _ _ _ hi ho) (hlive j e' o' hj ho') hless
    obtain ⟨a, r, rfl, -, -⟩ := live_iff.mp (hlive _ _ _ hi ho)
    refine Or.inr ⟨a, rfl, fun o' ho' => ?_⟩
    obtain ⟨j, hj, hjo⟩ := List.mem_eraseIdx_iff_getElem?.mp ho'
    obtain ⟨a', b, ha, hb, hlt⟩ := hlater j o' hj hjo
    cases ha
    exact ⟨b, hb, hlt⟩

theorem recorded (h : s.Inv) (hclear : s.NotRevived) (halone : s.OldestAlone) (srcAddr : ShortAddress)
    (apsCounter : UInt8) (fragmentWindow : Option Nat) :
    (s.recorded (s.layer.recordDuplicate s.now srcAddr apsCounter fragmentWindow)
      (srcAddr, apsCounter, fragmentWindow.isSome)).Inv := by
  obtain ⟨i, o, hchosen, ho, hreuse⟩ := h.reusable hclear halone
  have hlt : i < s.layer.dupTable.length := h.length ▸ (List.getElem?_eq_some_iff.mp ho).1
  unfold DupRun.recorded recordDuplicate
  rw [hchosen]
  constructor
  · simpa using h.room
  · simpa using h.length
  · refine List.pairwise_append.mpr ⟨h.ordered, List.pairwise_singleton _ _, fun r hr r' hr' => ?_⟩
    rw [List.mem_singleton.mp hr']
    exact h.tracks.past r hr
  · exact h.tracks.record ho hreuse _
  · intro j e o' he ho'
    dsimp only at he ho'
    by_cases hj : i = j
    · subst hj
      rw [List.getElem?_set_self hlt] at he
      rw [List.getElem?_set_self (h.length ▸ hlt)] at ho'
      cases he
      cases ho'
      exact ⟨rfl, ⟨(srcAddr, apsCounter, fragmentWindow.isSome), s.clock⟩, List.getElem?_concat_length, rfl, rfl⟩
    · rw [List.getElem?_set_ne hj] at he ho'
      have hslot := h.slots j e o' he ho'
      cases o' with
      | none => exact hslot
      | some p =>
        obtain ⟨hactive, r, hp, hkey, hstamp⟩ := hslot
        exact ⟨hactive, r, by rw [List.getElem?_append_left (List.getElem?_eq_some_iff.mp hp).1, hp], hkey, hstamp⟩

/-! ### Ageing -/

/-- A slot after ageing. -/
theorem aged_at {i : Nat} {e' : ApsDuplicateEntry} {o' : Option Nat}
    (he : (s.step .ageDupTable).1.layer.dupTable[i]? = some e') (ho : (s.step .ageDupTable).1.held[i]? = some o') :
    ∃ e o, s.layer.dupTable[i]? = some e ∧ s.held[i]? = some o ∧
      ((e' = e ∧ e.active = true ∧ o' = o) ∨ (e'.active = false ∧ o' = none ∧ (e.active = false ∨ s.looksLive e = false))) := by
  have hmap := he
  simp only [step, ageDupTable, List.getElem?_map, Option.map_eq_some_iff] at hmap
  obtain ⟨e, hi, rfl⟩ := hmap
  simp only [step] at ho
  rw [List.getElem?_zipWith] at ho
  have he : (s.layer.ageDupTable s.now).dupTable[i]? = _ := he
  rw [he] at ho
  cases hheld : s.held[i]? with
  | none =>
    rw [hheld] at ho
    cases ho
  | some o =>
    rw [hheld] at ho
    dsimp only at ho
    refine ⟨e, o, hi, rfl, ?_⟩
    change _ ∨ _ ∧ _ ∧ (_ ∨ dupEntryLive e s.now s.layer.duplicateRejectionTimeoutUs = false)
    cases hactive : e.active with
    | false =>
      simp only [hactive, Bool.false_and, Bool.false_eq_true, if_false] at ho ⊢
      cases ho
      exact Or.inr ⟨trivial, rfl, Or.inl trivial⟩
    | true =>
      cases hlooks : dupEntryLive e s.now s.layer.duplicateRejectionTimeoutUs with
      | true =>
        simp only [hactive, hlooks, Bool.not_true, Bool.and_false, Bool.false_eq_true, if_false, if_true] at ho ⊢
        cases ho
        exact Or.inl ⟨trivial, trivial, rfl⟩
      | false =>
        simp only [hactive, hlooks, Bool.not_false, Bool.and_self, if_true, Bool.false_eq_true, if_false] at ho ⊢
        cases ho
        exact Or.inr ⟨trivial, rfl, Or.inr trivial⟩

theorem aged (h : s.Inv) : (s.step .ageDupTable).1.Inv := by
  have htable : (s.step .ageDupTable).1.layer.dupTable.length = s.layer.dupTable.length := by
    simp [step, ageDupTable]
  have hheld : (s.step .ageDupTable).1.held.length = s.held.length := by
    simp [step, ageDupTable, h.length]
  refine ⟨?_, ?_, h.ordered, ?_, fun i e' o' he ho => ?_⟩
  · rw [← List.length_pos_iff, htable]
    exact List.length_pos_iff.mpr h.room
  · rw [hheld, htable, h.length]
  · refine h.tracks.forget (List.forall₂_iff_get.mpr ⟨hheld.symm, fun i hi hi' => ?_⟩)
    have ho' : (s.step .ageDupTable).1.held[i]? = some (s.step .ageDupTable).1.held[i] := List.getElem?_eq_getElem hi'
    have htable' : i < (s.step .ageDupTable).1.layer.dupTable.length := by rw [htable, ← h.length]; exact hi
    obtain ⟨e, o, he, ho, hcase⟩ := aged_at (List.getElem?_eq_getElem htable') ho'
    obtain rfl : s.held[i] = o := Option.some.inj ((List.getElem?_eq_getElem hi).symm.trans ho)
    have hslot := h.slots i e _ he ho
    rcases hcase with ⟨-, -, hsame⟩ | ⟨-, hnone, hdead⟩
    · exact Or.inl hsame
    · refine Or.inr ⟨hnone, ?_⟩
      change s.slotLive s.held[i] = false
      rw [Bool.eq_false_iff]
      intro hlive
      have hlooks := h.looksLive_of_slotLive hslot hlive
      rcases hdead with hactive | hdead
      · simp [looksLive, dupEntryLive, hactive] at hlooks
      · rw [hdead] at hlooks
        cases hlooks
  · obtain ⟨e, o, hi, ho', ⟨rfl, -, rfl⟩ | ⟨hactive, rfl, -⟩⟩ := aged_at he ho
    · exact h.slots i e' o' hi ho'
    · exact hactive

/-! ### Steps -/

theorem step (h : s.Inv) (e : DupEvent) (he : s.Unconfused e) : (s.step e).1.Inv := by
  cases e with
  | advance micros =>
    exact ⟨h.room, h.length, h.ordered, h.tracks.advance (Nat.le_add_right _ _), h.slots⟩
  | unfragmented srcAddr apsCounter =>
    obtain ⟨hclear, hcase⟩ := he
    unfold DupRun.step isApsDuplicate
    by_cases hfound : (s.layer.findDuplicate s.now srcAddr apsCounter false).isSome = true
    · simp only [hfound, if_true]
      exact h
    · simp only [hfound, Bool.false_eq_true, if_false]
      exact h.recorded hclear (hcase.resolve_left hfound) srcAddr apsCounter none
  | fragment srcAddr apsCounter => exact h
  | fragmentsComplete srcAddr apsCounter fragmentWindow =>
    exact h.recorded he.1 he.2 srcAddr apsCounter (some fragmentWindow)
  | ageDupTable => exact h.aged

end Inv

/-! ## Ageing changes no answer -/

/-- Slot by slot the two tables hold the same, or nothing that still counts. -/
structure Same (s s' : DupRun) : Prop where
  inv : s.Inv
  inv' : s'.Inv
  clock : s'.clock = s.clock
  log : s'.log = s.log
  timeout : s'.layer.apsDuplicateRejectionTimeout = s.layer.apsDuplicateRejectionTimeout
  length : s'.layer.dupTable.length = s.layer.dupTable.length
  slots : ∀ (i : Nat) e o e' o', s.layer.dupTable[i]? = some e → s.held[i]? = some o →
    s'.layer.dupTable[i]? = some e' → s'.held[i]? = some o' →
    (e' = e ∧ o' = o) ∨ (s.slotLive o = false ∧ s.slotLive o' = false)

namespace Same

variable {s' : DupRun}

theorem slotLive_eq (h : Same s s') (o : Option Nat) : s'.slotLive o = s.slotLive o := by
  unfold slotLive dupTimeout
  rw [h.timeout, h.clock, h.log]

theorem symm (h : Same s s') : Same s' s where
  inv := h.inv'
  inv' := h.inv
  clock := h.clock.symm
  log := h.log.symm
  timeout := h.timeout.symm
  length := h.length.symm
  slots i e o e' o' he ho he' ho' := by
    rw [h.slotLive_eq, h.slotLive_eq]
    rcases h.slots i e' o' e o he' ho' he ho with ⟨rfl, rfl⟩ | ⟨hdead, hdead'⟩
    · exact Or.inl ⟨rfl, rfl⟩
    · exact Or.inr ⟨hdead', hdead⟩

/-- The other table's slot. -/
theorem slot_at (h : Same s s') {i : Nat} (hi : s.layer.dupTable[i]? = some e) :
    ∃ e' o', s'.layer.dupTable[i]? = some e' ∧ s'.held[i]? = some o' ∧ (e', o') ∈ s'.layer.dupTable.zip s'.held ∧
      Slot s'.log e' o' := by
  have hlt : i < s'.layer.dupTable.length := h.length ▸ (List.getElem?_eq_some_iff.mp hi).1
  obtain ⟨o', ho', hmem, hslot⟩ := h.inv'.slot_at (List.getElem?_eq_getElem hlt)
  exact ⟨_, o', List.getElem?_eq_getElem hlt, ho', hmem, hslot⟩

theorem held_live (h : Same s s') {p : Nat} (hp : some p ∈ s.held) (hlive : s.slotLive (some p) = true) :
    some p ∈ s'.held := by
  obtain ⟨i, hi⟩ := List.mem_iff_getElem?.mp hp
  obtain ⟨e, he, -⟩ := h.inv.entry_at hi
  obtain ⟨e', o', he', ho', -, -⟩ := h.slot_at he
  rcases h.slots i e _ e' o' he hi he' ho' with ⟨-, rfl⟩ | ⟨hdead, -⟩
  · exact List.mem_of_getElem? ho'
  · rw [hlive] at hdead
    cases hdead

theorem findDuplicate_of (h : Same s s') (hclear : s.NotRevived) (hclear' : s'.NotRevived) {srcAddr : ShortAddress}
    {apsCounter : UInt8} {fragmented : Bool}
    (hfound : (s.layer.findDuplicate s.now srcAddr apsCounter fragmented).isSome = true) :
    (s'.layer.findDuplicate s'.now srcAddr apsCounter fragmented).isSome = true := by
  obtain ⟨p, r, hheld, hp, hkey, hr⟩ := (h.inv.findDuplicate_iff hclear _ _ _).mp hfound
  have hlive : s.slotLive (some p) = true := live_iff.mpr ⟨p, r, rfl, hp, hr⟩
  refine (h.inv'.findDuplicate_iff hclear' _ _ _).mpr ⟨p, r, h.held_live hheld hlive, by rw [h.log, hp], hkey, ?_⟩
  unfold dupTimeout at hr ⊢
  rw [h.clock, h.timeout]
  exact hr

theorem findDuplicate_eq (h : Same s s') (hclear : s.NotRevived) (hclear' : s'.NotRevived) (srcAddr : ShortAddress)
    (apsCounter : UInt8) (fragmented : Bool) :
    (s'.layer.findDuplicate s'.now srcAddr apsCounter fragmented).isSome =
      (s.layer.findDuplicate s.now srcAddr apsCounter fragmented).isSome := by
  rw [Bool.eq_iff_iff]
  exact ⟨h.symm.findDuplicate_of hclear' hclear, h.findDuplicate_of hclear hclear'⟩

/-- Both tables choose the same slot. -/
theorem duplicateSlot_eq (h : Same s s') (hclear : s.NotRevived) (hclear' : s'.NotRevived) :
    s'.layer.duplicateSlot s'.now = s.layer.duplicateSlot s.now := by
  have hflags : s'.layer.dupTable.map s'.looksLive = s.layer.dupTable.map s.looksLive := by
    refine List.ext_getElem? fun i => ?_
    rw [List.getElem?_map, List.getElem?_map]
    cases hi : s.layer.dupTable[i]? with
    | none =>
      rw [List.getElem?_eq_none_iff] at hi
      rw [List.getElem?_eq_none_iff.mpr (h.length ▸ hi)]
      rfl
    | some e =>
      obtain ⟨o, ho, hmem, hslot⟩ := h.inv.slot_at hi
      obtain ⟨e', o', hi', ho', hmem', hslot'⟩ := h.slot_at hi
      rw [hi', Option.map_some, Option.map_some, h.inv.looksLive_eq hclear hmem hslot,
        h.inv'.looksLive_eq hclear' hmem' hslot', h.slotLive_eq]
      rcases h.slots i e o e' o' hi ho hi' ho' with ⟨-, rfl⟩ | ⟨hdead, hdead'⟩
      · rfl
      · rw [hdead, hdead']
  have hfree : ∀ t : DupRun, t.layer.dupTable.findIdx? (fun e => !t.looksLive e) =
      (t.layer.dupTable.map t.looksLive).findIdx? (!·) := fun t => by rw [List.findIdx?_map]; rfl
  have hnow : s'.now = s.now := congrArg UInt32.ofNat h.clock
  change (s'.layer.dupTable.findIdx? fun e => !s'.looksLive e).or _ = (s.layer.dupTable.findIdx? fun e => !s.looksLive e).or _
  rw [hfree, hfree, hflags]
  cases hchosen : (s.layer.dupTable.map s.looksLive).findIdx? (!·) with
  | some i => rfl
  | none =>
    -- every slot is live, so the tables are the same
    have htable : s'.layer.dupTable = s.layer.dupTable := by
      refine List.ext_getElem? fun i => ?_
      cases hi : s.layer.dupTable[i]? with
      | none =>
        rw [List.getElem?_eq_none_iff] at hi
        rw [List.getElem?_eq_none_iff.mpr (h.length ▸ hi)]
      | some e =>
        obtain ⟨o, ho, hmem, hslot⟩ := h.inv.slot_at hi
        obtain ⟨e', o', hi', ho', -, -⟩ := h.slot_at hi
        have hlooks : s.looksLive e = true := by
          simpa using List.findIdx?_eq_none_iff.mp hchosen _ (List.mem_map_of_mem (List.mem_of_getElem? hi))
        rcases h.slots i e o e' o' hi ho hi' ho' with ⟨rfl, -⟩ | ⟨hdead, -⟩
        · exact hi'
        · rw [h.inv.looksLive_eq hclear hmem hslot, hdead] at hlooks
          cases hlooks
    rw [htable, hnow]

theorem recorded (h : Same s s') (hclear : s.NotRevived) (hclear' : s'.NotRevived) (halone : s.OldestAlone)
    (halone' : s'.OldestAlone) (srcAddr : ShortAddress) (apsCounter : UInt8) (fragmentWindow : Option Nat) :
    Same (s.recorded (s.layer.recordDuplicate s.now srcAddr apsCounter fragmentWindow)
        (srcAddr, apsCounter, fragmentWindow.isSome))
      (s'.recorded (s'.layer.recordDuplicate s'.now srcAddr apsCounter fragmentWindow)
        (srcAddr, apsCounter, fragmentWindow.isSome)) := by
  have hinv := h.inv.recorded hclear halone srcAddr apsCounter fragmentWindow
  have hinv' := h.inv'.recorded hclear' halone' srcAddr apsCounter fragmentWindow
  obtain ⟨i, o, hchosen, ho, -⟩ := h.inv.reusable hclear halone
  have hchosen' := (h.duplicateSlot_eq hclear hclear').trans hchosen
  have hlt : i < s.layer.dupTable.length := h.inv.length ▸ (List.getElem?_eq_some_iff.mp ho).1
  refine ⟨hinv, hinv', h.clock, ?_, ?_, ?_, ?_⟩
  · change s'.log ++ [⟨_, s'.clock⟩] = s.log ++ [⟨_, s.clock⟩]
    rw [h.log, h.clock]
  · unfold DupRun.recorded recordDuplicate
    rw [hchosen, hchosen']
    exact h.timeout
  · unfold DupRun.recorded recordDuplicate
    rw [hchosen, hchosen']
    simpa using h.length
  · unfold DupRun.recorded recordDuplicate
    rw [hchosen, hchosen']
    intro j e o e' o' he ho he' ho'
    dsimp only at he ho he' ho'
    by_cases hj : i = j
    · subst hj
      rw [List.getElem?_set_self hlt] at he
      rw [List.getElem?_set_self (h.inv.length ▸ hlt)] at ho
      rw [List.getElem?_set_self (h.length ▸ hlt)] at he'
      rw [List.getElem?_set_self (by rw [h.inv'.length, h.length]; exact hlt)] at ho'
      cases he
      cases ho
      cases he'
      cases ho'
      exact Or.inl ⟨by rw [DupRun.now, DupRun.now, h.clock], by rw [h.log]⟩
    · rw [List.getElem?_set_ne hj] at he ho he' ho'
      have hlogged : ∀ t : DupRun, t.Inv → ∀ o ∈ t.held, ∀ p, o = some p → p < t.log.length :=
        fun t ht o ho p hp => ht.tracks.logged p (hp ▸ ho)
      rcases h.slots j e o e' o' he ho he' ho' with hsame | ⟨hdead, hdead'⟩
      · exact Or.inl hsame
      · refine Or.inr ⟨?_, ?_⟩
        · exact (live_append (hlogged s h.inv o (List.mem_of_getElem? ho))).trans hdead
        · refine (live_append ?_).trans hdead'
          rw [← h.log]
          exact hlogged s' h.inv' o' (List.mem_of_getElem? ho')

theorem advanced (h : Same s s') (micros : Nat) : Same (s.step (.advance micros)).1 (s'.step (.advance micros)).1 where
  inv := h.inv.step (.advance micros) trivial
  inv' := h.inv'.step (.advance micros) trivial
  clock := congrArg (· + micros) h.clock
  log := h.log
  timeout := h.timeout
  length := h.length
  slots i e o e' o' he ho he' ho' := by
    rcases h.slots i e o e' o' he ho he' ho' with hsame | ⟨hdead, hdead'⟩
    · exact Or.inl hsame
    · exact Or.inr ⟨live_advance (Nat.le_add_right _ _) hdead, live_advance (Nat.le_add_right _ _) hdead'⟩

/-- Ageing takes nothing away that counts. -/
theorem aged (h : Same s s') : Same (s.step .ageDupTable).1 s' where
  inv := h.inv.aged
  inv' := h.inv'
  clock := h.clock
  log := h.log
  timeout := h.timeout
  length := by
    rw [h.length]
    simp [step, ageDupTable]
  slots i e o e' o' he ho he' ho' := by
    change _ ∨ s.slotLive o = false ∧ s.slotLive o' = false
    obtain ⟨e₀, o₀, he₀, ho₀, ⟨rfl, -, rfl⟩ | ⟨-, rfl, hdead⟩⟩ := Inv.aged_at he ho
    · exact h.slots i e o e' o' he₀ ho₀ he' ho'
    · have hslot := h.inv.slots i e₀ o₀ he₀ ho₀
      have hout : s.slotLive o₀ = false := by
        rw [Bool.eq_false_iff]
        intro hlive
        have hlooks := h.inv.looksLive_of_slotLive hslot hlive
        rcases hdead with hactive | hdead
        · simp [looksLive, dupEntryLive, hactive] at hlooks
        · rw [hdead] at hlooks
          cases hlooks
      refine Or.inr ⟨rfl, ?_⟩
      rcases h.slots i e₀ o₀ e' o' he₀ ho₀ he' ho' with ⟨-, rfl⟩ | ⟨-, hdead'⟩
      · exact hout
      · exact hdead'

/-- The other events answer alike. -/
theorem loud (h : Same s s') {e : DupEvent} (he : s.Unconfused e) (he' : s'.Unconfused e) (hloud : e ≠ .ageDupTable) :
    (s.step e).2 = (s'.step e).2 ∧ Same (s.step e).1 (s'.step e).1 := by
  cases e with
  | advance micros => exact ⟨rfl, h.advanced micros⟩
  | unfragmented srcAddr apsCounter =>
    obtain ⟨hclear, hcase⟩ := he
    obtain ⟨hclear', hcase'⟩ := he'
    have hfind := h.findDuplicate_eq hclear hclear' srcAddr apsCounter false
    unfold step isApsDuplicate
    by_cases hfound : (s.layer.findDuplicate s.now srcAddr apsCounter false).isSome = true
    · rw [hfound] at hfind
      simp only [hfound, hfind, if_true, true_and]
      exact h
    · have hfound' : ¬ (s'.layer.findDuplicate s'.now srcAddr apsCounter false).isSome = true := by rwa [hfind]
      simp only [hfound, hfound', Bool.false_eq_true, if_false, true_and]
      exact h.recorded hclear hclear' (hcase.resolve_left hfound) (hcase'.resolve_left hfound') srcAddr apsCounter none
  | fragment srcAddr apsCounter =>
    exact ⟨congrArg some (h.findDuplicate_eq he he' srcAddr apsCounter true).symm, h⟩
  | fragmentsComplete srcAddr apsCounter fragmentWindow =>
    exact ⟨rfl, h.recorded he.1 he'.1 he.2 he'.2 srcAddr apsCounter (some fragmentWindow)⟩
  | ageDupTable => exact absurd rfl hloud

end Same

/-! ## Every run -/

/-- The timeout and the number of slots stay. -/
theorem step_frame (h : s.Inv) (e : DupEvent) :
    (s.step e).1.layer.dupTimeout = s.layer.dupTimeout ∧ (s.step e).1.held.length = s.held.length := by
  have hrecorded : ∀ srcAddr apsCounter fragmentWindow key,
      (s.recorded (s.layer.recordDuplicate s.now srcAddr apsCounter fragmentWindow) key).layer.dupTimeout = s.layer.dupTimeout ∧
      (s.recorded (s.layer.recordDuplicate s.now srcAddr apsCounter fragmentWindow) key).held.length = s.held.length := by
    intro srcAddr apsCounter fragmentWindow key
    unfold recorded recordDuplicate
    cases s.layer.duplicateSlot s.now with
    | none => exact ⟨rfl, rfl⟩
    | some i => exact ⟨rfl, List.length_set⟩
  cases e with
  | advance micros => exact ⟨rfl, rfl⟩
  | unfragmented srcAddr apsCounter =>
    unfold step isApsDuplicate
    by_cases hfound : (s.layer.findDuplicate s.now srcAddr apsCounter false).isSome = true
    · simp only [hfound, if_true, and_self]
    · simp only [hfound, Bool.false_eq_true, if_false]
      exact hrecorded srcAddr apsCounter none _
  | fragment srcAddr apsCounter => exact ⟨rfl, rfl⟩
  | fragmentsComplete srcAddr apsCounter fragmentWindow => exact hrecorded srcAddr apsCounter (some fragmentWindow) _
  | ageDupTable =>
    refine ⟨rfl, ?_⟩
    simp [step, ageDupTable, h.length]

/-- A lookup answers by the log. -/
theorem lookup_spec (h : s.Inv) (hclear : s.NotRevived) {e : DupEvent} {key : DupKey} (he : e.looksUp = some key) :
    ∃ found, (s.step e).2 = some found ∧
      (∀ p r, s.log[p]? = some r → r.key = key → s.log.length ≤ p + s.held.length →
        s.clock < r.time + s.layer.dupTimeout → found = true) ∧
      ((∀ r ∈ s.log, r.key = key → r.time + s.layer.dupTimeout ≤ s.clock) → found = false) := by
  have hlookup : ∀ srcAddr apsCounter fragmented, key = (srcAddr, apsCounter, fragmented) →
      (∀ p r, s.log[p]? = some r → r.key = key → s.log.length ≤ p + s.held.length →
        s.clock < r.time + s.layer.dupTimeout → (s.layer.findDuplicate s.now srcAddr apsCounter fragmented).isSome = true) ∧
      ((∀ r ∈ s.log, r.key = key → r.time + s.layer.dupTimeout ≤ s.clock) →
        (s.layer.findDuplicate s.now srcAddr apsCounter fragmented).isSome = false) := by
    rintro srcAddr apsCounter fragmented rfl
    constructor
    · intro p r hp hkey hrecent hr
      exact (h.findDuplicate_iff hclear _ _ _).mpr ⟨p, r, h.tracks.kept p r hp hrecent hr, hp, hkey, hr⟩
    · intro hover
      rw [Bool.eq_false_iff]
      intro hfound
      obtain ⟨p, r, -, hp, hkey, hr⟩ := (h.findDuplicate_iff hclear _ _ _).mp hfound
      exact absurd (hover r (List.mem_of_getElem? hp) hkey) (Nat.not_le.mpr hr)
  cases e with
  | unfragmented srcAddr apsCounter =>
    refine ⟨(s.layer.findDuplicate s.now srcAddr apsCounter false).isSome, ?_, hlookup _ _ _ (Option.some.inj he).symm⟩
    unfold step isApsDuplicate
    by_cases hfound : (s.layer.findDuplicate s.now srcAddr apsCounter false).isSome = true
    · simp only [hfound, if_true]
    · simp only [hfound, Bool.false_eq_true, if_false]
  | fragment srcAddr apsCounter => exact ⟨_, rfl, hlookup _ _ _ (Option.some.inj he).symm⟩
  | advance micros => cases he
  | fragmentsComplete srcAddr apsCounter fragmentWindow => cases he
  | ageDupTable => cases he

/-- **Duplicates are rejected by the log.**  In every run under the conditions a lookup finds a recording of its
    transaction that has not timed out, unless as many others as the table has slots were recorded after it;
    it finds nothing when every such recording has timed out; and runs that differ only in when the table is
    aged give the same answers. -/
theorem duplicate_rejection (l : ApsLayer) (clock : Nat) (es : List DupEvent)
    (hes : Along (fun s e => (DupRun.step s e).1) Unconfused (start l clock) es) :
    (∀ s e key, s = Run.run (fun s e => (DupRun.step s e).1) (start l clock) es → s.NotRevived → e.looksUp = some key →
      ∃ found, (s.step e).2 = some found ∧
        (∀ p r, s.log[p]? = some r → r.key = key → s.log.length ≤ p + APS_DUP_TABLE_SIZE l.router →
          s.clock < r.time + l.dupTimeout → found = true) ∧
        ((∀ r ∈ s.log, r.key = key → r.time + l.dupTimeout ≤ s.clock) → found = false)) ∧
    ∀ es', Along (fun s e => (DupRun.step s e).1) Unconfused (start l clock) es' →
      es.filter (!·.isAgeing) = es'.filter (!·.isAgeing) →
      (outputs DupRun.step (start l clock) es).filterMap id = (outputs DupRun.step (start l clock) es').filterMap id := by
  have hstart := start_inv l clock
  constructor
  · rintro s e key rfl hclear he
    have hframe := run_induct
      (I := fun s : DupRun => s.Inv ∧ s.layer.dupTimeout = l.dupTimeout ∧ s.held.length = APS_DUP_TABLE_SIZE l.router)
      (fun s e ⟨hs, htimeout, hlength⟩ he =>
        ⟨hs.step e he, (step_frame hs e).1.trans htimeout, (step_frame hs e).2.trans hlength⟩)
      ⟨hstart, rfl, List.length_replicate⟩ hes
    obtain ⟨hinv, htimeout, hlength⟩ := hframe
    have hspec := lookup_spec hinv hclear he
    rwa [htimeout, hlength] at hspec
  · intro es' hes' hsame
    have hrefl : Same (start l clock) (start l clock) :=
      ⟨hstart, hstart, rfl, rfl, rfl, rfl, fun i e o e' o' he ho he' ho' =>
        Or.inl ⟨Option.some.inj (he'.symm.trans he), Option.some.inj (ho'.symm.trans ho)⟩⟩
    refine answers_of_silent DupRun.step DupEvent.isAgeing Same (P := Unconfused) (fun s e hsilent => ?_) (fun s s' e h _ hsilent => ?_)
      (fun s s' e h _ hsilent => ?_) (fun s s' e h he he' hloud => h.loud he he' ?_) hrefl hes hes' hsame
    · cases e <;> first | rfl | cases hsilent
    · cases e <;> first | exact h.aged | cases hsilent
    · cases e <;> first | exact h.symm.aged.symm | cases hsilent
    · rintro rfl
      cases hloud

/-- An end device with four slots and a timeout of three seconds. -/
def leaf : ApsLayer :=
  .boot false (Vector.replicate 8 1) (Vector.replicate 8 2) 0 0 true ⟨4, [], Vector.replicate 16 3, none, [], []⟩

/-- Two transactions at the start, and two others about half of the clock's period later. -/
def twoAndTwo : List DupEvent :=
  [.unfragmented 1 1, .advance 1, .unfragmented 2 2, .advance (2 ^ 31 - 1), .unfragmented 3 3]

/-- One more period, almost: the clock shows again what it showed at the start. -/
def cameRound : List DupEvent :=
  [.advance (2 ^ 31 - 1), .unfragmented 4 4, .advance 10, .unfragmented 2 2]

/-- A retransmission within the timeout, and the counter used again after it. -/
def retransmitted : List DupEvent :=
  [.unfragmented 1 1, .advance 1000, .unfragmented 1 1, .advance 3000000]

/-- The counter of a transaction is accepted again once it has timed out. -/
theorem counter_accepted_after_timeout :
    ∃ found, ((Run.run (fun s e => (DupRun.step s e).1) (start leaf 0) retransmitted).step (.unfragmented 1 1)).2 =
      some found ∧ found = false := by
  obtain ⟨found, hfound, -, hover⟩ := (duplicate_rejection leaf 0 retransmitted (by decide +kernel)).1 _
    (.unfragmented 1 1) _ rfl (by decide +kernel) rfl
  exact ⟨found, hfound, hover (by decide +kernel)⟩

/-- **A transaction is rejected long after its timeout**, when the clock has come round to it, unless the table
    was aged in between; **and one is accepted twice at once**, after a single other, when the clock did not
    move while the table filled. -/
theorem duplicate_confused :
    (outputs DupRun.step (start leaf 0) (twoAndTwo ++ cameRound)).getLast? = some (some true) ∧
    (outputs DupRun.step (start leaf 0) (twoAndTwo ++ [.ageDupTable] ++ cameRound)).getLast? = some (some false) ∧
    outputs DupRun.step (start leaf 0) [.unfragmented 1 1, .unfragmented 2 2, .unfragmented 3 3, .unfragmented 4 4,
      .unfragmented 5 5, .advance 1, .unfragmented 4 4] =
      [some false, some false, some false, some false, some false, none, some false] := by
  decide +kernel

end DupRun

end Zigbee.Aps
