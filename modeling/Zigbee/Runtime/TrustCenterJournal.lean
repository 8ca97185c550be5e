import Zigbee.Runtime.SnapshotFlash
import Zigbee.Runtime.TrustCenterState

/-!
# The Trust Center journal

Model of `TrustCenterDeviceJournal` of `zigbee-runtime/src/trust_center_store.rs`.  A record fills a whole
sector, so that stores alternate between the two; `clear` erases one sector after the other.

* `trustCenterJournal`, `clear`, `trustCenterStore` — the journal and its operations.
* `trustCenter_lawful` — a record of a valid state reads back.
* `Live` — the cache agrees with the flash, or a `clear` that failed half way left it stale.
* `clear_safe_iff` — **clearing resurrects nothing** exactly when the newest record is in the sector that
  is erased last, or that sector has no other state to show.
-/

namespace Zigbee.Runtime.TrustCenterJournal

open Bytes NorFlash Crash Crash.Prog SnapshotRecord SnapshotJournal Run PersistentTrustCenterState

def TRUST_CENTER_JOURNAL_SECTOR_SIZE : Nat := 4096
def TRUST_CENTER_JOURNAL_SLOT_SIZE : Nat := 4096
def RECORD_MAGIC : Buf := [0x5A, 0x42, 0x54, 0x43]
def LEGACY_RECORD_VERSION : UInt8 := 1
def ROTATION_RECORD_VERSION : UInt8 := 2
def UNKNOWN_REMOVAL_RECORD_VERSION : UInt8 := 3
def RECORD_VERSION : UInt8 := 4
def RECORD_ENCODED_OFFSET : Nat := 12

def RECORD : Frame := recordFrame RECORD_MAGIC RECORD_VERSION TRUST_CENTER_JOURNAL_SLOT_SIZE

/-- The decoder of a record's version. -/
def decodeState (version : UInt8) : Buf → Except TrustCenterStoreError PersistentTrustCenterState :=
  if version = RECORD_VERSION then PersistentTrustCenterState.decode
  else if version = UNKNOWN_REMOVAL_RECORD_VERSION then decodeV3
  else if version = ROTATION_RECORD_VERSION then decodeV2
  else decodeV1

def decodeRecord (record : Buf) : Option (UInt32 × PersistentTrustCenterState) :=
  match RECORD.header
      [LEGACY_RECORD_VERSION, ROTATION_RECORD_VERSION, UNKNOWN_REMOVAL_RECORD_VERSION, RECORD_VERSION]
      (fun len => len ≤ MAX_ENCODED_TRUST_CENTER_STATE_LEN && RECORD_ENCODED_OFFSET + len ≤ RECORD.crcOffset) record with
  | none => none
  | some (generation, version, len) =>
    match decodeState version (slice record RECORD_ENCODED_OFFSET (RECORD_ENCODED_OFFSET + len)) with
    | .ok state => some (generation, state)
    | .error _ => none

/-- A placement with sectors of `TRUST_CENTER_JOURNAL_SECTOR_SIZE`. -/
structure Config extends JournalConfig where
  sectorSize_eq : sectorSize = TRUST_CENTER_JOURNAL_SECTOR_SIZE

variable (c : Config)

def geometryOk : Bool :=
  decide (c.sectors 0 ≠ c.sectors 1 ∧ c.Placed TRUST_CENTER_JOURNAL_SLOT_SIZE ∧
    c.writeSize ∣ TRUST_CENTER_JOURNAL_SLOT_SIZE)

def layout : Layout := ⟨RECORD, c.sectors, c.sectorSize⟩

def trustCenterJournal : Journal PersistentTrustCenterState TrustCenterStoreError where
  toLayout := layout c
  geometryOk := geometryOk c
  chunksReadable := true
  validate := validate
  staged := fun generation state => RECORD.staged state.encode.length generation state.encode
  verified := fun record generation state => decide (decodeRecord record = some (generation, state))
  newest := (layout c).scan decodeRecord
  hardware := .hardware
  generationExhausted := .generationExhausted

def clear : Prog Flash (Cache PersistentTrustCenterState) TrustCenterStoreError Unit :=
  if geometryOk c = false then fail .hardware
  else do
    (trustCenterJournal c).eraseSector 0
    (trustCenterJournal c).eraseSector 1
    modifyRam fun _ => ⟨none, true⟩

/-- The journal with `clear` as its one operation beside `load` and `store`. -/
def trustCenterStore : Store (Cache PersistentTrustCenterState) PersistentTrustCenterState TrustCenterStoreError Unit :=
  (trustCenterJournal c).toStore fun _ => clear c

/-! ## Records read back -/

theorem record_wf : RECORD.Wf := recordFrame_wf rfl (by decide) (by decide)

theorem payload_fits (s : PersistentTrustCenterState) : 12 + s.encode.length ≤ RECORD.crcOffset := by
  have := s.encode_fits
  have hmax : MAX_ENCODED_TRUST_CENTER_STATE_LEN = 3088 := by decide
  have hcrc : RECORD.crcOffset = 4084 := by decide
  omega

/-- What the scan reads from a slot: a committed record of a valid state, or nothing. -/
theorem decodeRecord_render (x : Cell PersistentTrustCenterState)
    (hvalid : ∀ g s b, x = .record g s b → s.validate = .ok ()) :
    decodeRecord (x.render (trustCenterJournal c)) = x.read := by
  cases x with
  | erased =>
    unfold decodeRecord
    rw [show Cell.render (trustCenterJournal c) .erased = blank RECORD.slotSize from rfl, Frame.header_blank record_wf]
    rfl
  | record g s b =>
    have hfit := payload_fits s
    cases b with
    | false =>
      unfold decodeRecord
      rw [show Cell.render (trustCenterJournal c) (.record g s false) =
        RECORD.slot (RECORD.staged s.encode.length g s.encode) false from rfl,
        Frame.header_uncommitted record_wf (Frame.staged_length record_wf hfit)]
      rfl
    | true =>
      have hmax := s.encode_fits
      have hcrc : RECORD.crcOffset = 4084 := by decide
      have hlen : s.encode.length < 2 ^ 16 := by omega
      have hpayload : slice (RECORD.slot (RECORD.staged s.encode.length g s.encode) true) (12 + 0) (12 + s.encode.length) =
          slice s.encode 0 s.encode.length := Frame.payload_slot record_wf true 0 s.encode.length le_rfl
      rw [slice_self _ le_rfl] at hpayload
      unfold decodeRecord
      rw [show Cell.render (trustCenterJournal c) (.record g s true) =
        RECORD.slot (RECORD.staged s.encode.length g s.encode) true from rfl,
        Frame.header_committed record_wf hfit hlen (by decide) (by simp [hmax, hfit, RECORD_ENCODED_OFFSET])]
      simp only [RECORD_ENCODED_OFFSET, Nat.add_zero] at hpayload ⊢
      rw [hpayload]
      have hdecode : decodeState RECORD.version s.encode = .ok s :=
        decode_encode (hvalid g s true rfl)
      rw [hdecode]
      rfl

/-- The states a record is written of. -/
def Valid (_ : UInt32) (s : PersistentTrustCenterState) : Prop := s.validate = .ok ()

variable {c}

theorem placed (hgeom : geometryOk c = true) : c.Placed TRUST_CENTER_JOURNAL_SLOT_SIZE :=
  (of_decide_eq_true hgeom).2.1

theorem slots_eq (c : Config) : (layout c).slots = 1 := by
  show c.sectorSize / TRUST_CENTER_JOURNAL_SLOT_SIZE = 1
  rw [c.sectorSize_eq]
  rfl

theorem trustCenter_lawful (hgeom : geometryOk c = true) : Lawful (trustCenterJournal c) Valid where
  frame := record_wf
  staged_length := fun _ s => Frame.staged_length record_wf (payload_fits s)
  staged_programmed := fun _ _ => Frame.staged_programmed record_wf
  verified := by
    intro g s hs
    apply decide_eq_true
    apply decodeRecord_render c (.record g s true)
    intro g' s' b hx
    cases hx
    exact hs
  newest := fun _ _ h => scan_isNewest _ h (decodeRecord_render c)
  slots_pos := by
    rw [show (trustCenterJournal c).slots = (layout c).slots from rfl, slots_eq]
    exact Nat.one_pos
  disjoint := (placed hgeom).disjoint

/-! ## Stores -/

/-- The flash is an image; the cache agrees with it, or its record is gone and was newer than all left. -/
structure Live (c : Config) (m : Machine (Cache PersistentTrustCenterState)) : Prop where
  rep : ∃ img, Rep (trustCenterJournal c) Valid m.flash img
  cache : Coherent (trustCenterJournal c) m.flash m.ram ∨ ∃ l, Stale (trustCenterJournal c) m.flash m.ram l

variable {m : Machine (Cache PersistentTrustCenterState)}

theorem Live.of_sound (h : Sound (trustCenterJournal c) Valid m) : Live c m :=
  ⟨h.rep, Or.inl h.coherent⟩

/-- A store is not refused for want of a generation while the cache disagrees with the flash. -/
def NotStuck (c : Config) (m : Machine (Cache PersistentTrustCenterState)) : Prop :=
  nextOf ((trustCenterJournal c).located m.flash m.ram) = none → Coherent (trustCenterJournal c) m.flash m.ram

theorem Live.ready (h : Live c m) (hstuck : NotStuck c m) (s : PersistentTrustCenterState) :
    StoreReady (trustCenterJournal c) Valid m s where
  good := fun _ _ hs => hs
  ready := by
    rcases h.cache with hcoh | hstale
    · exact Or.inl hcoh
    · by_cases hnext : nextOf ((trustCenterJournal c).located m.flash m.ram) = none
      · exact Or.inl (hstuck hnext)
      · exact Or.inr ⟨hstale, rfl, hnext⟩

theorem Live.of_located {m' : Machine (Cache PersistentTrustCenterState)} (h : Live c m)
    (hm : m'.flash = m.flash ∧ (trustCenterJournal c).located m.flash m'.ram = (trustCenterJournal c).located m.flash m.ram) :
    Live c m' := by
  obtain ⟨f, ram⟩ := m'
  obtain ⟨rfl, hloc⟩ := hm
  exact ⟨h.rep, h.cache.imp (·.of_located hloc) fun ⟨l, hl⟩ => ⟨l, hl.of_located hloc⟩⟩

/-! ## Clearing -/

/-- The flash after `clear` has erased its first sector. -/
def halfCleared (c : Config) (f : Flash) : Flash := erase f (c.sectors 0) (c.sectors 0 + c.sectorSize)

/-- The flash after both erases. -/
def cleared (c : Config) (f : Flash) : Flash :=
  erase (halfCleared c f) (c.sectors 1) (c.sectors 1 + c.sectorSize)

/-- The record of the second sector. -/
def second (c : Config) (f : Flash) : Option (Located PersistentTrustCenterState) :=
  (decodeRecord ((layout c).readSlot f 1 0)).map fun r => ⟨r.1, 1, r.2⟩

theorem clear_wp (hgeom : geometryOk c = true) {w : World Flash (Cache PersistentTrustCenterState)}
    {P : Post Flash (Cache PersistentTrustCenterState) TrustCenterStoreError Unit}
    (hok : ∀ fs, P.ok () ⟨cleared c w.disk, ⟨none, true⟩, fs⟩)
    (herr : ∀ e fs, P.err e { w with faults := fs })
    (hhalf : ∀ e fs, P.err e ⟨halfCleared c w.disk, w.ram, fs⟩)
    (hcut : w.faults ≠ [] → P.cut w.disk ∧ P.cut (halfCleared c w.disk) ∧ P.cut (cleared c w.disk)) : wp (clear c) w P := by
  unfold clear
  rw [if_neg (by simp [hgeom])]
  simp only [wp_bind, wp_modifyRam]
  unfold Journal.eraseSector
  apply wp_command
  · intro fs hfs
    apply wp_command
    · exact fun fs' _ => hok fs'
    · exact fun _ fs' _ => hhalf _ fs'
    · intro hne
      have hw : w.faults ≠ [] := ne_nil_of_suffix hfs hne
      exact ⟨(hcut hw).2.1, (hcut hw).2.2⟩
  · exact fun _ fs _ => herr _ fs
  · exact fun hw => ⟨(hcut hw).1, (hcut hw).2.1⟩

variable {s : PersistentTrustCenterState}

section

variable {f : Flash} {img : Image PersistentTrustCenterState}

theorem decodeRecord_slot (h : Rep (trustCenterJournal c) Valid f img) (sector : Fin 2) :
    decodeRecord ((layout c).readSlot f sector 0) = (img sector 0).read := by
  have hslot : 0 < (trustCenterJournal c).slots := by
    rw [show (trustCenterJournal c).slots = (layout c).slots from rfl, slots_eq]
    exact Nat.one_pos
  rw [show (layout c).readSlot f sector 0 = _ from h.slots sector 0 hslot]
  exact decodeRecord_render c _ fun g s b hx => h.good sector 0 g s b hslot hx

/-- With one slot to a sector, a committed record is the record of its sector. -/
theorem committed_iff {sector : Fin 2} {slot : Nat} {g : UInt32} :
    img.Committed (trustCenterJournal c) sector slot g s ↔ slot = 0 ∧ (img sector 0).read = some (g, s) := by
  unfold Image.Committed
  rw [show (trustCenterJournal c).slots = (layout c).slots from rfl, slots_eq, Cell.read_eq_some]
  constructor
  · rintro ⟨hslot, hc⟩
    obtain rfl : slot = 0 := by omega
    exact ⟨rfl, hc⟩
  · rintro ⟨rfl, hc⟩
    exact ⟨Nat.one_pos, hc⟩

theorem rep_halfCleared (hgeom : geometryOk c = true) (h : Rep (trustCenterJournal c) Valid f img) :
    Rep (trustCenterJournal c) Valid (halfCleared c f) (img.wipe 0) :=
  h.erase (trustCenter_lawful hgeom) 0

theorem rep_cleared (hgeom : geometryOk c = true) (h : Rep (trustCenterJournal c) Valid f img) :
    Rep (trustCenterJournal c) Valid (cleared c f) ((img.wipe 0).wipe 1) :=
  (rep_halfCleared hgeom h).erase (trustCenter_lawful hgeom) 1

/-- Half way through, a scan finds the record of the second sector. -/
theorem newest_halfCleared (hgeom : geometryOk c = true) (h : Rep (trustCenterJournal c) Valid f img) :
    (trustCenterJournal c).newest (halfCleared c f) = second c f := by
  apply (rep_halfCleared hgeom h).newest_eq (trustCenter_lawful hgeom)
  have hone : ∀ sector slot g s, (img.wipe 0).Committed (trustCenterJournal c) sector slot g s →
      sector = 1 ∧ slot = 0 ∧ (img 1 0).read = some (g, s) := by
    intro sector slot g s hc
    obtain ⟨hne, hc⟩ := Image.committed_wipe.mp hc
    obtain rfl : sector = 1 := Fin.eq_one_of_ne_zero sector hne
    exact ⟨rfl, committed_iff.mp hc⟩
  unfold second
  rw [decodeRecord_slot h 1]
  cases hread : (img 1 0).read with
  | none =>
    intro sector slot g s hc
    rw [(hone sector slot g s hc).2.2] at hread
    cases hread
  | some r =>
    refine ⟨⟨0, Image.committed_wipe.mpr ⟨show (1 : Fin 2) ≠ 0 by decide, committed_iff.mpr ⟨rfl, hread⟩⟩⟩, fun sector slot g s hc => ?_⟩
    rw [(hone sector slot g s hc).2.2] at hread
    cases hread
    exact UInt32.le_refl _

theorem newest_cleared (hgeom : geometryOk c = true) (h : Rep (trustCenterJournal c) Valid f img) :
    (trustCenterJournal c).newest (cleared c f) = none := by
  apply (rep_cleared hgeom h).newest_eq (trustCenter_lawful hgeom)
  intro sector slot g s hc
  obtain ⟨h1, hc⟩ := Image.committed_wipe.mp hc
  obtain ⟨h0, -⟩ := Image.committed_wipe.mp hc
  exact h1 (Fin.eq_one_of_ne_zero sector h0)

/-- The record of the second sector is the newest one, or older than it. -/
theorem second_older (hgeom : geometryOk c = true) (h : Rep (trustCenterJournal c) Valid f img)
    {l : Located PersistentTrustCenterState} (hl : second c f = some l) :
    ∃ l', (trustCenterJournal c).newest f = some l' ∧ (l = l' ∨ (l'.sector = 0 ∧ l.generation < l'.generation)) := by
  unfold second at hl
  rw [decodeRecord_slot h 1] at hl
  obtain ⟨⟨g, s⟩, hread, heq⟩ := Option.map_eq_some_iff.mp hl
  have hc : img.Committed (trustCenterJournal c) 1 0 g s := committed_iff.mpr ⟨rfl, hread⟩
  have hnow := (trustCenter_lawful hgeom).newest f img h
  cases hn : (trustCenterJournal c).newest f with
  | none =>
    rw [hn] at hnow
    exact absurd hc (hnow 1 0 g s)
  | some l' =>
    rw [hn] at hnow
    obtain ⟨⟨slot, hslot⟩, hmax⟩ := hnow
    refine ⟨l', rfl, ?_⟩
    obtain ⟨rfl, hread'⟩ := committed_iff.mp hslot
    by_cases hsec : l'.sector = 1
    · rw [hsec, hread] at hread'
      left
      rw [← heq]
      obtain ⟨g', sec', s'⟩ := l'
      cases hsec
      cases hread'
      rfl
    · right
      have hzero : l'.sector = 0 := by
        by_contra hne
        exact hsec (Fin.eq_one_of_ne_zero l'.sector hne)
      refine ⟨hzero, UInt32.lt_of_le_of_ne ?_ ?_⟩
      · rw [← heq]
        exact hmax 1 0 g s hc
      · -- two committed records of one generation would share a slot
        intro hg
        rw [← heq] at hg
        rw [← show g = l'.generation from hg] at hslot
        exact hsec (h.distinct _ _ _ _ _ _ _ hslot hc).1

/-- Erasing the first sector leaves the cache as it was, coherent or stale. -/
theorem Live.halfCleared (hgeom : geometryOk c = true) (h : Live c m) : Live c ⟨TrustCenterJournal.halfCleared c m.flash, m.ram⟩ := by
  obtain ⟨⟨img, hrep⟩, hcache⟩ := h
  have hnew := newest_halfCleared hgeom hrep
  have hslot : ∀ slot, slot < (trustCenterJournal c).slots → slot = 0 := by
    intro slot hslot
    rw [show (trustCenterJournal c).slots = (layout c).slots from rfl, slots_eq] at hslot
    omega
  refine ⟨⟨_, rep_halfCleared hgeom hrep⟩, ?_⟩
  have hread : ∀ sector, isErased ((layout c).readSlot m.flash sector 0) = true ∨ sector = 0 →
      isErased ((trustCenterJournal c).readSlot (TrustCenterJournal.halfCleared c m.flash) sector 0) = true := by
    intro sector hsec
    have hpos := (trustCenter_lawful hgeom).slots_pos
    rw [(rep_halfCleared hgeom hrep).slots sector 0 hpos]
    have herased : (img.wipe 0) sector 0 = .erased := by
      by_cases h0 : sector = 0
      · subst h0
        simp [Image.wipe]
      · rw [Image.wipe, Function.update_of_ne h0]
        exact hrep.erased_of_read (trustCenter_lawful hgeom) hpos (hsec.resolve_right h0)
    rw [herased]
    exact isErased_blank _
  by_cases hs : m.ram.scanned = true
  · have hloc : (trustCenterJournal c).located (TrustCenterJournal.halfCleared c m.flash) m.ram =
        (trustCenterJournal c).located m.flash m.ram := by
      unfold Journal.located
      rw [if_pos hs, if_pos hs]
    rcases hcache with hcoh | ⟨l, hl⟩
    · cases hn : (trustCenterJournal c).newest m.flash with
      | none =>
        left
        have hsecond : second c m.flash = none := by
          cases h2 : second c m.flash with
          | none => rfl
          | some l =>
            obtain ⟨l', hl', -⟩ := second_older hgeom hrep h2
            rw [hn] at hl'
            cases hl'
        unfold Coherent at *
        rw [hloc, hcoh, hn, hnew, hsecond]
      | some l =>
        by_cases h0 : l.sector = 0
        · right
          refine ⟨l, ?_, ?_, ?_⟩
          · rw [hloc, hcoh, hn]
          · intro l' hl'
            rw [hnew] at hl'
            obtain ⟨l'', hl'', hor⟩ := second_older hgeom hrep hl'
            rw [hn] at hl''
            cases hl''
            rcases hor with rfl | ⟨-, hlt⟩
            · have : l'.sector = 1 := by
                obtain ⟨r, -, rfl⟩ := Option.map_eq_some_iff.mp hl'
                rfl
              rw [h0] at this
              cases this
            · exact hlt
          · intro slot hlt
            rw [hslot slot hlt]
            exact hread l.sector (Or.inr h0)
        · left
          have hsame : (trustCenterJournal c).newest (TrustCenterJournal.halfCleared c m.flash) = some l := by
            apply (rep_halfCleared hgeom hrep).newest_eq (trustCenter_lawful hgeom)
            have hnow := (trustCenter_lawful hgeom).newest m.flash img hrep
            rw [hn] at hnow
            apply hnow.erase
            intro l' hl'
            cases hl'
            exact h0
          unfold Coherent at *
          rw [hloc, hcoh, hn, hsame]
    · right
      refine ⟨l, hloc.trans hl.located, ?_, ?_⟩
      · intro l' hl'
        rw [hnew] at hl'
        obtain ⟨l'', hl'', hor⟩ := second_older hgeom hrep hl'
        rcases hor with rfl | ⟨-, hlt⟩
        · exact hl.older _ hl''
        · exact UInt32.lt_trans hlt (hl.older _ hl'')
      · intro slot hlt
        have hpos := (trustCenter_lawful hgeom).slots_pos
        rw [hslot slot hlt]
        exact hread l.sector (Or.inl (hl.erased 0 hpos))
  · left
    unfold Coherent Journal.located
    rw [if_neg hs]

end

/-! ## Clearing resurrects nothing -/

/-- The machine is live, and the cache shows the state of whatever record a scan finds. -/
structure Kept (c : Config) (m : Machine (Cache PersistentTrustCenterState)) : Prop where
  live : Live c m
  same : ∀ l, (trustCenterJournal c).newest m.flash = some l →
    ((trustCenterJournal c).located m.flash m.ram).map (·.state) = some l.state

/-- The newest record is in the sector that is erased last, or the other states are gone. -/
def ClearSafe (c : Config) (f : Flash) : Prop :=
  ∀ l, (trustCenterJournal c).newest f = some l → l.sector = 1 ∨ ∀ l', second c f = some l' → l'.state = l.state

/-- A run in which every `clear` starts from such a flash. -/
def Clears (c : Config) (m : Machine (Cache PersistentTrustCenterState)) : Event PersistentTrustCenterState Unit → Prop
  | .other _ _ => ClearSafe c m.flash
  | _ => True

/-- What a caller expects of `clear`: from then on, the live journal and the next boot load the state
    that was current, or nothing. -/
def ClearKeeps (c : Config) (m : Machine (Cache PersistentTrustCenterState)) (faults : List Fault) : Prop :=
  ∃ current, (trustCenterStore c).Loads m current ∧
    (clear c).wp ⟨m.flash, m.ram, faults⟩
      { ok := fun _ w => (trustCenterStore c).Loads ((trustCenterStore c).fresh w.disk) none ∧
          (trustCenterStore c).Loads ⟨w.disk, w.ram⟩ none
        err := fun _ w =>
          (∃ a, (a = current ∨ a = none) ∧ (trustCenterStore c).Loads ((trustCenterStore c).fresh w.disk) a) ∧
            ∃ a, (a = current ∨ a = none) ∧ (trustCenterStore c).Loads ⟨w.disk, w.ram⟩ a
        cut := fun d => ∃ a, (a = current ∨ a = none) ∧ (trustCenterStore c).Loads ((trustCenterStore c).fresh d) a }

variable {s₁ s₂ : PersistentTrustCenterState}

section

variable {m : Machine (Cache PersistentTrustCenterState)}

theorem Kept.of_sound (h : Sound (trustCenterJournal c) Valid m) : Kept c m where
  live := Live.of_sound h
  same := by
    intro l hl
    rw [show (trustCenterJournal c).located m.flash m.ram = _ from h.coherent, hl]
    rfl

theorem Kept.of_located {m' : Machine (Cache PersistentTrustCenterState)} (h : Kept c m)
    (hm : m'.flash = m.flash ∧ (trustCenterJournal c).located m.flash m'.ram = (trustCenterJournal c).located m.flash m.ram) :
    Kept c m' where
  live := h.live.of_located hm
  same := by
    intro l hl
    rw [hm.1] at hl ⊢
    rw [hm.2]
    exact h.same l hl

theorem Kept.fresh {f : Flash} (h : ∃ img, Rep (trustCenterJournal c) Valid f img) : Kept c ((trustCenterStore c).fresh f) :=
  Kept.of_sound (Sound.fresh h)

/-- What is left after the first erase has the state that was newest. -/
theorem ClearSafe.half (hgeom : geometryOk c = true) (hrep : ∃ img, Rep (trustCenterJournal c) Valid m.flash img)
    (hsafe : ClearSafe c m.flash) {l : Located PersistentTrustCenterState}
    (hl : (trustCenterJournal c).newest (halfCleared c m.flash) = some l) :
    ∃ l', (trustCenterJournal c).newest m.flash = some l' ∧ l'.state = l.state := by
  obtain ⟨img, hrep⟩ := hrep
  rw [newest_halfCleared hgeom hrep] at hl
  obtain ⟨l', hl', hor⟩ := second_older hgeom hrep hl
  refine ⟨l', hl', ?_⟩
  rcases hor with rfl | ⟨hzero, -⟩
  · rfl
  · rcases hsafe l' hl' with hone | hstate
    · rw [hzero] at hone
      cases hone
    · exact (hstate l hl).symm

theorem Kept.halfCleared (hgeom : geometryOk c = true) (h : Kept c m) (hsafe : ClearSafe c m.flash) :
    Kept c ⟨halfCleared c m.flash, m.ram⟩ where
  live := h.live.halfCleared hgeom
  same := by
    intro l hl
    unfold Journal.located
    by_cases hs : m.ram.scanned = true
    · obtain ⟨l', hl', hstate⟩ := hsafe.half hgeom h.live.rep hl
      have hsame := h.same l' hl'
      unfold Journal.located at hsame
      rw [if_pos hs] at hsame ⊢
      rw [hsame, hstate]
    · rw [if_neg hs, hl]
      rfl

theorem Kept.step (hgeom : geometryOk c = true) (h : Kept c m) (e : Event PersistentTrustCenterState Unit)
    (he : Clears c m e) : Kept c ((trustCenterStore c).step m e) := by
  obtain ⟨img, hrep⟩ := h.live.rep
  cases e with
  | load faults => exact h.of_located (load_step (J := trustCenterJournal c) hgeom m faults)
  | store s faults =>
    by_cases hnext : nextOf ((trustCenterJournal c).located m.flash m.ram) = none
    · exact h.of_located (exhausted_step (J := trustCenterJournal c) hgeom m faults hnext)
    · exact Kept.of_sound
        ((h.live.ready (absurd · hnext) s).step (trustCenter_lawful hgeom) hgeom h.live.rep faults)
  | other i faults =>
    apply Store.settle_of_wp (S := trustCenterStore c)
    apply clear_wp hgeom
    · exact fun fs => Kept.of_sound ⟨⟨_, rep_cleared hgeom hrep⟩, (newest_cleared hgeom hrep).symm⟩
    · exact fun _ fs => h
    · exact fun _ fs => h.halfCleared hgeom he
    · exact fun _ => ⟨Kept.fresh ⟨_, hrep⟩, Kept.fresh ⟨_, rep_halfCleared hgeom hrep⟩, Kept.fresh ⟨_, rep_cleared hgeom hrep⟩⟩
  | reboot => exact Kept.fresh h.live.rep

/-- What a fresh journal loads from a flash that still holds the current state. -/
theorem Kept.loads_fresh (hgeom : geometryOk c = true) (h : Kept c m) :
    ∃ a, (a = ((trustCenterJournal c).located m.flash m.ram).map (·.state) ∨ a = none) ∧
      (trustCenterStore c).Loads ((trustCenterStore c).fresh m.flash) a := by
  refine ⟨_, ?_, SnapshotJournal.loads_fresh hgeom m.flash⟩
  cases hn : (trustCenterJournal c).newest m.flash with
  | none => exact Or.inr rfl
  | some l => exact Or.inl (h.same l hn).symm

/-- **One clear**: it keeps its promise, whatever fails, exactly from a safe flash. -/
theorem Kept.clear_iff (hgeom : geometryOk c = true) (h : Kept c m) :
    (∀ faults, ClearKeeps c m faults) ↔ ClearSafe c m.flash := by
  obtain ⟨img, hrep⟩ := h.live.rep
  have hcurrent : (trustCenterStore c).Loads m (((trustCenterJournal c).located m.flash m.ram).map (·.state)) :=
    loads_located hgeom m
  have hhalf := newest_halfCleared hgeom hrep
  constructor
  · -- power is lost between the two erases
    intro hall l hl
    obtain ⟨current, hloads, hwp⟩ := hall [.none, .cut false]
    have hcut : ∃ a, (a = current ∨ a = none) ∧
        (trustCenterStore c).Loads ((trustCenterStore c).fresh (TrustCenterJournal.halfCleared c m.flash)) a := by
      unfold clear at hwp
      rw [if_neg (by simp [hgeom])] at hwp
      exact hwp
    obtain ⟨a, ha, hloads'⟩ := hcut
    have hfresh : (trustCenterStore c).Loads ((trustCenterStore c).fresh (TrustCenterJournal.halfCleared c m.flash))
        (((trustCenterJournal c).newest (TrustCenterJournal.halfCleared c m.flash)).map (·.state)) :=
      SnapshotJournal.loads_fresh hgeom _
    have ha' := hloads'.unique hfresh
    rw [hloads.unique hcurrent, h.same l hl] at ha
    right
    intro l' hl'
    rw [hhalf, hl'] at ha'
    rw [ha'] at ha
    rcases ha with ha | ha
    · exact Option.some.inj ha
    · cases ha
  · intro hsafe faults
    have hkept := h.halfCleared hgeom hsafe
    have hcleared : (trustCenterStore c).Loads ((trustCenterStore c).fresh (TrustCenterJournal.cleared c m.flash)) none := by
      have hload : (trustCenterStore c).Loads ((trustCenterStore c).fresh (TrustCenterJournal.cleared c m.flash))
          (((trustCenterJournal c).newest (TrustCenterJournal.cleared c m.flash)).map (·.state)) :=
        SnapshotJournal.loads_fresh hgeom _
      rw [newest_cleared hgeom hrep] at hload
      exact hload
    have hcut : ∃ a, (a = ((trustCenterJournal c).located m.flash m.ram).map (·.state) ∨ a = none) ∧
        (trustCenterStore c).Loads ((trustCenterStore c).fresh (TrustCenterJournal.halfCleared c m.flash)) a := by
      refine ⟨_, ?_, SnapshotJournal.loads_fresh hgeom _⟩
      cases hn : (trustCenterJournal c).newest (TrustCenterJournal.halfCleared c m.flash) with
      | none => exact Or.inr rfl
      | some l =>
        obtain ⟨l', hl', hstate⟩ := hsafe.half hgeom ⟨img, hrep⟩ hn
        left
        rw [h.same l' hl', hstate]
        rfl
    refine ⟨_, hcurrent, ?_⟩
    apply clear_wp hgeom
    · intro fs
      refine ⟨hcleared, ?_⟩
      have hload : (trustCenterStore c).Loads ⟨TrustCenterJournal.cleared c m.flash, ⟨none, true⟩⟩ _ := loads_located hgeom _
      exact hload
    · exact fun _ fs => ⟨h.loads_fresh hgeom, ⟨_, Or.inl rfl, hcurrent⟩⟩
    · intro _ fs
      refine ⟨hcut, ⟨_, ?_, loads_located hgeom ⟨TrustCenterJournal.halfCleared c m.flash, m.ram⟩⟩⟩
      unfold Journal.located
      by_cases hs : m.ram.scanned = true
      · left
        rw [if_pos hs, if_pos hs]
      · rw [if_neg hs, if_neg hs]
        cases hn : (trustCenterJournal c).newest (TrustCenterJournal.halfCleared c m.flash) with
        | none => exact Or.inr rfl
        | some l =>
          obtain ⟨l', hl', hstate⟩ := hsafe.half hgeom ⟨img, hrep⟩ hn
          left
          rw [hl', Option.map_some, Option.map_some, hstate]
    · exact fun _ => ⟨h.loads_fresh hgeom, hcut, ⟨none, Or.inr rfl, hcleared⟩⟩

theorem reachable_kept (hgeom : geometryOk c = true) (es : List (Event PersistentTrustCenterState Unit))
    (hes : Along (trustCenterStore c).step (Clears c) (trustCenterStore c).init es) :
    Kept c (run (trustCenterStore c).step (trustCenterStore c).init es) := by
  have hinit : Kept c (trustCenterStore c).init := Kept.of_sound Sound.init
  exact run_induct (I := Kept c) (fun _ e h he => Kept.step hgeom h e he) hinit hes

/-- **Clearing resurrects nothing.**  In a run whose clears all start from a flash with the newest record
    in the second sector, or with no other state in that sector, every clear leaves the current state or
    nothing, whatever fails; and a clear from any other flash reached does not. -/
theorem clear_safe_iff (hgeom : geometryOk c = true) (es : List (Event PersistentTrustCenterState Unit))
    (hes : Along (trustCenterStore c).step (Clears c) (trustCenterStore c).init es) :
    (∀ faults, ClearKeeps c (run (trustCenterStore c).step (trustCenterStore c).init es) faults) ↔
      ClearSafe c (run (trustCenterStore c).step (trustCenterStore c).init es).flash :=
  (reachable_kept hgeom es hes).clear_iff hgeom

/-- Between the erases a scan finds the second sector at most. -/
theorem halfCleared_safe (hgeom : geometryOk c = true) {f : Flash} {img : Image PersistentTrustCenterState}
    (hrep : Rep (trustCenterJournal c) Valid f img) : ClearSafe c (halfCleared c f) := by
  intro l hl
  rw [newest_halfCleared hgeom hrep, second] at hl
  obtain ⟨r, -, rfl⟩ := Option.map_eq_some_iff.mp hl
  exact Or.inl rfl

/-- A `clear` that loses power between its erases. -/
theorem step_cut_clear (hgeom : geometryOk c = true) (m : Machine (Cache PersistentTrustCenterState)) :
    ((trustCenterStore c).step m (.other () [.none, .cut false])).flash = halfCleared c m.flash := by
  show ((trustCenterStore c).settle (clear c ⟨m.flash, m.ram, [.none, .cut false]⟩)).flash = _
  unfold clear
  rw [if_neg (by simp [hgeom])]
  rfl

/-- An undisturbed store moves to the other sector and keeps the record it supersedes. -/
theorem store_alternates (hgeom : geometryOk c = true) {img : Image PersistentTrustCenterState}
    (hrep : Rep (trustCenterJournal c) Valid m.flash img) (hcoh : Coherent (trustCenterJournal c) m.flash m.ram)
    {old : Located PersistentTrustCenterState} (hold : (trustCenterJournal c).newest m.flash = some old) {g : UInt32}
    (hnext : nextGeneration old.generation = some g) (hs : s.validate = .ok ()) :
    ∃ m', (trustCenterStore c).step m (.store s []) = m' ∧ Coherent (trustCenterJournal c) m'.flash m'.ram ∧
      (trustCenterJournal c).newest m'.flash = some ⟨g, 1 - old.sector, s⟩ ∧
      Rep (trustCenterJournal c) Valid m'.flash
        ((img.wipe (1 - old.sector)).set (1 - old.sector) 0 (.record g s true)) := by
  have hloc : (trustCenterJournal c).located m.flash m.ram = some old := hcoh.trans hold
  have hready : StoreReady (trustCenterJournal c) Valid m s := ⟨fun _ _ hv => hv, Or.inl hcoh⟩
  have hleft : nextOf ((trustCenterJournal c).located m.flash m.ram) ≠ none := by
    rw [hloc, show nextOf (some old) = some g from hnext]
    simp
  obtain ⟨w, l, c', slot, hrun, rfl, hplaced, hw, hram⟩ :=
    hready.undisturbed (trustCenter_lawful hgeom) hgeom hrep hs rfl hleft
  refine ⟨⟨w.disk, w.ram⟩, ?_, ?_, ?_⟩
  · show (trustCenterStore c).settle ((trustCenterJournal c).store l.state ⟨m.flash, m.ram, []⟩) = _
    rw [hrun]
    rfl
  · unfold Coherent Journal.located
    rw [hram, hw.newest]
    rfl
  · rw [hloc] at hplaced
    obtain ⟨hgen, hplace⟩ := hplaced
    rw [hnext] at hgen
    have hnow := (trustCenter_lawful hgeom).newest m.flash img hrep
    rw [hold] at hnow
    obtain ⟨⟨slot', hcommitted⟩, -⟩ := hnow
    obtain ⟨rfl, hread⟩ := committed_iff.mp hcommitted
    rcases hplace with ⟨-, -, hslot, herased⟩ | ⟨hsector, rfl, rfl⟩
    · -- the one slot of the sector holds the record to supersede
      rw [show (trustCenterJournal c).slots = (layout c).slots from rfl, slots_eq] at hslot
      obtain rfl : slot = 0 := by omega
      rw [herased] at hread
      cases hread
    · obtain ⟨lg, ls, lst⟩ := l
      cases hgen
      cases hsector
      exact ⟨hw.newest, hw.rep⟩

/-- The first store goes to the first sector. -/
theorem first_store (hgeom : geometryOk c = true) (hs : s.validate = .ok ()) :
    ∃ m' img, (trustCenterStore c).step (trustCenterStore c).init (.store s []) = m' ∧
      Coherent (trustCenterJournal c) m'.flash m'.ram ∧
      (trustCenterJournal c).newest m'.flash = some ⟨0, 0, s⟩ ∧ Rep (trustCenterJournal c) Valid m'.flash img := by
  have hrep : Rep (trustCenterJournal c) Valid NorFlash.erased fun _ _ => .erased := Rep.init
  have hnone : (trustCenterJournal c).newest NorFlash.erased = none := by
    apply hrep.newest_eq (trustCenter_lawful hgeom)
    rintro sector slot g s ⟨-, hc⟩
    cases hc
  have hloc : (trustCenterJournal c).located (trustCenterStore c).init.flash (trustCenterStore c).init.ram = none := hnone
  have hready : StoreReady (trustCenterJournal c) Valid (trustCenterStore c).init s :=
    ⟨fun _ _ hv => hv, Or.inl (Coherent.forgotten _ _)⟩
  have hleft : nextOf ((trustCenterJournal c).located (trustCenterStore c).init.flash (trustCenterStore c).init.ram) ≠ none := by
    rw [hloc]
    simp [nextOf]
  obtain ⟨w, l, c', slot, hrun, rfl, hplaced, hw, hram⟩ :=
    hready.undisturbed (trustCenter_lawful hgeom) hgeom hrep hs rfl hleft
  rw [hloc] at hplaced
  obtain ⟨hgen, hsector, -, -⟩ := hplaced
  refine ⟨⟨w.disk, w.ram⟩, _, ?_, ?_, ?_, hw.rep⟩
  · show (trustCenterStore c).settle ((trustCenterJournal c).store l.state (World.mk (trustCenterStore c).init.flash _ [])) = _
    rw [hrun]
    rfl
  · unfold Coherent Journal.located
    rw [hram, hw.newest]
    rfl
  · obtain ⟨lg, ls, lst⟩ := l
    cases hgen
    cases hsector
    exact hw.newest

theorem second_store (hgeom : geometryOk c = true) (h₁ : s₁.validate = .ok ()) (h₂ : s₂.validate = .ok ()) :
    ∃ m' img, run (trustCenterStore c).step (trustCenterStore c).init [.store s₁ [], .store s₂ []] = m' ∧
      Coherent (trustCenterJournal c) m'.flash m'.ram ∧
      (trustCenterJournal c).newest m'.flash = some ⟨1, 1, s₂⟩ ∧ Rep (trustCenterJournal c) Valid m'.flash img ∧
      img 1 0 = .record 1 s₂ true := by
  obtain ⟨m₁, img, hm₁, hcoh₁, hnew₁, hrep₁⟩ := first_store hgeom h₁
  obtain ⟨m₂, hm₂, hcoh₂, hnew₂, hrep₂⟩ := store_alternates hgeom hrep₁ hcoh₁ hnew₁ (show nextGeneration 0 = some 1 by decide) h₂
  exact ⟨m₂, _, by rw [run_cons, hm₁, run_cons, hm₂, run_nil], hcoh₂, hnew₂, hrep₂, rfl⟩

/-- After three stores the newest state is in the first sector and the one before it in the second. -/
theorem third_store_unsafe (hgeom : geometryOk c = true) {s₃ : PersistentTrustCenterState} (h₁ : s₁.validate = .ok ())
    (h₂ : s₂.validate = .ok ()) (h₃ : s₃.validate = .ok ()) (hne : s₂ ≠ s₃) :
    ¬ ClearSafe c (run (trustCenterStore c).step (trustCenterStore c).init [.store s₁ [], .store s₂ [], .store s₃ []]).flash := by
  obtain ⟨m₂, img, hm₂, hcoh₂, hnew₂, hrep₂, hslot⟩ := second_store hgeom h₁ h₂
  obtain ⟨m₃, hm₃, hcoh₃, hnew₃, hrep₃⟩ := store_alternates hgeom hrep₂ hcoh₂ hnew₂ (show nextGeneration 1 = some 2 by decide) h₃
  rw [show ([.store s₁ [], .store s₂ [], .store s₃ []] : List (Event PersistentTrustCenterState Unit)) =
    [.store s₁ [], .store s₂ []] ++ [.store s₃ []] from rfl, run_append, hm₂, run_cons, hm₃, run_nil]
  intro hsafe
  rcases hsafe _ hnew₃ with hone | hstate
  · exact absurd hone (show (1 - (1 - 0) : Fin 2) ≠ 1 by decide)
  · have hsecond : second c m₃.flash = some ⟨1, 1, s₂⟩ := by
      unfold second
      rw [decodeRecord_slot hrep₃ 1]
      change Option.map _ (img 1 0).read = _
      rw [hslot]
      rfl
    exact hne (hstate _ hsecond)

/-- Two stores leave the newest state in the second sector, and a `clear` that is cut between its erases leaves
    it there. -/
theorem cut_clear_safe (hgeom : geometryOk c = true) (h₁ : s₁.validate = .ok ()) (h₂ : s₂.validate = .ok ()) :
    Along (trustCenterStore c).step (Clears c) (trustCenterStore c).init
        [.store s₁ [], .store s₂ [], .other () [.none, .cut false]] ∧
      ClearSafe c (run (trustCenterStore c).step (trustCenterStore c).init
        [.store s₁ [], .store s₂ [], .other () [.none, .cut false]]).flash := by
  obtain ⟨m, img, hm, -, hnew, hrep, -⟩ := second_store hgeom h₁ h₂
  rw [run_cons, run_cons, run_nil] at hm
  have hsafe : ClearSafe c m.flash := by
    intro l hl
    rw [hnew] at hl
    cases hl
    exact Or.inl rfl
  refine ⟨⟨trivial, trivial, hm ▸ hsafe, trivial⟩, ?_⟩
  rw [run_cons, run_cons, run_cons, run_nil, hm, step_cut_clear hgeom]
  exact halfCleared_safe hgeom hrep

end

/-- Two sectors of a 32-bit flash. -/
def twoSectors : Config where
  sectors := fun sector => if sector = 0 then 0 else 4096
  sectorSize := 4096
  readSize := 1
  writeSize := 4
  eraseSize := 4096
  capacity := 8192
  capacity_lt := by decide
  sectorSize_eq := rfl

/-- A network with one provisioned device whose outgoing counters are reserved up to `limit`. -/
def reservedUpTo (limit : UInt32) : PersistentTrustCenterState where
  extendedPanId := Vector.replicate 8 1
  pendingApplicationKey := none
  rotation := none
  applicationKeyRequests := .empty
  devices := ⟨[{
    device := ⟨Vector.replicate 8 2, Vector.replicate 8 0, 0xFFFF, Vector.replicate 16 0, .installCode, .unverified, 0, true⟩
    outgoingFrameCounter := 0
    outgoingFrameCounterLimit := limit
    incomingFrameCounter := 0
    incomingFrameCounterValid := false
    networkKeyPending := false
    confirmKeyPending := none
    removalPending := false
    newNetworkKeyDelivered := false
    isRouter := none
    pendingLinkKey := none }], show 1 ≤ MAX_TRUST_CENTER_DEVICES by decide⟩
  pendingUnknownRemovals := .empty

/-- A `clear` that is cut after its first erase brings back the counters of the store before the last. -/
theorem clear_resurrects_older :
    ¬ ∀ (c : Config), geometryOk c = true → ∀ (es : List (Event PersistentTrustCenterState Unit)) (faults : List Fault),
      ClearKeeps c (run (trustCenterStore c).step (trustCenterStore c).init es) faults := by
  intro hall
  have hgeom : geometryOk twoSectors = true := by decide
  have hvalid : (reservedUpTo 1).validate = .ok () ∧ (reservedUpTo 2).validate = .ok () ∧ (reservedUpTo 3).validate = .ok () := by
    decide
  have hne : reservedUpTo 2 ≠ reservedUpTo 3 := by decide
  have hkept := reachable_kept hgeom [.store (reservedUpTo 1) [], .store (reservedUpTo 2) [], .store (reservedUpTo 3) []]
    ⟨trivial, trivial, trivial, trivial⟩
  apply third_store_unsafe hgeom hvalid.1 hvalid.2.1 hvalid.2.2 hne
  exact (hkept.clear_iff hgeom).mp fun faults => hall twoSectors hgeom _ faults

/-- After two stores and such a `clear` the next one is safe. -/
theorem clear_after_cut_clear :
    geometryOk twoSectors = true ∧
      ∀ faults, ClearKeeps twoSectors
        (run (trustCenterStore twoSectors).step (trustCenterStore twoSectors).init
          [.store (reservedUpTo 1) [], .store (reservedUpTo 2) [], .other () [.none, .cut false]]) faults := by
  have hgeom : geometryOk twoSectors = true := by decide
  have hone : (reservedUpTo 1).validate = .ok () := by decide
  have htwo : (reservedUpTo 2).validate = .ok () := by decide
  obtain ⟨hclears, hsafe⟩ := cut_clear_safe hgeom hone htwo
  exact ⟨hgeom, (clear_safe_iff hgeom _ hclears).mpr hsafe⟩

end Zigbee.Runtime.TrustCenterJournal
