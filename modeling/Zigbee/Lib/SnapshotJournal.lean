import Mathlib.Logic.Function.Basic
import Zigbee.Lib.Crash
import Zigbee.Lib.NorFlash
import Zigbee.Lib.Run
import Zigbee.Lib.SnapshotRecord

/-!
# Two-sector snapshot journals

A journal keeps the newest of a sequence of snapshots in two flash sectors.  Every snapshot is a record
of a slot of its own and has a generation; a store appends to the sector of the newest record, or, when
that is full, erases the other sector and starts there.  The commit marker of a record is programmed
last, so that a record is read as a whole or not at all.

* `Journal` — placement, record format and scan of one journal; `store`, `load`, `eraseSector`.
* `Cell`, `Rep` — what the slots of a reachable flash hold; `Rep.stage`, `Rep.commit`, `Rep.erase` — the
  three commands on it.
* `IsNewest`, `Lawful` — the record a scan has to find, and what the format has to meet.
* `newestOf`, `newestOf_best` — the scan that keeps the first record of the greatest generation;
  `scan_isNewest` — it finds the newest record of an image.
-/

namespace SnapshotJournal

open Bytes NorFlash Crash Crash.Prog SnapshotRecord

/-- A record and where it lies. -/
structure Located (τ : Type) where
  generation : UInt32
  sector : Fin 2
  state : τ
  deriving DecidableEq

/-- The volatile part of a journal. -/
structure Cache (τ : Type) where
  cached : Option (Located τ)
  scanned : Bool

/-- Record format and placement. -/
structure Layout where
  frame : Frame
  sectors : Fin 2 → Nat
  sectorSize : Nat

/-- One journal.  `newest` is its scan of the flash, `verified` its check of a slot that it has read
    back; chunked reads work where `chunksReadable`. -/
structure Journal (σ ε : Type) extends Layout where
  geometryOk : Bool
  chunksReadable : Bool
  validate : σ → Except ε Unit
  staged : UInt32 → σ → Buf
  verified : Buf → UInt32 → σ → Bool
  newest : Flash → Option (Located σ)
  hardware : ε
  generationExhausted : ε

/-- `checked_add(1)` of a generation. -/
def nextGeneration (g : UInt32) : Option UInt32 :=
  if g.toNat + 1 < 2 ^ 32 then some (g + 1) else none

variable {g' : UInt32}

theorem lt_of_nextGeneration {g : UInt32} (h : nextGeneration g = some g') : g < g' := by
  unfold nextGeneration at h
  split at h
  · cases h
    rw [UInt32.lt_iff_toNat_lt, UInt32.toNat_add]
    simp
    omega
  · cases h

theorem two_sectors {a b : Fin 2} (h : b ≠ a) : (a = 0 ∧ b = 1) ∨ (a = 1 ∧ b = 0) := by
  revert a b
  decide

theorem other_sector (a : Fin 2) : 1 - a ≠ a := by
  revert a
  decide

variable {σ ε ρ : Type}

/-- Cache what was written, or forget everything. -/
def cacheResult (generation : UInt32) (sector : Fin 2) (state : σ) (m : Prog Flash (Cache σ) ε Unit) :
    Prog Flash (Cache σ) ε Unit := do
  match ← attempt m with
  | .ok () => modifyRam fun c => { c with cached := some ⟨generation, sector, state⟩ }
  | .error e =>
    modifyRam fun _ => ⟨none, false⟩
    fail e

namespace Layout

variable (L : Layout)

def slots : Nat := L.sectorSize / L.frame.slotSize

def slotAddress (sector : Fin 2) (slot : Nat) : Nat := L.sectors sector + slot * L.frame.slotSize

def readSlot (f : Flash) (sector : Fin 2) (slot : Nat) : Buf :=
  read f (L.slotAddress sector slot) L.frame.slotSize

/-- The slots of both sectors in scan order. -/
def positions : List (Fin 2 × Nat) :=
  ([0, 1] : List (Fin 2)).flatMap fun sector => (List.range L.slots).map fun slot => (sector, slot)

theorem mem_positions {p : Fin 2 × Nat} : p ∈ L.positions ↔ p.2 < L.slots := by
  obtain ⟨sector, slot⟩ := p
  unfold positions
  simp only [List.mem_flatMap, List.mem_map, List.mem_range]
  constructor
  · rintro ⟨_, -, _, h, heq⟩
    cases heq
    exact h
  · intro h
    refine ⟨sector, ?_, slot, h, rfl⟩
    revert sector
    decide

end Layout

variable (J : Journal σ ε)

namespace Journal

/-! ## Operations -/

def write (address : Nat) (data : Buf) : Prog Flash ρ ε Unit :=
  command J.hardware fun f => program f address data

def eraseSector (sector : Fin 2) : Prog Flash ρ ε Unit :=
  command J.hardware fun f => erase f (J.sectors sector) (J.sectors sector + J.sectorSize)

def firstErasedSlot (sector : Fin 2) : Prog Flash ρ ε (Option Nat) :=
  if J.chunksReadable = false then fail J.hardware
  else do
    let f ← getDisk
    pure ((List.range J.slots).find? fun slot => isErased (J.readSlot f sector slot))

def writeRecord (sector : Fin 2) (slot : Nat) (generation : UInt32) (state : σ) : Prog Flash ρ ε Unit := do
  ofExcept (J.validate state)
  J.write (J.slotAddress sector slot) (J.staged generation state)
  J.write (J.slotAddress sector slot + J.frame.commitOffset) J.frame.commit
  if J.chunksReadable = false then fail J.hardware
  else do
    let f ← getDisk
    if J.verified (J.readSlot f sector slot) generation state = true then pure () else fail J.hardware

/-- `erase(..).and_then(|()| write_record(..))`, which starts a sector. -/
def eraseAndWrite (sector : Fin 2) (generation : UInt32) (state : σ) : Prog Flash ρ ε Unit := do
  J.eraseSector sector
  J.writeRecord sector 0 generation state

/-- Scan once. -/
def current : Prog Flash (Cache σ) ε (Option (Located σ)) :=
  if J.geometryOk = false then fail J.hardware
  else do
    let c ← getRam
    if c.scanned = true then pure c.cached
    else do
      let f ← getDisk
      modifyRam fun _ => ⟨J.newest f, true⟩
      pure (J.newest f)

def load : Prog Flash (Cache σ) ε (Option σ) := do
  let located ← J.current
  pure (located.map (·.state))

def store (state : σ) : Prog Flash (Cache σ) ε Unit := do
  match ← J.current with
  | none =>
    cacheResult 0 0 state (J.eraseAndWrite 0 0 state)
  | some located =>
    match nextGeneration located.generation with
    | none => fail J.generationExhausted
    | some generation =>
      match ← J.firstErasedSlot located.sector with
      | some slot =>
        cacheResult generation located.sector state
          (J.writeRecord located.sector slot generation state)
      | none =>
        cacheResult generation (1 - located.sector) state
          (J.eraseAndWrite (1 - located.sector) generation state)

end Journal

/-! ## Slot images -/

inductive Cell (σ : Type) where
  | erased
  | record (generation : UInt32) (state : σ) (committed : Bool)

/-- What every slot of the two sectors holds. -/
abbrev Image (σ : Type) := Fin 2 → Nat → Cell σ

def Cell.render : Cell σ → Buf
  | .erased => blank J.frame.slotSize
  | .record generation state committed => J.frame.slot (J.staged generation state) committed

def Image.set (c : Image σ) (sector : Fin 2) (slot : Nat) (x : Cell σ) : Image σ :=
  Function.update c sector (Function.update (c sector) slot x)

def Image.wipe (c : Image σ) (sector : Fin 2) : Image σ := Function.update c sector fun _ => .erased

/-- The record of generation `g` and state `s` is committed in a slot of the image. -/
def Image.Committed (c : Image σ) (sector : Fin 2) (slot : Nat) (g : UInt32) (s : σ) : Prop :=
  slot < J.slots ∧ c sector slot = .record g s true

/-- The flash holds the image, whose records are `Good` and whose committed records have different
    generations. -/
structure Rep (Good : UInt32 → σ → Prop) (f : Flash) (c : Image σ) : Prop where
  slots : ∀ sector slot, slot < J.slots → J.readSlot f sector slot = (c sector slot).render J
  good : ∀ sector slot g s b, slot < J.slots → c sector slot = .record g s b → Good g s
  distinct : ∀ sector slot sector' slot' g s s', c.Committed J sector slot g s → c.Committed J sector' slot' g s' →
    sector = sector' ∧ slot = slot'

/-- The answer a scan of the image has to give. -/
def IsNewest (c : Image σ) : Option (Located σ) → Prop
  | none => ∀ sector slot g s, ¬ c.Committed J sector slot g s
  | some l => (∃ slot, c.Committed J l.sector slot l.generation l.state) ∧
      ∀ sector slot g s, c.Committed J sector slot g s → g ≤ l.generation

/-! ## Scans -/

/-- One slot of a scan: a record of a greater generation replaces the best so far. -/
def newestStep (best : Option (Located σ)) (candidate : Fin 2 × Option (UInt32 × σ)) : Option (Located σ) :=
  match candidate.2 with
  | none => best
  | some (g, s) =>
    match best with
    | none => some ⟨g, candidate.1, s⟩
    | some l => if l.generation < g then some ⟨g, candidate.1, s⟩ else some l

def newestOf (candidates : List (Fin 2 × Option (UInt32 × σ))) : Option (Located σ) := candidates.foldl newestStep none

/-- The scan that decodes every slot. -/
def Layout.scan (L : Layout) (decode : Buf → Option (UInt32 × σ)) (f : Flash) : Option (Located σ) :=
  newestOf (L.positions.map fun p => (p.1, decode (L.readSlot f p.1 p.2)))

/-- `best` is one of the candidates seen, and none of them is newer. -/
def Best (seen : List (Fin 2 × Option (UInt32 × σ))) : Option (Located σ) → Prop
  | none => ∀ p ∈ seen, p.2 = none
  | some l => (l.sector, some (l.generation, l.state)) ∈ seen ∧
      ∀ p ∈ seen, ∀ g s, p.2 = some (g, s) → g ≤ l.generation

theorem best_step {seen : List (Fin 2 × Option (UInt32 × σ))} {best : Option (Located σ)} (h : Best seen best)
    (p : Fin 2 × Option (UInt32 × σ)) : Best (seen ++ [p]) (newestStep best p) := by
  obtain ⟨sector, candidate⟩ := p
  cases candidate with
  | none =>
    cases best with
    | none =>
      intro p hp
      rcases List.mem_append.mp hp with hp | hp
      · exact h p hp
      · rw [List.mem_singleton.mp hp]
    | some l =>
      refine ⟨List.mem_append_left _ h.1, fun p hp g s hs => ?_⟩
      rcases List.mem_append.mp hp with hp | hp
      · exact h.2 p hp g s hs
      · rw [List.mem_singleton.mp hp] at hs
        cases hs
  | some r =>
    obtain ⟨g, s⟩ := r
    have hlast : (sector, some (g, s)) ∈ seen ++ [(sector, some (g, s))] := by simp
    cases best with
    | none =>
      refine ⟨hlast, fun p hp g' s' hs => ?_⟩
      rcases List.mem_append.mp hp with hp | hp
      · rw [h p hp] at hs
        cases hs
      · rw [List.mem_singleton.mp hp] at hs
        cases hs
        exact UInt32.le_refl _
    | some l =>
      show Best _ (if l.generation < g then some ⟨g, sector, s⟩ else some l)
      split
      · rename_i hlt
        refine ⟨hlast, fun p hp g' s' hs => ?_⟩
        rcases List.mem_append.mp hp with hp | hp
        · exact UInt32.le_of_lt (UInt32.lt_of_le_of_lt (h.2 p hp g' s' hs) hlt)
        · rw [List.mem_singleton.mp hp] at hs
          cases hs
          exact UInt32.le_refl _
      · rename_i hge
        refine ⟨List.mem_append_left _ h.1, fun p hp g' s' hs => ?_⟩
        rcases List.mem_append.mp hp with hp | hp
        · exact h.2 p hp g' s' hs
        · rw [List.mem_singleton.mp hp] at hs
          cases hs
          exact UInt32.not_lt.mp hge

theorem best_foldl {seen : List (Fin 2 × Option (UInt32 × σ))} {best : Option (Located σ)} (h : Best seen best)
    (l : List (Fin 2 × Option (UInt32 × σ))) : Best (seen ++ l) (l.foldl newestStep best) := by
  induction l generalizing seen best with
  | nil => simpa using h
  | cons p l ih =>
    rw [List.append_cons]
    exact ih (best_step h p)

/-- The scan keeps a candidate that is newest. -/
theorem newestOf_best (l : List (Fin 2 × Option (UInt32 × σ))) : Best l (newestOf l) :=
  best_foldl (show Best [] none from fun _ h => absurd h List.not_mem_nil) l

/-- What a scan reads from a cell. -/
def Cell.read : Cell σ → Option (UInt32 × σ)
  | .record g s true => some (g, s)
  | _ => none

variable {x : Cell σ}

theorem Cell.read_eq_some {g : UInt32} {s : σ} : x.read = some (g, s) ↔ x = .record g s true := by
  cases x with
  | erased => simp [read]
  | record g' s' b => cases b <;> simp [read]

/-- **A scan that reads every cell finds the newest record.** -/
theorem scan_isNewest {Good : UInt32 → σ → Prop} {decode : Buf → Option (UInt32 × σ)} {f : Flash} {c : Image σ}
    (h : Rep J Good f c)
    (hdecode : ∀ x : Cell σ, (∀ g s b, x = .record g s b → Good g s) → decode (x.render J) = x.read) :
    IsNewest J c (J.scan decode f) := by
  have hread : ∀ p ∈ J.positions, decode (J.readSlot f p.1 p.2) = (c p.1 p.2).read := by
    intro p hp
    have hslot := J.mem_positions.mp hp
    rw [h.slots p.1 p.2 hslot]
    exact hdecode _ fun g s b hx => h.good p.1 p.2 g s b hslot hx
  have hbest := newestOf_best (J.positions.map fun p => (p.1, decode (J.readSlot f p.1 p.2)))
  rw [List.map_congr_left fun p hp => by rw [hread p hp]] at hbest
  unfold Layout.scan
  rw [List.map_congr_left fun p hp => by rw [hread p hp]]
  have hmem : ∀ sector slot g s, c.Committed J sector slot g s ↔
      slot < J.slots ∧ (c sector slot).read = some (g, s) := by
    intro sector slot g s
    rw [Cell.read_eq_some]
    rfl
  cases hn : newestOf (J.positions.map fun p => (p.1, (c p.1 p.2).read)) with
  | none =>
    rw [hn] at hbest
    intro sector slot g s hc
    obtain ⟨hslot, hr⟩ := (hmem sector slot g s).mp hc
    have := hbest (sector, (c sector slot).read) (List.mem_map.mpr ⟨(sector, slot), J.mem_positions.mpr hslot, rfl⟩)
    rw [hr] at this
    cases this
  | some l =>
    rw [hn] at hbest
    obtain ⟨hin, hmax⟩ := hbest
    obtain ⟨⟨sector, slot⟩, hp, heq⟩ := List.mem_map.mp hin
    have hsector : sector = l.sector := congrArg Prod.fst heq
    have hr : (c sector slot).read = some (l.generation, l.state) := congrArg Prod.snd heq
    rw [hsector] at hr
    refine ⟨⟨slot, (hmem _ _ _ _).mpr ⟨J.mem_positions.mp hp, hr⟩⟩, fun sector' slot' g s hc => ?_⟩
    obtain ⟨hslot', hr'⟩ := (hmem sector' slot' g s).mp hc
    exact hmax (sector', (c sector' slot').read)
      (List.mem_map.mpr ⟨(sector', slot'), J.mem_positions.mpr hslot', rfl⟩) g s hr'

/-- What a journal has to meet: sectors that do not overlap, records that read back, and a scan that
    finds the newest record. -/
structure Lawful (Good : UInt32 → σ → Prop) : Prop where
  frame : J.frame.Wf
  staged_length : ∀ g s, (J.staged g s).length = J.frame.commitOffset
  staged_programmed : ∀ g s, isErased (J.staged g s) = false
  verified : ∀ g s, Good g s → J.verified (J.frame.slot (J.staged g s) true) g s = true
  newest : ∀ f c, Rep J Good f c → IsNewest J c (J.newest f)
  slots_pos : 0 < J.slots
  disjoint : J.sectors 0 + J.sectorSize ≤ J.sectors 1 ∨ J.sectors 1 + J.sectorSize ≤ J.sectors 0

/-! ## Flash commands on images -/

variable {sector' : Fin 2} {slot' : Nat} {o : Option (Located σ)}

open Image

section

variable {J} {Good : UInt32 → σ → Prop} {f : Flash} {c : Image σ} {sector : Fin 2} {slot : Nat} {g : UInt32} {s : σ}

@[simp] theorem Image.set_self (c : Image σ) (sector : Fin 2) (slot : Nat) (x : Cell σ) :
    c.set sector slot x sector slot = x := by
  simp [Image.set]

theorem Image.set_other (h : ¬ (sector' = sector ∧ slot' = slot)) : c.set sector slot x sector' slot' = c sector' slot' := by
  unfold Image.set
  by_cases hs : sector' = sector
  · subst hs
    have hne : slot' ≠ slot := fun he => h ⟨rfl, he⟩
    rw [Function.update_self, Function.update_of_ne hne]
  · rw [Function.update_of_ne hs]

@[simp] theorem Image.set_set (c : Image σ) (sector : Fin 2) (slot : Nat) (x y : Cell σ) :
    (c.set sector slot x).set sector slot y = c.set sector slot y := by
  simp [Image.set]

/-- A committed record of the image after a slot was set. -/
theorem Image.committed_set {s' : σ} :
    (c.set sector slot x).Committed J sector' slot' g' s' ↔
      (sector' = sector ∧ slot' = slot ∧ slot < J.slots ∧ x = .record g' s' true) ∨
        (¬ (sector' = sector ∧ slot' = slot) ∧ c.Committed J sector' slot' g' s') := by
  unfold Committed
  by_cases h : sector' = sector ∧ slot' = slot
  · obtain ⟨rfl, rfl⟩ := h
    simp
  · rw [set_other h]
    constructor
    · exact fun hc => Or.inr ⟨h, hc⟩
    · rintro (⟨h1, h2, -⟩ | ⟨-, hc⟩)
      · exact absurd ⟨h1, h2⟩ h
      · exact hc

/-- A committed record of the image after a sector was erased. -/
theorem Image.committed_wipe {s' : σ} :
    (c.wipe sector).Committed J sector' slot' g' s' ↔ sector' ≠ sector ∧ c.Committed J sector' slot' g' s' := by
  unfold Committed wipe
  by_cases h : sector' = sector
  · subst h
    simp
  · rw [Function.update_of_ne h]
    exact (and_iff_right h).symm

variable (hJ : Lawful J Good)

include hJ in
/-- Different slots do not overlap. -/
theorem slots_disjoint (hslot : slot < J.slots) (hslot' : slot' < J.slots) (h : ¬ (sector' = sector ∧ slot' = slot)) :
    J.slotAddress sector slot + J.frame.slotSize ≤ J.slotAddress sector' slot' ∨
      J.slotAddress sector' slot' + J.frame.slotSize ≤ J.slotAddress sector slot := by
  have hall : J.slots * J.frame.slotSize ≤ J.sectorSize := Nat.div_mul_le_self _ _
  have hend : ∀ i < J.slots, i * J.frame.slotSize + J.frame.slotSize ≤ J.sectorSize := by
    intro i hi
    calc i * J.frame.slotSize + J.frame.slotSize = (i + 1) * J.frame.slotSize := (Nat.succ_mul i _).symm
      _ ≤ J.slots * J.frame.slotSize := Nat.mul_le_mul_right _ hi
      _ ≤ J.sectorSize := hall
  have hbefore : ∀ i j : Nat, i < j → i * J.frame.slotSize + J.frame.slotSize ≤ j * J.frame.slotSize := by
    intro i j hij
    rw [← Nat.succ_mul]
    exact Nat.mul_le_mul_right _ hij
  have h1 := hend slot hslot
  have h2 := hend slot' hslot'
  unfold Layout.slotAddress
  by_cases hs : sector' = sector
  · subst hs
    rcases Nat.lt_or_gt_of_ne (fun he : slot' = slot => h ⟨rfl, he⟩) with hlt | hlt
    · have := hbefore _ _ hlt
      right
      omega
    · have := hbefore _ _ hlt
      left
      omega
  · have hdis := hJ.disjoint
    rcases two_sectors hs with ⟨rfl, rfl⟩ | ⟨rfl, rfl⟩ <;> omega

include hJ in
/-- A program inside one slot. -/
theorem Rep.write (h : Rep J Good f c) (hslot : slot < J.slots) {off : Nat} {data : Buf}
    (hoff : off + data.length ≤ J.frame.slotSize) (hov : overlay ((c sector slot).render J) off data = x.render J)
    (hgood : ∀ g s b, x = .record g s b → Good g s)
    (hnew : ∀ g s s' sector' slot', x = .record g s true → c.Committed J sector' slot' g s' →
      sector' = sector ∧ slot' = slot) :
    Rep J Good (program f (J.slotAddress sector slot + off) data) (c.set sector slot x) where
  slots := by
    intro sector' slot' hslot'
    by_cases hs : sector' = sector ∧ slot' = slot
    · obtain ⟨rfl, rfl⟩ := hs
      unfold Layout.readSlot
      rw [read_program_within f hoff, set_self, ← hov]
      exact congrArg (overlay · off data) (h.slots sector' slot' hslot)
    · rw [set_other hs, ← h.slots sector' slot' hslot']
      have hdis := slots_disjoint hJ hslot hslot' hs
      exact read_program_disjoint f (by omega)
  good := by
    intro sector' slot' g s b hslot' hrec
    by_cases hs : sector' = sector ∧ slot' = slot
    · obtain ⟨rfl, rfl⟩ := hs
      rw [set_self] at hrec
      exact hgood g s b hrec
    · rw [set_other hs] at hrec
      exact h.good sector' slot' g s b hslot' hrec
  distinct := by
    intro sec i sec' i' g s s' hc hc'
    rcases committed_set.mp hc with ⟨hsec, hi, -, hx⟩ | ⟨hne, hold⟩
    · rcases committed_set.mp hc' with ⟨hsec', hi', -, -⟩ | ⟨hne', hold'⟩
      · exact ⟨hsec.trans hsec'.symm, hi.trans hi'.symm⟩
      · exact absurd (hnew g s s' sec' i' hx hold') hne'
    · rcases committed_set.mp hc' with ⟨hsec', hi', -, hx⟩ | ⟨hne', hold'⟩
      · exact absurd (hnew g s' s sec i hx hold) hne
      · exact h.distinct sec i sec' i' g s s' hold hold'

include hJ in
/-- The record in front of its marker is programmed into an erased slot. -/
theorem Rep.stage (h : Rep J Good f c) (hslot : slot < J.slots) (herased : c sector slot = .erased) (hg : Good g s) :
    Rep J Good (program f (J.slotAddress sector slot) (J.staged g s)) (c.set sector slot (.record g s false)) := by
  have hlen := hJ.staged_length g s
  have hlarge := hJ.frame.slot_large
  have hsize : J.frame.slotSize = J.frame.commitOffset + (4 + 4) := by
    unfold Frame.commitOffset
    omega
  have hoff : 0 + (J.staged g s).length ≤ J.frame.slotSize := by
    rw [hlen]
    omega
  refine Rep.write hJ h hslot hoff ?_ ?_ ?_
  · rw [herased]
    show overlay (blank J.frame.slotSize) 0 (J.staged g s) = J.frame.slot (J.staged g s) false
    rw [hsize, blank_add]
    have hover : overlay ([] ++ (List.replicate J.frame.commitOffset 0xFF ++ blank (4 + 4))) 0 (J.staged g s) =
        [] ++ (J.staged g s ++ blank (4 + 4)) := overlay_erased rfl hlen.symm
    rw [List.nil_append, List.nil_append, blank_add] at hover
    exact hover
  · intro g' s' b hx
    cases hx
    exact hg
  · intro g' s' s'' sec i hx
    cases hx

include hJ in
/-- The marker is programmed behind a staged record. -/
theorem Rep.commit (h : Rep J Good f c) (hslot : slot < J.slots) (hstaged : c sector slot = .record g s false)
    (hnew : ∀ sector' slot' s', ¬ c.Committed J sector' slot' g s') :
    Rep J Good (program f (J.slotAddress sector slot + J.frame.commitOffset) J.frame.commit)
      (c.set sector slot (.record g s true)) := by
  have hlen := hJ.staged_length g s
  have hlarge := hJ.frame.slot_large
  have hcommit := hJ.frame.commit_length
  refine Rep.write hJ h hslot ?_ ?_ ?_ ?_
  · rw [hcommit]
    unfold Frame.commitOffset
    omega
  · rw [hstaged]
    exact overlay_erased hlen hcommit.symm
  · intro g' s' b hx
    cases hx
    exact h.good sector slot g s false hslot hstaged
  · intro g' s' s'' sec i hx hc
    cases hx
    exact absurd hc (hnew sec i s'')

include hJ in
theorem Rep.erase (h : Rep J Good f c) (sector : Fin 2) :
    Rep J Good (erase f (J.sectors sector) (J.sectors sector + J.sectorSize)) (c.wipe sector) where
  slots := by
    intro sector' slot hslot
    have hall : J.slots * J.frame.slotSize ≤ J.sectorSize := Nat.div_mul_le_self _ _
    have hend : slot * J.frame.slotSize + J.frame.slotSize ≤ J.sectorSize := by
      rw [← Nat.succ_mul]
      exact le_trans (Nat.mul_le_mul_right _ hslot) hall
    unfold Layout.readSlot wipe Layout.slotAddress
    by_cases hs : sector' = sector
    · subst hs
      rw [read_erase_within f (by omega), Function.update_self]
      rfl
    · have hdis := hJ.disjoint
      rw [Function.update_of_ne hs, ← h.slots sector' slot hslot]
      unfold Layout.readSlot Layout.slotAddress
      apply read_erase_disjoint
      rcases two_sectors hs with ⟨rfl, rfl⟩ | ⟨rfl, rfl⟩ <;> omega
  good := by
    intro sector' slot g s b hslot hrec
    unfold wipe at hrec
    by_cases hs : sector' = sector
    · subst hs
      rw [Function.update_self] at hrec
      cases hrec
    · rw [Function.update_of_ne hs] at hrec
      exact h.good sector' slot g s b hslot hrec
  distinct := by
    intro sec i sec' i' g s s' hc hc'
    exact h.distinct sec i sec' i' g s s' (committed_wipe.mp hc).2 (committed_wipe.mp hc').2

/-- Erased flash holds the erased image. -/
theorem Rep.init : Rep J Good NorFlash.erased fun _ _ => .erased where
  slots := by
    intro sector slot _
    apply List.ext_getElem
    · simp [Layout.readSlot, Cell.render]
    · intro i h1 h2
      simp only [Layout.readSlot, read_getElem, Cell.render, blank, List.getElem_replicate]
      rfl
  good := by
    intro sector slot g s b _ h
    cases h
  distinct := by
    intro sec i sec' i' g s s' hc
    cases hc.2

include hJ in
/-- A slot that reads erased is erased. -/
theorem Rep.erased_of_read (h : Rep J Good f c) (hslot : slot < J.slots)
    (he : isErased (J.readSlot f sector slot) = true) : c sector slot = .erased := by
  rw [h.slots sector slot hslot] at he
  cases hc : c sector slot with
  | erased => rfl
  | record g s b =>
    rw [hc] at he
    have hp := hJ.staged_programmed g s
    unfold isErased at he hp
    rw [show (Cell.record g s b).render J = J.frame.slot (J.staged g s) b from rfl, Frame.slot, List.all_append, hp,
      Bool.false_and] at he
    cases he

/-! ## The newest record -/

/-- Only one answer is right. -/
theorem IsNewest.unique (h : Rep J Good f c) {o' : Option (Located σ)} (ho : IsNewest J c o) (ho' : IsNewest J c o') :
    o = o' := by
  cases o with
  | none =>
    cases o' with
    | none => rfl
    | some l' =>
      obtain ⟨⟨i, hi⟩, -⟩ := ho'
      exact absurd hi (ho _ _ _ _)
  | some l =>
    obtain ⟨⟨i, hi⟩, hmax⟩ := ho
    cases o' with
    | none => exact absurd hi (ho' _ _ _ _)
    | some l' =>
      obtain ⟨⟨i', hi'⟩, hmax'⟩ := ho'
      have hg : l.generation = l'.generation := UInt32.le_antisymm (hmax' _ _ _ _ hi) (hmax _ _ _ _ hi')
      rw [← hg] at hi'
      obtain ⟨hs, rfl⟩ := h.distinct _ _ _ _ _ _ _ hi hi'
      have hstate : Cell.record l.generation l.state true = .record l.generation l'.state true := by
        rw [← hi.2, ← hi'.2, hs]
      obtain ⟨lg, ls, lst⟩ := l
      obtain ⟨lg', ls', lst'⟩ := l'
      cases hg
      cases hs
      cases hstate
      rfl

include hJ in
theorem Rep.newest_eq (h : Rep J Good f c) (ho : IsNewest J c o) : J.newest f = o :=
  (hJ.newest f c h).unique h ho

/-- Staging a record does not change the answer. -/
theorem IsNewest.stage (herased : c sector slot = .erased) (ho : IsNewest J c o) :
    IsNewest J (c.set sector slot (.record g s false)) o := by
  have hiff : ∀ sec i g' s', (c.set sector slot (.record g s false)).Committed J sec i g' s' ↔ c.Committed J sec i g' s' := by
    intro sec i g' s'
    rw [committed_set]
    constructor
    · rintro (⟨-, -, -, hx⟩ | ⟨-, hc⟩)
      · cases hx
      · exact hc
    · intro hc
      refine Or.inr ⟨?_, hc⟩
      rintro ⟨rfl, rfl⟩
      rw [Committed, herased] at hc
      cases hc.2
  cases o with
  | none => exact fun sec i g' s' hc => ho sec i g' s' ((hiff _ _ _ _).mp hc)
  | some l =>
    obtain ⟨⟨i, hi⟩, hmax⟩ := ho
    exact ⟨⟨i, (hiff _ _ _ _).mpr hi⟩, fun sec i g' s' hc => hmax sec i g' s' ((hiff _ _ _ _).mp hc)⟩

/-- A committed record above all others is the answer. -/
theorem IsNewest.commit (hslot : slot < J.slots) (habove : ∀ sec i g' s', c.Committed J sec i g' s' → g' < g) :
    IsNewest J (c.set sector slot (.record g s true)) (some ⟨g, sector, s⟩) := by
  refine ⟨⟨slot, committed_set.mpr (Or.inl ⟨rfl, rfl, hslot, rfl⟩)⟩, fun sec i g' s' hc => ?_⟩
  rcases committed_set.mp hc with ⟨-, -, -, hx⟩ | ⟨-, hc⟩
  · cases hx
    exact UInt32.le_refl _
  · exact UInt32.le_of_lt (habove sec i g' s' hc)

/-- Erasing the other sector does not change the answer. -/
theorem IsNewest.erase (ho : IsNewest J c o) (hother : ∀ l, o = some l → l.sector ≠ sector) :
    IsNewest J (c.wipe sector) o := by
  cases o with
  | none => exact fun sec i g' s' hc => ho sec i g' s' (committed_wipe.mp hc).2
  | some l =>
    obtain ⟨⟨i, hi⟩, hmax⟩ := ho
    exact ⟨⟨i, committed_wipe.mpr ⟨hother l rfl, hi⟩⟩,
      fun sec i g' s' hc => hmax sec i g' s' (committed_wipe.mp hc).2⟩

end

end SnapshotJournal
