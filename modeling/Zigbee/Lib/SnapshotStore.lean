import Zigbee.Lib.SnapshotJournal

/-!
# Stores of a snapshot journal

The effect of a store on the flash and on the cache, and histories of operations with faults.

* `Stored` — a flash on which a scan finds the old record or the new one; `writeRecord_wp`,
  `eraseAndWrite_wp`, `store_wp` — every way a store ends leaves one.
* `Coherent`, `Stale` — a cache that agrees with the flash, and one whose sector was erased under it.
* `Store`, `Event` — histories of a store's operations with reboots.
-/

namespace SnapshotJournal

open Bytes NorFlash Crash Crash.Prog SnapshotRecord

variable {σ ε ρ : Type} {J : Journal σ ε} {Good : UInt32 → σ → Prop} {s : σ} {g : UInt32} {sector : Fin 2} {slot : Nat}

/-! ## Writing a record -/

/-- The flash `f'` holds an image and a scan finds what it found in `f`, or a record of `s`. -/
structure Stored (J : Journal σ ε) (Good : UInt32 → σ → Prop) (f f' : Flash) (s : σ) : Prop where
  rep : ∃ c, Rep J Good f' c
  newest : J.newest f' = J.newest f ∨ ∃ l, J.newest f' = some l ∧ l.state = s

/-- The record `l` was written to a slot of the image `c` and is the newest one of `f'`. -/
structure Written (J : Journal σ ε) (Good : UInt32 → σ → Prop) (c : Image σ) (slot : Nat) (f' : Flash) (l : Located σ) :
    Prop where
  rep : Rep J Good f' (c.set l.sector slot (.record l.generation l.state true))
  newest : J.newest f' = some l

/-- Nothing gets in the way of a store of `s`. -/
structure Smooth (J : Journal σ ε) (faults : List Fault) (s : σ) : Prop where
  faults : faults = []
  valid : J.validate s = .ok ()
  readable : J.chunksReadable = true

theorem not_smooth {faults : List Fault} (h : faults ≠ []) : ¬ Smooth J faults s := fun hs => h hs.faults

variable {f : Flash} {c : Image σ}

theorem Stored.same (h : Rep J Good f c) (s : σ) : Stored J Good f f s :=
  ⟨⟨c, h⟩, Or.inl rfl⟩

theorem Written.stored {f' : Flash} {l : Located σ} (h : Written J Good c slot f' l) : Stored J Good f f' l.state :=
  ⟨⟨_, h.rep⟩, Or.inr ⟨l, h.newest, rfl⟩⟩

theorem Stored.of_newest {f' f'' : Flash} (heq : J.newest f' = J.newest f) (h : Stored J Good f' f'' s) :
    Stored J Good f f'' s :=
  ⟨h.rep, by rw [← heq]; exact h.newest⟩

theorem writeRecord_wp (hJ : Lawful J Good) {w : World Flash ρ} (h : Rep J Good w.disk c) (hslot : slot < J.slots)
    (herased : c sector slot = .erased) (habove : ∀ l, J.newest w.disk = some l → l.generation < g)
    (hgood : J.validate s = .ok () → Good g s) {P : Post Flash ρ ε Unit}
    (hok : ∀ w', w'.ram = w.ram → Written J Good c slot w'.disk ⟨g, sector, s⟩ → P.ok () w')
    (herr : ∀ e w', ¬ Smooth J w.faults s → w'.ram = w.ram → Stored J Good w.disk w'.disk s → P.err e w')
    (hcut : ∀ d, ¬ Smooth J w.faults s → Stored J Good w.disk d s → P.cut d) : wp (J.writeRecord sector slot g s) w P := by
  have hnow : IsNewest J c (J.newest w.disk) := hJ.newest _ _ h
  have hlt : ∀ sec i g' s', c.Committed J sec i g' s' → g' < g := by
    intro sec i g' s' hc
    cases ho : J.newest w.disk with
    | none =>
      rw [ho] at hnow
      exact absurd hc (hnow sec i g' s')
    | some l =>
      rw [ho] at hnow
      exact UInt32.lt_of_le_of_lt (hnow.2 sec i g' s' hc) (habove l ho)
  unfold Journal.writeRecord Journal.write
  simp only [wp_bind, wp_ofExcept]
  cases hv : J.validate s with
  | error e =>
    refine herr e w (fun hs => ?_) rfl (Stored.same h s)
    have hvalid := hs.valid
    rw [hv] at hvalid
    cases hvalid
  | ok u =>
    have hg := hgood hv
    have hstage := h.stage hJ hslot herased hg
    have hold : J.newest (program w.disk (J.slotAddress sector slot) (J.staged g s)) = J.newest w.disk :=
      hstage.newest_eq hJ (hnow.stage herased)
    have hstaged : Stored J Good w.disk (program w.disk (J.slotAddress sector slot) (J.staged g s)) s :=
      ⟨⟨_, hstage⟩, Or.inl hold⟩
    -- the staged record is not committed, so nothing of generation `g` is
    have habsent : ∀ sec i s', ¬ (c.set sector slot (.record g s false)).Committed J sec i g s' := by
      intro sec i s' hc
      rcases Image.committed_set.mp hc with ⟨-, -, -, hx⟩ | ⟨-, hc⟩
      · cases hx
      · exact absurd (hlt sec i g s' hc) (UInt32.lt_irrefl g)
    have hcommit := hstage.commit hJ hslot (Image.set_self ..) habsent
    rw [Image.set_set] at hcommit
    have hwritten : Written J Good c slot _ ⟨g, sector, s⟩ :=
      ⟨hcommit, hcommit.newest_eq hJ (IsNewest.commit hslot hlt)⟩
    apply wp_command
    · intro fs hfs
      apply wp_command
      · intro fs _
        by_cases hread : J.chunksReadable = false
        · rw [if_pos hread]
          refine herr _ _ (fun hs => ?_) rfl hwritten.stored
          rw [hs.readable] at hread
          cases hread
        · rw [if_neg hread]
          simp only [wp_bind, wp_getDisk]
          rw [hcommit.slots sector slot hslot, Image.set_self]
          show wp (if J.verified (J.frame.slot (J.staged g s) true) g s = true then _ else _) _ _
          rw [if_pos (hJ.verified g s hg)]
          exact hok _ rfl hwritten
      · exact fun hne fs _ => herr _ _ (not_smooth (ne_nil_of_suffix hfs hne)) rfl hstaged
      · intro hne
        have hrough : ¬ Smooth J w.faults s := not_smooth (ne_nil_of_suffix hfs hne)
        exact ⟨hcut _ hrough hstaged, hcut _ hrough hwritten.stored⟩
    · exact fun hne fs _ => herr _ _ (not_smooth hne) rfl (Stored.same h s)
    · exact fun hne => ⟨hcut _ (not_smooth hne) (Stored.same h s), hcut _ (not_smooth hne) hstaged⟩

theorem eraseAndWrite_wp (hJ : Lawful J Good) {w : World Flash ρ} (h : Rep J Good w.disk c)
    (hother : ∀ l, J.newest w.disk = some l → l.sector ≠ sector) (habove : ∀ l, J.newest w.disk = some l → l.generation < g)
    (hgood : J.validate s = .ok () → Good g s) {P : Post Flash ρ ε Unit}
    (hok : ∀ w', w'.ram = w.ram → Written J Good (c.wipe sector) 0 w'.disk ⟨g, sector, s⟩ → P.ok () w')
    (herr : ∀ e w', ¬ Smooth J w.faults s → w'.ram = w.ram → Stored J Good w.disk w'.disk s → P.err e w')
    (hcut : ∀ d, ¬ Smooth J w.faults s → Stored J Good w.disk d s → P.cut d) : wp (J.eraseAndWrite sector g s) w P := by
  have hwipe := h.erase hJ sector
  have hsame := hwipe.newest_eq hJ ((hJ.newest _ _ h).erase hother)
  have herased : (c.wipe sector) sector 0 = .erased := by
    unfold Image.wipe
    rw [Function.update_self]
  unfold Journal.eraseAndWrite Journal.eraseSector
  simp only [wp_bind]
  apply wp_command
  · intro fs hfs
    have hrough : ¬ Smooth J fs s → ¬ Smooth J w.faults s := by
      intro hfs' hs
      exact hfs' ⟨by rw [hs.faults] at hfs; exact List.suffix_nil.mp hfs, hs.valid, hs.readable⟩
    apply writeRecord_wp hJ hwipe hJ.slots_pos herased
    · intro l hl
      exact habove l (hsame.symm.trans hl)
    · exact hgood
    · exact fun w' hram hw => hok w' hram hw
    · exact fun e w' hs hram hstored => herr e w' (hrough hs) hram (hstored.of_newest hsame)
    · exact fun d hs hstored => hcut d (hrough hs) (hstored.of_newest hsame)
  · exact fun hne fs _ => herr _ _ (not_smooth hne) rfl (Stored.same h s)
  · exact fun hne => ⟨hcut _ (not_smooth hne) (Stored.same h s), hcut _ (not_smooth hne) ⟨⟨_, hwipe⟩, Or.inl hsame⟩⟩

/-- The search for an erased slot changes nothing. -/
theorem firstErasedSlot_wp (hJ : Lawful J Good) {w : World Flash ρ} (h : Rep J Good w.disk c)
    {P : Post Flash ρ ε (Option Nat)} (hsome : ∀ slot, slot < J.slots → c sector slot = .erased → P.ok (some slot) w)
    (hnone : J.chunksReadable = true → (∃ slot, slot < J.slots ∧ isErased (J.readSlot w.disk sector slot) = false) →
      P.ok none w) (herr : J.chunksReadable = false → P.err J.hardware w) : wp (J.firstErasedSlot sector) w P := by
  unfold Journal.firstErasedSlot
  by_cases hread : J.chunksReadable = false
  · rw [if_pos hread]
    exact herr hread
  · rw [if_neg hread]
    simp only [wp_bind, wp_getDisk, wp_pure]
    cases hfind : (List.range J.slots).find? fun slot => isErased (J.readSlot w.disk sector slot) with
    | some slot =>
      have hslot : slot < J.slots := List.mem_range.mp (List.mem_of_find?_eq_some hfind)
      exact hsome slot hslot (h.erased_of_read hJ hslot (by simpa using List.find?_some hfind))
    | none =>
      have hall := List.find?_eq_none.mp hfind
      exact hnone (by simpa using hread) ⟨0, hJ.slots_pos, by simpa using hall 0 (List.mem_range.mpr hJ.slots_pos)⟩

/-! ## The cache -/

/-- What an operation takes for the newest record. -/
def Journal.located (J : Journal σ ε) (f : Flash) (c : Cache σ) : Option (Located σ) :=
  if c.scanned = true then c.cached else J.newest f

def Coherent (J : Journal σ ε) (f : Flash) (c : Cache σ) : Prop := J.located f c = J.newest f

/-- The cached record is gone, its sector is erased, and every record left is older. -/
structure Stale (J : Journal σ ε) (f : Flash) (c : Cache σ) (l : Located σ) : Prop where
  located : J.located f c = some l
  older : ∀ l', J.newest f = some l' → l'.generation < l.generation
  erased : ∀ slot, slot < J.slots → isErased (J.readSlot f l.sector slot) = true

theorem Coherent.of_located {c c' : Cache σ} (h : Coherent J f c) (hloc : J.located f c' = J.located f c) :
    Coherent J f c' := hloc.trans h

theorem Stale.of_located {c c' : Cache σ} {l : Located σ} (h : Stale J f c l) (hloc : J.located f c' = J.located f c) :
    Stale J f c' l :=
  ⟨hloc.trans h.located, h.older, h.erased⟩

theorem Coherent.forgotten (J : Journal σ ε) (f : Flash) : Coherent J f ⟨none, false⟩ := rfl

variable {w : World Flash (Cache σ)}

theorem current_wp (hgeom : J.geometryOk = true) {P : Post Flash (Cache σ) ε (Option (Located σ))}
    (hok : P.ok (J.located w.disk w.ram) { w with ram := ⟨J.located w.disk w.ram, true⟩ }) : wp J.current w P := by
  unfold Journal.current
  rw [if_neg (by simp [hgeom])]
  simp only [wp_bind, wp_getRam]
  unfold Journal.located at hok
  by_cases hs : w.ram.scanned = true
  · rw [if_pos hs]
    rw [if_pos hs, show (⟨w.ram.cached, true⟩ : Cache σ) = w.ram by rw [← hs]] at hok
    exact hok
  · rw [if_neg hs]
    rw [if_neg hs] at hok
    simpa only [wp_bind, wp_getDisk, wp_modifyRam, wp_pure] using hok

theorem load_wp (hgeom : J.geometryOk = true) {P : Post Flash (Cache σ) ε (Option σ)}
    (hok : P.ok ((J.located w.disk w.ram).map (·.state)) { w with ram := ⟨J.located w.disk w.ram, true⟩ }) :
    wp J.load w P := by
  unfold Journal.load
  simp only [wp_bind, wp_pure]
  exact current_wp hgeom hok

variable {P : Post Flash (Cache σ) ε Unit}

/-- Writing under `cacheResult`: the cache holds the new record, or nothing. -/
theorem cacheResult_wp {m : Prog Flash (Cache σ) ε Unit}
    (hm : m.wp w ⟨fun _ w' => P.ok () { w' with ram := { w'.ram with cached := some ⟨g, sector, s⟩ } },
      fun e w' => P.err e { w' with ram := ⟨none, false⟩ }, P.cut⟩) : wp (cacheResult g sector s m) w P := by
  unfold cacheResult
  simp only [wp_bind, wp_attempt]
  refine wp_mono hm ?_ ?_ ?_
  · exact fun _ w' h => h
  · intro e w' h
    exact h
  · exact fun d h => h

/-- The generation of the next record, unless generations are exhausted. -/
def nextOf : Option (Located σ) → Option UInt32
  | none => some 0
  | some l => nextGeneration l.generation

/-- Where a store puts its record: behind the one it takes for the newest, in the same sector or at the
    start of the other one, which it erases. -/
def Placed (J : Journal σ ε) (c c' : Image σ) (slot : Nat) (l : Located σ) : Option (Located σ) → Prop
  | none => l.generation = 0 ∧ l.sector = 0 ∧ c' = c.wipe 0 ∧ slot = 0
  | some old => nextGeneration old.generation = some l.generation ∧
      ((l.sector = old.sector ∧ c' = c ∧ slot < J.slots ∧ c old.sector slot = .erased) ∨
        (l.sector = 1 - old.sector ∧ c' = c.wipe (1 - old.sector) ∧ slot = 0))

/-- **One store.**  From a coherent cache, or a stale one with a generation left, a store that returns
    leaves a coherent cache; whatever happens, a scan finds the old record or the new one. -/
theorem store_wp (hJ : Lawful J Good) (hgeom : J.geometryOk = true) (h : Rep J Good w.disk c)
    (hready : Coherent J w.disk w.ram ∨
      (∃ l, Stale J w.disk w.ram l) ∧ J.chunksReadable = true ∧ nextOf (J.located w.disk w.ram) ≠ none)
    (hgood : ∀ g, nextOf (J.located w.disk w.ram) = some g → J.validate s = .ok () → Good g s)
    (hok : ∀ w' l c' slot, l.state = s → Placed J c c' slot l (J.located w.disk w.ram) →
      Written J Good c' slot w'.disk l → w'.ram = ⟨some l, true⟩ → P.ok () w')
    (herr : ∀ e w', ¬ (Smooth J w.faults s ∧ nextOf (J.located w.disk w.ram) ≠ none) → Stored J Good w.disk w'.disk s →
      Coherent J w'.disk w'.ram → P.err e w') (hcut : ∀ d, ¬ Smooth J w.faults s → Stored J Good w.disk d s → P.cut d) :
    wp (J.store s) w P := by
  unfold Journal.store
  simp only [wp_bind]
  apply current_wp hgeom
  -- an error that leaves the flash as it was, behind a scan
  have hkeep : ∀ e w', w'.disk = w.disk → w'.ram = ⟨J.located w.disk w.ram, true⟩ →
      ¬ (Smooth J w.faults s ∧ nextOf (J.located w.disk w.ram) ≠ none) → Coherent J w.disk w.ram → P.err e w' := by
    intro e w' hdisk hram hrough hcoh
    apply herr e w' hrough
    · rw [hdisk]
      exact Stored.same h s
    · rw [hdisk, hram]
      exact hcoh
  have hforget : ∀ e (w' : World Flash (Cache σ)), ¬ Smooth J w.faults s → Stored J Good w.disk w'.disk s →
      P.err e { w' with ram := ⟨none, false⟩ } :=
    fun e w' hrough hs => herr e _ (fun hboth => hrough hboth.1) hs (Coherent.forgotten J _)
  have hcache : ∀ (w' : World Flash (Cache σ)) (l : Located σ) (c' : Image σ) (slot : Nat), l.state = s →
      Placed J c c' slot l (J.located w.disk w.ram) → w'.ram = ⟨J.located w.disk w.ram, true⟩ →
      Written J Good c' slot w'.disk l → P.ok () { w' with ram := { w'.ram with cached := some l } } :=
    fun w' l c' slot hl hplaced hram hw => hok _ l c' slot hl hplaced hw (by rw [hram])
  cases hloc : J.located w.disk w.ram with
  | none =>
    rw [hloc] at hgood hcache
    have hnone : J.newest w.disk = none := by
      rcases hready with hcoh | ⟨⟨l, hl⟩, -, -⟩
      · exact hcoh.symm.trans hloc
      · have := hl.located
        rw [hloc] at this
        cases this
    apply cacheResult_wp
    apply eraseAndWrite_wp hJ
    · exact h
    · intro l hl
      rw [hnone] at hl
      cases hl
    · intro l hl
      rw [hnone] at hl
      cases hl
    · exact hgood 0 rfl
    · exact fun w' hram hw => hcache w' ⟨0, 0, s⟩ _ 0 rfl ⟨rfl, rfl, rfl, rfl⟩ hram hw
    · exact fun e w' hrough _ hs => hforget e w' hrough hs
    · exact hcut
  | some l =>
    rw [hloc] at hgood hcache hkeep
    cases hnext : nextGeneration l.generation with
    | none =>
      simp only [hnext, wp_fail]
      refine hkeep _ { w with ram := ⟨some l, true⟩ } rfl rfl (fun hboth => hboth.2 hnext) ?_
      rcases hready with hcoh | ⟨-, -, hgen⟩
      · exact hcoh
      · rw [hloc] at hgen
        exact absurd hnext hgen
    | some g =>
      have hlt := lt_of_nextGeneration hnext
      have habove : ∀ l', J.newest w.disk = some l' → l'.generation < g := by
        intro l' hl'
        rcases hready with hcoh | ⟨⟨l'', hl''⟩, -, -⟩
        · unfold Coherent at hcoh
          rw [hloc, hl'] at hcoh
          cases hcoh
          exact hlt
        · have heq := hl''.located
          rw [hloc] at heq
          cases heq
          exact UInt32.lt_trans (hl''.older l' hl') hlt
      simp only [hnext, wp_bind]
      apply firstErasedSlot_wp hJ
      · exact h
      · intro slot hslot herased
        apply cacheResult_wp
        apply writeRecord_wp hJ
        · exact h
        · exact hslot
        · exact herased
        · exact habove
        · exact hgood g hnext
        · exact fun w' hram hw =>
            hcache w' ⟨g, l.sector, s⟩ _ slot rfl ⟨hnext, Or.inl ⟨rfl, rfl, hslot, herased⟩⟩ hram hw
        · exact fun e w' hrough _ hs => hforget e w' hrough hs
        · exact hcut
      · rintro - ⟨slot, hslot, hused⟩
        apply cacheResult_wp
        apply eraseAndWrite_wp hJ
        · exact h
        · intro l' hl'
          rcases hready with hcoh | ⟨⟨l'', hl''⟩, -, -⟩
          · unfold Coherent at hcoh
            rw [hloc, hl'] at hcoh
            cases hcoh
            exact (other_sector l.sector).symm
          · -- the sector of a stale record has room
            have heq := hl''.located
            rw [hloc] at heq
            cases heq
            rw [show J.readSlot _ _ _ = J.readSlot w.disk l.sector slot from rfl, hl''.erased slot hslot] at hused
            cases hused
        · exact habove
        · exact hgood g hnext
        · exact fun w' hram hw =>
            hcache w' ⟨g, 1 - l.sector, s⟩ _ 0 rfl ⟨hnext, Or.inr ⟨rfl, rfl, rfl⟩⟩ hram hw
        · exact fun e w' hrough _ hs => hforget e w' hrough hs
        · exact hcut
      · intro hread
        have hrough : ¬ (Smooth J w.faults s ∧ nextOf (some l) ≠ none) := by
          intro hboth
          rw [hboth.1.readable] at hread
          cases hread
        refine hkeep _ { w with ram := ⟨some l, true⟩ } rfl rfl hrough ?_
        rcases hready with hcoh | ⟨-, hchunks, -⟩
        · exact hcoh
        · rw [hread] at hchunks
          cases hchunks

/-- Without a generation left a store is refused and changes nothing. -/
theorem store_exhausted_wp (hgeom : J.geometryOk = true) (hnext : nextOf (J.located w.disk w.ram) = none)
    (herr : P.err J.generationExhausted { w with ram := ⟨J.located w.disk w.ram, true⟩ }) : wp (J.store s) w P := by
  unfold Journal.store
  simp only [wp_bind]
  apply current_wp hgeom
  cases hloc : J.located w.disk w.ram with
  | none =>
    rw [hloc] at hnext
    cases hnext
  | some l =>
    rw [hloc] at hnext herr
    simp only [show nextGeneration l.generation = none from hnext, wp_fail]
    exact herr

/-! ## Histories -/

/-- The operations of a store; `other` are those beside `load` and `store`. -/
structure Store (ρ σ ε ι : Type) where
  new : ρ
  load : Prog Flash ρ ε (Option σ)
  store : σ → Prog Flash ρ ε Unit
  other : ι → Prog Flash ρ ε Unit

/-- Flash contents and the live store. -/
structure Machine (ρ : Type) where
  flash : Flash
  ram : ρ

inductive Event (σ ι : Type) where
  | load (faults : List Fault)
  | store (state : σ) (faults : List Fault)
  | other (i : ι) (faults : List Fault)
  | reboot

namespace Store

variable {ι : Type} (S : Store ρ σ ε ι)

/-- A freshly constructed store over `f`. -/
def fresh (f : Flash) : Machine ρ := ⟨f, S.new⟩

/-- What an operation leaves; power comes back after a cut. -/
def settle {α : Type} : Outcome Flash ρ ε α → Machine ρ
  | .ok _ w => ⟨w.disk, w.ram⟩
  | .err _ w => ⟨w.disk, w.ram⟩
  | .cut d => S.fresh d

def step (m : Machine ρ) : Event σ ι → Machine ρ
  | .load faults => S.settle (S.load ⟨m.flash, m.ram, faults⟩)
  | .store state faults => S.settle (S.store state ⟨m.flash, m.ram, faults⟩)
  | .other i faults => S.settle (S.other i ⟨m.flash, m.ram, faults⟩)
  | .reboot => S.fresh m.flash

/-- The machine over erased flash. -/
def init : Machine ρ := S.fresh NorFlash.erased

/-- An undisturbed `load` returns `a`. -/
def Loads (m : Machine ρ) (a : Option σ) : Prop := ∃ w, S.load ⟨m.flash, m.ram, []⟩ = .ok a w

variable {S}

/-- A step ends as the weakest precondition of its operation says. -/
theorem settle_of_wp {α : Type} {m : Prog Flash ρ ε α} {w : World Flash ρ} {I : Machine ρ → Prop}
    (h : m.wp w ⟨fun _ w' => I ⟨w'.disk, w'.ram⟩, fun _ w' => I ⟨w'.disk, w'.ram⟩, fun d => I (S.fresh d)⟩) :
    I (S.settle (m w)) := by
  unfold wp at h
  unfold settle
  cases hm : m w with
  | ok a w' =>
    rw [hm] at h
    exact h
  | err e w' =>
    rw [hm] at h
    exact h
  | cut d =>
    rw [hm] at h
    exact h

theorem loads_of_wp {m : Machine ρ} {a : Option σ}
    (h : S.load.wp ⟨m.flash, m.ram, []⟩ ⟨fun b _ => b = a, fun _ _ => False, fun _ => False⟩) : S.Loads m a := by
  unfold wp at h
  unfold Loads
  cases hm : S.load ⟨m.flash, m.ram, []⟩ with
  | ok b w =>
    rw [hm] at h
    exact ⟨w, by rw [← h]⟩
  | err e w =>
    rw [hm] at h
    exact absurd h id
  | cut d =>
    rw [hm] at h
    exact absurd h id

/-- A load has one answer. -/
theorem Loads.unique {m : Machine ρ} {a b : Option σ} (ha : S.Loads m a) (hb : S.Loads m b) : a = b := by
  obtain ⟨w, hw⟩ := ha
  obtain ⟨w', hw'⟩ := hb
  rw [hw] at hw'
  cases hw'
  rfl

end Store

/-! ## Cached journals -/

variable {ι : Type}

/-- A journal as a store, with operations of its own. -/
def Journal.toStore (J : Journal σ ε) (other : ι → Prog Flash (Cache σ) ε Unit) : Store (Cache σ) σ ε ι where
  new := ⟨none, false⟩
  load := J.load
  store := J.store
  other := other

section

variable {o : ι → Prog Flash (Cache σ) ε Unit} {m : Machine (Cache σ)}

theorem loads_located (hgeom : J.geometryOk = true) (m : Machine (Cache σ)) :
    (J.toStore o).Loads m ((J.located m.flash m.ram).map (·.state)) :=
  Store.loads_of_wp (load_wp hgeom rfl)

theorem loads_fresh (hgeom : J.geometryOk = true) (f : Flash) :
    (J.toStore o).Loads ((J.toStore o).fresh f) ((J.newest f).map (·.state)) :=
  loads_located hgeom ((J.toStore o).fresh f)

/-- A store may start here: its record will read back, and an error does not leave a stale cache. -/
structure StoreReady (J : Journal σ ε) (Good : UInt32 → σ → Prop) (m : Machine (Cache σ)) (s : σ) : Prop where
  good : ∀ g, nextOf (J.located m.flash m.ram) = some g → J.validate s = .ok () → Good g s
  ready : Coherent J m.flash m.ram ∨
    (∃ l, Stale J m.flash m.ram l) ∧ J.chunksReadable = true ∧ nextOf (J.located m.flash m.ram) ≠ none

/-- The flash of a machine is an image and its cache agrees with it. -/
structure Sound (J : Journal σ ε) (Good : UInt32 → σ → Prop) (m : Machine (Cache σ)) : Prop where
  rep : ∃ c, Rep J Good m.flash c
  coherent : Coherent J m.flash m.ram

theorem Sound.fresh (h : ∃ c, Rep J Good f c) : Sound J Good ((J.toStore o).fresh f) :=
  ⟨h, Coherent.forgotten J f⟩

theorem Sound.init : Sound J Good (J.toStore o).init := Sound.fresh ⟨_, Rep.init⟩

theorem StoreReady.step (hJ : Lawful J Good) (hgeom : J.geometryOk = true) (hrep : ∃ c, Rep J Good m.flash c)
    (h : StoreReady J Good m s) (faults : List Fault) :
    Sound J Good ((J.toStore o).step m (.store s faults)) := by
  obtain ⟨c, hc⟩ := hrep
  apply Store.settle_of_wp (S := J.toStore o)
  apply store_wp hJ hgeom
  · exact hc
  · exact h.ready
  · exact h.good
  · intro w' l c' slot _ _ hw hram
    refine ⟨⟨_, hw.rep⟩, ?_⟩
    rw [hram]
    exact hw.newest.symm
  · exact fun _ w' _ hs hcoh => ⟨hs.rep, hcoh⟩
  · exact fun d _ hs => Sound.fresh hs.rep

/-- **An undisturbed store of a valid snapshot succeeds**, while there is a generation left. -/
theorem StoreReady.undisturbed (hJ : Lawful J Good) (hgeom : J.geometryOk = true) (hrep : Rep J Good m.flash c)
    (h : StoreReady J Good m s) (hvalid : J.validate s = .ok ()) (hread : J.chunksReadable = true)
    (hnext : nextOf (J.located m.flash m.ram) ≠ none) :
    ∃ w l c' slot, J.store s ⟨m.flash, m.ram, []⟩ = .ok () w ∧ l.state = s ∧
      Placed J c c' slot l (J.located m.flash m.ram) ∧ Written J Good c' slot w.disk l ∧ w.ram = ⟨some l, true⟩ := by
  have hsmooth : Smooth J [] s := ⟨rfl, hvalid, hread⟩
  have hwp : (J.store s).wp ⟨m.flash, m.ram, []⟩
      { ok := fun _ w => ∃ l c' slot, l.state = s ∧ Placed J c c' slot l (J.located m.flash m.ram) ∧
          Written J Good c' slot w.disk l ∧ w.ram = ⟨some l, true⟩
        err := fun _ _ => False
        cut := fun _ => False } := by
    apply store_wp hJ hgeom
    · exact hrep
    · exact h.ready
    · exact h.good
    · exact fun w' l c' slot hl hplaced hw hram => ⟨l, c', slot, hl, hplaced, hw, hram⟩
    · exact fun _ _ hrough _ _ => hrough ⟨hsmooth, hnext⟩
    · exact fun _ hrough _ => hrough hsmooth
  unfold wp at hwp
  cases hrun : J.store s ⟨m.flash, m.ram, []⟩ with
  | ok u w =>
    rw [hrun] at hwp
    obtain ⟨l, c', slot, hall⟩ := hwp
    exact ⟨w, l, c', slot, rfl, hall⟩
  | err e w =>
    rw [hrun] at hwp
    exact absurd hwp id
  | cut d =>
    rw [hrun] at hwp
    exact absurd hwp id

/-- A load changes neither the flash nor what operations take for the newest record. -/
theorem load_step (hgeom : J.geometryOk = true) (m : Machine (Cache σ)) (faults : List Fault) :
    ((J.toStore o).step m (.load faults)).flash = m.flash ∧
      J.located m.flash ((J.toStore o).step m (.load faults)).ram = J.located m.flash m.ram := by
  apply Store.settle_of_wp (S := J.toStore o)
    (I := fun m' => m'.flash = m.flash ∧ J.located m.flash m'.ram = J.located m.flash m.ram)
  exact load_wp hgeom ⟨rfl, rfl⟩

theorem exhausted_step (hgeom : J.geometryOk = true) (m : Machine (Cache σ)) (faults : List Fault)
    (hnext : nextOf (J.located m.flash m.ram) = none) :
    ((J.toStore o).step m (.store s faults)).flash = m.flash ∧
      J.located m.flash ((J.toStore o).step m (.store s faults)).ram = J.located m.flash m.ram := by
  apply Store.settle_of_wp (S := J.toStore o)
    (I := fun m' => m'.flash = m.flash ∧ J.located m.flash m'.ram = J.located m.flash m.ram)
  exact store_exhausted_wp hgeom hnext ⟨rfl, rfl⟩

end

end SnapshotJournal
