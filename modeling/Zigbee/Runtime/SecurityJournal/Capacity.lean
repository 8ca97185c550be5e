import Zigbee.Runtime.SecurityJournal.Machine

/-!
# Capacity of the replay table, and where a snapshot comes from

Two slips of the journal decide how its replay floors fare.

* `append_durable_replay_counter` writes an entry to flash before the in-RAM merge that can report
  `Full`.  An append of a new domain to a generation that already has all `maxReplay` domains
  (`Overfills`) leaves a generation that no scan accepts.
* A generation number is reused after an attempt that did not commit, and the retry may be written
  into the same sector; the replay slots of the first attempt then belong to the new generation
  (`Op.inherits`), whether or not its snapshot has their domains.

This module has what both come down to: `run_fits`, that a run which never overfills keeps every
scan within its capacity, and `plan_generation` and `advance_entries`, that a new generation consists
of the floors the journal worked with, changed as the operation says, and of what it takes over.
-/

namespace Zigbee.Runtime.SecurityJournal

open Bytes NorFlash Crash Crash.Prog FloorTable Run

/-! ## Capacity -/

/-- A commit that appends a new domain to a generation which already has every domain a scan takes. -/
def Overfills (cfg : Geometry) (m : Machine) : Event → Prop
  | .op (.commit r) _ =>
    r.isNwk = false ∧ storable r = true ∧ ∃ l t, cfg.newest m.flash = some l ∧
      l.state.commissioned = true ∧
      (cfg.findReplayAppendPosition m.flash l.sector l.generation).isSome = true ∧
      (fresh m.flash).reported cfg = .ok t ∧ t.length = cfg.maxReplay ∧
      ∀ x ∈ t, x.sameDomain r = false
  | _ => False

variable {op : Op} {r : PersistentReplayCounter} {faults : List Fault} {rollover : Bool} {g : UInt32}
   {t : List PersistentReplayCounter} {st : PersistentSecurityState} {tag : UInt16} {v' : View} {f' : Flash} {j' : Journal}
   {l : LocatedState}

section

variable {cfg : Geometry} {m : Machine} {v : View} {n : Nat}

/-- What a plan to append says about the machine. -/
theorem plan_append (h : m.Shows cfg v) (hp : op.plan cfg.toConfig m.flash m.journal = .append r) :
    op = .commit r ∧ r.isNwk = false ∧ ∃ l, v.cur = some l ∧ l.state.commissioned = true ∧
      (cfg.findReplayAppendPosition m.flash l.sector l.generation).isSome = true := by
  have hspec := plan_spec h op
  rw [hp] at hspec
  cases hspec with
  | append hop hr hcur hcom hpos => exact ⟨hop, hr, _, hcur, hcom, hpos⟩

/-- A scan can read every domain of the current generation. -/
def View.Fits (cfg : Geometry) (v : View) : Prop := domains v.entries ≤ cfg.maxReplay

theorem fits_insert (h : m.Shows cfg v) (hfit : v.Fits cfg) (hp : op.plan cfg.toConfig m.flash m.journal = .append r)
    (hst : storable r = true) (hsafe : ¬ Overfills cfg m (.op op faults)) : (v.insert r).Fits cfg := by
  obtain ⟨rfl, hnwk, l, hcur, hcom, hpos⟩ := plan_append h hp
  by_cases hknown : ∃ y ∈ v.entries, y.domain = r.domain
  · obtain ⟨y, hy, hd⟩ := hknown
    refine le_trans (keyCount_mono ?_) hfit
    rintro x (rfl | hx)
    · exact ⟨y, hy, hd⟩
    · exact ⟨x, hx, rfl⟩
  · push Not at hknown
    obtain ⟨t, ht⟩ := (reported_fresh_isOk h).mpr hfit
    obtain ⟨hfl, hlen⟩ := reported_fresh_floors h ht
    have hne : t.length ≠ cfg.maxReplay := by
      intro hfull
      refine hsafe ⟨hnwk, hst, l, t, h.newest.trans hcur, hcom, hpos, ht, hfull, fun x hx => ?_⟩
      rw [Bool.eq_false_iff]
      exact fun hs => hknown x (hfl.mem x hx) ((x.sameDomain_iff r).mp hs)
    unfold View.Fits View.insert
    rw [show domains (Insert.insert r v.entries) = _ from keyCount_insert_new hknown, ← hfl.length_eq]
    have : t.length + 1 ≤ cfg.maxReplay := by omega
    exact_mod_cast this

theorem Snapshot.floors (hsnap : Snapshot cfg.toConfig v rollover g t) : Floors (durable t) t :=
  (IsFloors.self hsnap.nodup).congr (by
    ext x
    exact ⟨fun hx => ⟨hx, hsnap.nwk x hx⟩, fun hx => hx.1⟩)

/-- A snapshot fits the cache it was staged in. -/
theorem fits_snapshot (hsnap : Snapshot cfg.toConfig v rollover g t) : domains (durable t) ≤ cfg.maxReplay := by
  rw [show domains (durable t) = _ from hsnap.floors.length_eq.symm]
  exact_mod_cast hsnap.length

theorem fits_advance (h : m.Shows cfg v) (hfit : v.Fits cfg) (hsnap : Snapshot cfg.toConfig v rollover g t) :
    (v.advance (cfg.stays m.flash v.cur rollover t.length) g st tag (durable t)).Fits cfg := by
  unfold View.Fits View.advance
  dsimp only
  split
  · rename_i hin
    -- written beside the current generation: everything was already there
    obtain ⟨img, -, hshow, -⟩ := h
    have hro : rollover = false := by
      cases rollover with
      | false => rfl
      | true => cases hc : v.cur <;> simp [Config.stays, Config.placement, hc] at hin
    refine le_trans (keyCount_mono ?_) hfit
    rintro x (hx | hx)
    · exact ⟨x, hshow.leftover_subset hx, rfl⟩
    · exact ⟨x, hsnap.sub hro x hx.1, rfl⟩
  · exact fits_snapshot hsnap

/-- **Capacity is kept** by every operation that does not overfill. -/
theorem effect_fits (h : m.Shows cfg v) (hfit : v.Fits cfg) {s : Status} (hsafe : ¬ Overfills cfg m (.op op faults))
    (h' : Coupled cfg.toConfig f' j' v')
    (heff : Effect cfg.toConfig m.flash m.journal v faults n (op.plan cfg.toConfig m.flash m.journal) s v' f' j') :
    v'.Fits cfg := by
  rcases heff.view with ⟨-, hentries⟩ | ⟨r, hp, rfl⟩ | ⟨ro, g, st, tag, t, hp, hsnap, rfl⟩
  · unfold View.Fits
    rw [hentries]
    exact hfit
  · exact fits_insert h hfit hp (h'.storable (Set.mem_insert _ _)) hsafe
  · exact fits_advance h hfit hsnap

/-- A run without overfilling keeps every scan within its capacity. -/
theorem run_fits {es : List Event}
    (hsafe : Along (Machine.step cfg) (fun m e => ¬ Overfills cfg m e) Machine.init es) :
    ∃ v, (run (Machine.step cfg) Machine.init es).Shows cfg v ∧ v.Fits cfg := by
  refine run_induct (I := fun m => ∃ v, Machine.Shows cfg m v ∧ v.Fits cfg) ?_ ?_ hsafe
  · rintro m e ⟨v, h, hfit⟩ hs
    cases e with
    | op op faults =>
      obtain ⟨v', h', heff⟩ := exec_effect h op faults
      exact ⟨v', h', effect_fits h hfit hs h' heff⟩
    | reboot => exact ⟨v, h.fresh, hfit⟩
  · exact ⟨_, init_shows cfg, by simp [View.Fits, domains, keyCount]⟩

/-- A journal within its capacity has floors to work with. -/
theorem live_isOk (h : m.Shows cfg v) (hfit : v.Fits cfg) (hcur : v.cur = some l) :
    ∃ t, liveReplay cfg.toConfig m.flash m.journal l = .ok t := by
  by_cases hg : m.journal.replayGeneration = some l.generation
  · exact ⟨_, by rw [liveReplay, if_pos hg]⟩
  · obtain ⟨t, ht⟩ := (reported_fresh_isOk h).mpr hfit
    exact ⟨t, by rwa [liveReplay, if_neg hg, ← reported_fresh h hcur]⟩

/-- A generation takes no more slots than a sector has. -/
theorem snapshot_room (h : m.Shows cfg v) (hcur : v.cur = some l) (hc : CacheOk cfg.toConfig v t) :
    1 + replaySnapshotSlots t.length ≤ cfg.slotsPerSector := by
  obtain ⟨img, hrep, hshow, -⟩ := h
  have hmem : l ∈ img.records := by
    cases hshow with
    | blank hrec hhead => cases hcur
    | located l' hmem htop hhead hleft => cases hcur; exact hmem
  have hsub : t ⊆ img.scanList l.sector l.generation := by
    intro x hx
    have := hc.mem x hx
    rw [hshow.entries_eq hcur, ← Image.mem_scanList] at this
    exact this
  have hle := (hc.nodup.of_map.subperm hsub).length_le
  have hcap := Image.scanList_length hmem l.generation
  rw [hrep.length] at hcap
  simp only [replaySnapshotSlots, REPLAY_ENTRIES_PER_SLOT]
  omega

theorem slots_pos (cfg : Geometry) : 1 ≤ cfg.slotsPerSector := by
  have := cfg.accepted
  simp only [Config.Rejected, not_or] at this
  obtain ⟨-, hsize, -⟩ := this
  unfold Config.slotsPerSector
  simp only [SECURITY_JOURNAL_SLOT_SIZE] at *
  omega

/-- A generation with a valid record and room for its snapshot is only stopped by faults. -/
theorem generation_faultless {ro : Bool} {s : Status} (hvalid : st.validate = .ok ()) (hst : ∀ u ∈ t, storable u = true)
    (hroom : 1 + replaySnapshotSlots t.length ≤ cfg.slotsPerSector)
    (heff : Effect cfg.toConfig m.flash m.journal v [] n (.generation ro g st tag t) s v' f' j') :
    s = .ok ∧ v' = v.advance (cfg.stays m.flash v.cur ro t.length) g st tag (durable t) ∧
      cfg.Uses m.flash f' v.cur ro t.length := by
  cases heff with
  | generationOk hsnap hv hcache huse => exact ⟨rfl, rfl, huse⟩
  | generationErr hsnap hwhy hv hcache huse =>
    rcases hwhy with h | h | ⟨u, hu, h⟩ | h
    · exact absurd rfl h
    · exact absurd hvalid h
    · rw [hst u hu] at h
      cases h
    · omega
  | unread hwhy hcache => exact absurd rfl hwhy
  | lost hwhy => exact absurd rfl hwhy
  | generationLate hsnap hlate hcache => exact absurd rfl hlate.ne_nil
  | generationCut hsnap hwhy hv => exact absurd rfl hwhy

/-- **A journal within its capacity accepts every valid state** until its generation numbers run out. -/
theorem store_accepted (h : m.Shows cfg v) (hfit : v.Fits cfg)
    (hnext : ∀ l, v.cur = some l → nextGeneration l.generation ≠ none) (hvalid : st.validate = .ok ()) :
    (m.exec cfg (.store st) []).1 = .ok := by
  obtain ⟨v', h', heff⟩ := exec_effect h (.store st) []
  have hroom : 1 + replaySnapshotSlots ([] : List PersistentReplayCounter).length ≤ cfg.slotsPerSector :=
    slots_pos cfg
  simp only [Op.plan, storePlan, h.newest] at heff
  cases hcur : v.cur with
  | none =>
    rw [hcur] at heff
    exact (generation_faultless hvalid (by simp) hroom heff).1
  | some l =>
    rw [hcur] at heff
    cases hn : nextGeneration l.generation with
    | none => exact absurd hn (hnext l hcur)
    | some g =>
      simp only [hn] at heff
      split at heff
      · obtain ⟨t, ht⟩ := live_isOk h hfit hcur
        have hc := (liveReplay_ok h hcur ht).1
        rw [ht] at heff
        exact (generation_faultless hvalid (fun u hu => Coupled.storable h (hc.mem u hu))
          (snapshot_room h hcur hc) heff).1
      · exact (generation_faultless hvalid (by simp) hroom heff).1

/-- A rejected operation leaves the current record alone and no entry out, or its generation is committed
    before the flash reports an error. -/
theorem effect_err {p : Plan} {e : SecurityStoreError}
    (heff : Effect cfg.toConfig m.flash m.journal v faults n p (.err e) v' f' j') :
    (v'.cur = v.cur ∧ v.entries ⊆ v'.entries) ∨
      ∃ ro g st tag t, p = .generation ro g st tag t ∧ Snapshot cfg.toConfig v ro g t ∧
        Late (n + cfg.accesses m.flash v.cur ro t.length) faults ∧
        v' = v.advance (cfg.stays m.flash v.cur ro t.length) g st tag (durable t) := by
  cases heff with
  | refuse hcache => exact Or.inl ⟨rfl, subset_rfl⟩
  | unread hwhy hcache => exact Or.inl ⟨rfl, subset_rfl⟩
  | appendFull hcur hst hnwk hl hmerge hcache hgen => exact Or.inl ⟨rfl, Set.subset_insert _ _⟩
  | appendErr hwhy hv hcache =>
    rcases hv with rfl | rfl
    · exact Or.inl ⟨rfl, subset_rfl⟩
    · exact Or.inl ⟨rfl, Set.subset_insert _ _⟩
  | generationErr hsnap hwhy hv hcache huse => exact Or.inl ⟨hv.cur, hv.entries.symm.subset⟩
  | generationLate hsnap hlate hcache => exact Or.inr ⟨_, _, _, _, _, rfl, hsnap, hlate, rfl⟩

end

/-! ## Where a snapshot comes from -/

section

variable {cfg : Geometry} {m : Machine} {v : View} {n : Nat}

/-- A commit that answers without a durable change has found its floor. -/
theorem commitPlan_keep {f : Flash} {j : Journal} (hr : r.isNwk = false) (hp : commitPlan cfg.toConfig f j r = .keep) :
    ∃ l t, cfg.newest f = some l ∧ liveReplay cfg.toConfig f j l = .ok t ∧
      ∃ x ∈ t, x.domain = r.domain ∧ r.floor ≤ x.floor := by
  simp only [commitPlan, hr, Bool.false_eq_true, if_false] at hp
  split at hp
  · cases hp
  · rename_i l hl
    split at hp
    · cases hp
    · split at hp
      · cases hp
      · rename_i t ht
        split at hp
        · rename_i hcov
          refine ⟨l, t, hl, ht, ?_⟩
          simp only [covered, Option.any_eq_true, decide_eq_true_eq] at hcov
          obtain ⟨x, hx, hc⟩ := hcov
          have hsame : x.sameDomain r = true := List.find?_some (p := fun y : PersistentReplayCounter => y.sameDomain r) hx
          exact ⟨x, List.mem_of_find?_eq_some hx, (x.sameDomain_iff r).mp hsame, hc⟩
        · split at hp
          · cases hp
          · split at hp <;> cases hp

theorem plan_generation (h : m.Shows cfg v) (hcur : v.cur = some l)
    (hp : op.plan cfg.toConfig m.flash m.journal = .generation rollover g st tag t) :
    (op.resets l = true ∧ t = []) ∨
      ∃ t₀, liveReplay cfg.toConfig m.flash m.journal l = .ok t₀ ∧ SnapshotOf cfg t₀ op rollover t := by
  have hspec := plan_spec h op
  rw [hp, hcur] at hspec
  cases hspec with
  | first hnone htarget => cases hnone
  | reset hl hreset htarget =>
    cases hl
    exact Or.inl ⟨hreset, rfl⟩
  | next hl htarget ht₀ hsnap =>
    cases hl
    exact Or.inr ⟨_, ht₀, hsnap⟩

end

/-! ## Taken over entries -/

/-- The replay entries a new generation takes over from attempts that were never committed: those that
    lie under its number in its own sector. -/
def Op.inherits (cfg : Geometry) (m : Machine) (op : Op) : List PersistentReplayCounter :=
  match cfg.newest m.flash, op.plan cfg.toConfig m.flash m.journal with
  | some l, .generation rollover g _ _ t =>
    if cfg.stays m.flash (some l) rollover t.length then cfg.scanList m.flash l.sector g else []
  | _, _ => []

section

variable {cfg : Geometry} {m : Machine} {v : View} {n : Nat}

/-- What a generation takes over is left over from an attempt at its number. -/
theorem mem_inherits (h : m.Shows cfg v) (hp : op.plan cfg.toConfig m.flash m.journal = .generation rollover g st tag t)
    (hnext : v.Next g) {x : PersistentReplayCounter} :
    x ∈ op.inherits cfg m ↔ cfg.stays m.flash v.cur rollover t.length = true ∧ x ∈ v.leftover := by
  have hnew := h.newest
  obtain ⟨img, hrep, hshow, -⟩ := h
  simp only [Op.inherits, hnew, hp]
  cases hcur : v.cur with
  | none => simp [Config.stays, Config.placement]
  | some l =>
    simp only [View.Next, hcur] at hnext
    rw [hshow.leftover_eq hcur, ← hnext, ← Image.mem_scanList, ← hrep.scanList]
    dsimp only
    cases cfg.stays m.flash (some l) rollover t.length <;> simp

theorem inherits_subset (h : m.Shows cfg v)
    (hp : op.plan cfg.toConfig m.flash m.journal = .generation rollover g st tag t) (hnext : v.Next g)
    {x : PersistentReplayCounter} (hx : x ∈ op.inherits cfg m) : x ∈ v.entries := by
  have hleft := ((mem_inherits h hp hnext).mp hx).2
  obtain ⟨img, -, hshow, -⟩ := h
  exact hshow.leftover_subset hleft

/-- **A new generation has its snapshot and what it takes over.** -/
theorem advance_entries (h : m.Shows cfg v)
    (hp : op.plan cfg.toConfig m.flash m.journal = .generation rollover g st tag t) (hnext : v.Next g) :
    (v.advance (cfg.stays m.flash v.cur rollover t.length) g st tag (durable t)).entries =
      {x | x ∈ op.inherits cfg m} ∪ durable t := by
  ext x
  simp only [View.advance, Set.mem_union, Set.mem_ofPred_eq, mem_inherits h hp hnext]
  cases hcur : v.cur with
  | none => simp [Config.stays, Config.placement]
  | some l =>
    simp only [Option.isSome_some, Bool.true_and]
    split
    · rename_i hstays
      simp [hstays]
    · rename_i hstays
      simp [hstays]

theorem reported_nodup (h : m.Shows cfg v) (ht : m.reported cfg = .ok t) :
    (t.map PersistentReplayCounter.domain).Nodup := by
  rw [reported_eq h] at ht
  cases hcur : v.cur with
  | none =>
    rw [hcur] at ht
    cases ht
    simp
  | some l =>
    rw [hcur] at ht
    exact (liveReplay_ok h hcur ht).1.nodup

end

end Zigbee.Runtime.SecurityJournal
