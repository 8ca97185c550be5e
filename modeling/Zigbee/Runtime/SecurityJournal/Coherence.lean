import Zigbee.Runtime.SecurityJournal.Capacity

/-!
# The live journal and the next boot

In every run that neither overfills a generation nor revives a domain, the live journal and the next
boot agree.

* `live_journal_coherent` — a live journal reports what a fresh one would.
* `rejected_operation_survives` — a rejected operation leaves a journal that loads, reports its floors
  and accepts a store.
-/

namespace Zigbee.Runtime.SecurityJournal

open Bytes NorFlash Crash Crash.Prog FloorTable Run PersistentReplayCounter

/-! ## Cache coherence -/

/-- The snapshot of the generation an operation is about to write. -/
def Op.snapshot (cfg : Geometry) (m : Machine) (op : Op) : List PersistentReplayCounter :=
  match op.plan cfg.toConfig m.flash m.journal with
  | .generation _ _ _ _ t => t
  | _ => []

/-- The new generation takes over an entry of a domain that its snapshot does not have. -/
def Revives (cfg : Geometry) (m : Machine) : Event → Prop
  | .op op _ => ∃ y ∈ op.inherits cfg m, ∀ x ∈ op.snapshot cfg m, x.domain ≠ y.domain
  | .reboot => False

/-- The replay cache, if there is one, has the floors of the current generation but for the domains that it
    has no room for. -/
def Coherent (cfg : Geometry) (v : View) (j : Journal) : Prop :=
  ∀ g, j.replayGeneration = some g →
    FloorTable.Covers domain floor cfg.maxReplay v.entries j.cachedReplay

variable {j' : Journal} {t : List PersistentReplayCounter} {g : UInt32} {st : PersistentSecurityState}

section

variable {cfg : Geometry} {m : Machine} {v : View} {n : Nat}

theorem Coherent.dropped {j : Journal} (hj : j.replayGeneration = none) : Coherent cfg v j := by
  intro g hg
  rw [hj] at hg
  cases hg

theorem Coherent.keepsCache {j : Journal} (hco : Coherent cfg v j) (hcache : KeepsCache v j j') :
    Coherent cfg v j' := by
  rcases hcache with hn | hfl | ⟨hrg, hcr⟩
  · exact Coherent.dropped hn
  · exact fun _ _ => hfl.covers
  · intro g hg
    rw [hcr]
    exact hco g (hrg ▸ hg)

theorem Coherent.live (h : m.Shows cfg v) (hco : Coherent cfg v m.journal) {l : LocatedState}
    (hcur : v.cur = some l) (ht : liveReplay cfg.toConfig m.flash m.journal l = .ok t) :
    FloorTable.Covers domain floor cfg.maxReplay v.entries t := by
  rcases (liveReplay_ok h hcur ht).2 with hfl | ⟨hg, rfl⟩
  · exact hfl.covers
  · exact hco _ hg

/-- The snapshot of a generation that revives nothing is its floor table. -/
theorem snapshot_floors (h : m.Shows cfg v) (hco : Coherent cfg v m.journal) {op : Op} {faults : List Fault}
    (hrev : ¬ Revives cfg m (.op op faults)) {rollover : Bool} {tag : UInt16}
    (hsnap : Snapshot cfg.toConfig v rollover g t)
    (hp : op.plan cfg.toConfig m.flash m.journal = .generation rollover g st tag t) :
    Floors ({x | x ∈ op.inherits cfg m} ∪ durable t) t := by
  refine hsnap.floors.union fun y hy => ?_
  -- every entry taken over has its domain in the snapshot
  have hdom : ∃ x ∈ t, x.domain = y.domain := by
    by_contra hno
    push Not at hno
    exact hrev ⟨y, hy, by rw [Op.snapshot, hp]; exact hno⟩
  obtain ⟨x, hx, hd⟩ := hdom
  refine ⟨x, hx, hd, ?_⟩
  have hyv : y ∈ v.entries := inherits_subset h hp hsnap.next hy
  cases hcur : v.cur with
  | none =>
    rw [hsnap.first hcur] at hx
    cases hx
  | some l =>
    rcases plan_generation h hcur hp with ⟨-, rfl⟩ | ⟨t₀, ht₀, hof⟩
    · cases hx
    · have hcov := hco.live h hcur ht₀
      cases hof with
      | kept hop => exact hcov.max hx hyv hd.symm
      | merged hop hr hm => exact (hcov.merge (mergeReplay_eq_ok.mp hm)).max hx (Or.inr hyv) hd.symm
      | filtered hop => exact hcov.max (List.mem_of_mem_filter hx) hyv hd.symm

/-- **Coherence is kept** by every operation that does not revive. -/
theorem effect_coherent (h : m.Shows cfg v) (hco : Coherent cfg v m.journal) {op : Op} {faults : List Fault}
    {s : Status} {v' : View} {f' : Flash} (hrev : ¬ Revives cfg m (.op op faults))
    (heff : Effect cfg.toConfig m.flash m.journal v faults n (op.plan cfg.toConfig m.flash m.journal) s v' f' j') : Coherent cfg v' j' := by
  generalize hp : op.plan cfg.toConfig m.flash m.journal = p at heff
  cases heff with
  | keep hcache => exact hco.keepsCache hcache
  | refuse hcache => exact hco.keepsCache hcache
  | unread hwhy hcache => exact hco.keepsCache hcache
  | lost hwhy => exact Coherent.dropped rfl
  | appendOk hcur hst hnwk hl hmerge hcache hclear =>
    intro g _
    rw [hcache]
    exact (hco.live h hcur hl).merge (mergeReplay_eq_ok.mp hmerge)
  | appendFull hcur hst hnwk hl hmerge hcache hgen =>
    intro g _
    rw [hcache]
    exact (hco.live h hcur hl).refused (mergeReplay_eq_error hmerge).1
  | appendErr hwhy hv hcache => exact Coherent.dropped hcache
  | appendCut hwhy hnwk hv => exact Coherent.dropped rfl
  | generationOk hsnap hvalid hcache huse =>
    intro g _
    rw [hcache, advance_entries h hp hsnap.next]
    exact (snapshot_floors h hco hrev hsnap hp).covers
  | generationErr hsnap hwhy hv hcache huse => exact Coherent.dropped hcache
  | generationLate hsnap hlate hcache => exact Coherent.dropped hcache
  | generationCut hsnap hwhy hv => exact Coherent.dropped rfl

theorem Coherent.live_floors (h : m.Shows cfg v) (hfit : v.Fits cfg) (hco : Coherent cfg v m.journal)
    {l : LocatedState} (hcur : v.cur = some l) (ht : liveReplay cfg.toConfig m.flash m.journal l = .ok t) :
    Floors v.entries t :=
  (hco.live h hcur ht).floors hfit

/-- A coherent machine answers like the next boot. -/
theorem coherent_reported (h : m.Shows cfg v) (hfit : v.Fits cfg) (hco : Coherent cfg v m.journal) :
    ∃ t t', m.reported cfg = .ok t ∧ (fresh m.flash).reported cfg = .ok t' ∧ Floors v.entries t ∧
      Floors v.entries t' := by
  obtain ⟨t', ht'⟩ := (reported_fresh_isOk h).mpr hfit
  have hfl' := (reported_fresh_floors h ht').1
  cases hcur : v.cur with
  | none =>
    obtain ⟨img, -, hshow, -⟩ := id h
    refine ⟨[], t', by rw [reported_eq h, hcur], ht', ?_, hfl'⟩
    rw [hshow.none_eq hcur]
    exact IsFloors.empty
  | some l =>
    obtain ⟨t, ht⟩ := live_isOk h hfit hcur
    exact ⟨t, t', by rw [reported_eq h, hcur]; exact ht, ht', hco.live_floors h hfit hcur ht, hfl'⟩

/-- A run that revives nothing. -/
theorem run_coherent {es : List Event}
    (hsafe : Along (Machine.step cfg) (fun m e => ¬ Revives cfg m e) Machine.init es) :
    ∃ v, (run (Machine.step cfg) Machine.init es).Shows cfg v ∧
      Coherent cfg v (run (Machine.step cfg) Machine.init es).journal := by
  refine run_induct (I := fun m => ∃ v, Machine.Shows cfg m v ∧ Coherent cfg v m.journal) ?_ ?_ hsafe
  · rintro m e ⟨v, h, hco⟩ hrev
    cases e with
    | op op faults =>
      obtain ⟨v', h', heff⟩ := exec_effect h op faults
      exact ⟨v', h', effect_coherent h hco hrev heff⟩
    | reboot => exact ⟨v, h.fresh, Coherent.dropped rfl⟩
  · exact ⟨_, init_shows cfg, Coherent.dropped rfl⟩

end

/-! ## Undisturbed operations -/

/-- A coherent journal whose current sector is erased from slot `k` on. -/
structure Running (cfg : Geometry) (m : Machine) (v : View) (l : LocatedState) (k : Nat) : Prop where
  shows : m.Shows cfg v
  fits : v.Fits cfg
  coherent : Coherent cfg v m.journal
  cur : v.cur = some l
  clear : cfg.Clear m.flash l.sector k

variable {r : PersistentReplayCounter}

section

variable {cfg : Geometry} {m : Machine} {v : View} {l : LocatedState} {k n : Nat}

theorem revives_commit (faults : List Fault)
    (hp : (Op.commit r).plan cfg.toConfig m.flash m.journal = .append r) :
    ¬ Revives cfg m (.op (.commit r) faults) := by
  rintro ⟨y, hy, -⟩
  simp only [Op.inherits, hp] at hy
  split at hy
  · rename_i heq
    cases heq
  · cases hy

/-- A floor of a new domain is appended while there is an erased slot. -/
theorem Running.plan (h : Running cfg m v l k) (hcom : l.state.commissioned = true)
    (hk : k < cfg.slotsPerSector) (hr : r.isNwk = false) (hnew : ∀ y ∈ v.entries, y.domain ≠ r.domain) :
    (Op.commit r).plan cfg.toConfig m.flash m.journal = .append r := by
  obtain ⟨t, ht⟩ := live_isOk h.shows h.fits h.cur
  have hfl := h.coherent.live_floors h.shows h.fits h.cur ht
  have hcov : covered t r = false := by
    rw [Bool.eq_false_iff]
    intro hc
    simp only [covered, Option.any_eq_true] at hc
    obtain ⟨x, hx, -⟩ := hc
    have hsame : x.sameDomain r = true :=
      List.find?_some (p := fun y : PersistentReplayCounter => y.sameDomain r) hx
    exact hnew x (hfl.mem x (List.mem_of_find?_eq_some hx)) ((x.sameDomain_iff r).mp hsame)
  obtain ⟨pos, hpos⟩ := Option.isSome_iff_exists.mp
    (findReplayAppendPosition_isSome h.shows l.generation h.clear hk)
  simp only [Op.plan, commitPlan, hr, Bool.false_eq_true, if_false, h.shows.newest, h.cur, hcom,
    not_true_eq_false, ht, hcov, hpos]

/-- An undisturbed append is durable, whatever becomes of the merge. -/
theorem append_faultless {s : Status} {v' : View} {f' : Flash} (hst : storable r = true)
    (hcur : v.cur = some l) (heff : Effect cfg.toConfig m.flash m.journal v [] n (.append r) s v' f' j') :
    v' = v.insert r ∧ ∃ t, liveReplay cfg.toConfig m.flash m.journal l = .ok t ∧
      ((s = .ok ∧ (∃ t', mergeReplay cfg.maxReplay t r = .ok t') ∧
          ∀ k, cfg.Clear m.flash l.sector k → k < cfg.slotsPerSector → cfg.Clear f' l.sector (k + 1)) ∨
        (∃ e, s = .err e ∧ mergeReplay cfg.maxReplay t r = .error e ∧ j'.cachedReplay = t ∧
          j'.replayGeneration = some l.generation)) := by
  cases heff with
  | appendOk hcur' hst' hnwk hl hmerge hcache hclear =>
    cases hcur.symm.trans hcur'
    exact ⟨rfl, _, hl, Or.inl ⟨rfl, ⟨_, hmerge⟩, hclear⟩⟩
  | appendFull hcur' hst' hnwk hl hmerge hcache hgen =>
    cases hcur.symm.trans hcur'
    exact ⟨rfl, _, hl, Or.inr ⟨_, rfl, hmerge, hcache, hgen⟩⟩
  | appendErr hwhy hv hcache =>
    rcases hwhy with h | h
    · exact absurd rfl h
    · rw [hst] at h
      cases h
  | unread hwhy hcache => exact absurd rfl hwhy
  | lost hwhy => exact absurd rfl hwhy
  | appendCut hwhy hnwk hv => exact absurd rfl hwhy

/-- **An undisturbed commit of a new domain within the capacity.** -/
theorem Running.commit (h : Running cfg m v l k) (hcom : l.state.commissioned = true)
    (hk : k < cfg.slotsPerSector) (hr : r.isNwk = false) (hst : storable r = true)
    (hnew : ∀ y ∈ v.entries, y.domain ≠ r.domain) (hfit : (v.insert r).Fits cfg) :
    (m.exec cfg (.commit r) []).1 = .ok ∧ Running cfg (m.exec cfg (.commit r) []).2 (v.insert r) l (k + 1) := by
  have hp := h.plan hcom hk hr hnew
  obtain ⟨v', h', heff⟩ := exec_effect h.shows (.commit r) []
  obtain ⟨rfl, t, ht, hcase⟩ := append_faultless hst h.cur (hp ▸ heff)
  have hco := effect_coherent h.shows h.coherent (revives_commit [] hp) heff
  rcases hcase with ⟨hs, -, hclear⟩ | ⟨e, -, hm, -⟩
  · exact ⟨hs, h', hfit, hco, h.cur, hclear k h.clear hk⟩
  · obtain ⟨t', ht'⟩ := mergeReplay_isOk (h.coherent.live_floors h.shows h.fits h.cur ht) hfit
    rw [hm] at ht'
    cases ht'

/-- **An undisturbed commit of a new domain beyond the capacity**: it is rejected, but its entry is
    durable, and no boot reports a floor any more. -/
theorem Running.commit_full (h : Running cfg m v l k) (hcom : l.state.commissioned = true)
    (hk : k < cfg.slotsPerSector) (hr : r.isNwk = false) (hst : storable r = true)
    (hnew : ∀ y ∈ v.entries, y.domain ≠ r.domain) (hfull : ¬ (v.insert r).Fits cfg) :
    let m' := (m.exec cfg (.commit r) []).2
    (m.exec cfg (.commit r) []).1 = .err .full ∧ m'.Shows cfg (v.insert r) ∧
      (fresh m'.flash).reported cfg = .error .full ∧ ∃ t, m'.reported cfg = .ok t := by
  intro m'
  have hp := h.plan hcom hk hr hnew
  obtain ⟨v', h', heff⟩ := exec_effect h.shows (.commit r) []
  obtain ⟨rfl, t, ht, hcase⟩ := append_faultless hst h.cur (hp ▸ heff)
  have hcur : (v.insert r).cur = some l := h.cur
  have hfresh : (fresh m'.flash).reported cfg = .error .full := by
    cases hrep : (fresh m'.flash).reported cfg with
    | ok t => exact absurd ((reported_fresh_isOk h').mp ⟨t, hrep⟩) hfull
    | error e =>
      rw [reported_fresh h' hcur] at hrep
      obtain ⟨img, himg, -, -⟩ := h'
      rw [scanReplay_error himg hrep]
  rcases hcase with ⟨-, ⟨t', hm⟩, -⟩ | ⟨e, hs, hm, hc, hg⟩
  · -- a table that took the new domain would have all of them
    exfalso
    have hfl := mergeReplay_floors (h.coherent.live_floors h.shows h.fits h.cur ht) hm
    obtain ⟨-, hlen, -⟩ := mergeReplay_ok (liveReplay_ok h.shows h.cur ht).1 hm
    apply hfull
    unfold View.Fits View.insert
    rw [show domains (Insert.insert r v.entries) = _ from hfl.length_eq.symm]
    exact_mod_cast hlen
  · refine ⟨?_, h', hfresh, t, ?_⟩
    · rw [hs]
      rw [(mergeReplay_eq_error hm).2]
    · rw [reported_eq h', hcur]
      simp only [liveReplay, hg, if_true, hc]

/-- There is room beside the current generation. -/
theorem Running.stays (h : Running cfg m v l k) {n : Nat}
    (hroom : k + (1 + replaySnapshotSlots n) ≤ cfg.slotsPerSector) :
    cfg.stays m.flash v.cur false n = true := by
  obtain ⟨img, hrep, -, -⟩ := h.shows
  obtain ⟨start, -, hfind⟩ := findErasedRun_le (w := ⟨m.flash, m.journal, []⟩) hrep (by omega)
    ((hrep.clear_iff _ _).mp h.clear) hroom
  simp only [Config.stays, Config.placement, h.cur, Bool.false_eq_true, if_false, hfind,
    Option.isSome_some]

/-- **An undisturbed store of an invalid state** of the same network: it is rejected after its snapshot
    was written, and leaves it behind under the next generation number. -/
theorem Running.store_invalid (h : Running cfg m v l k) (hsame : sameNetwork l.state st = true)
    (hinvalid : st.validate ≠ .ok ()) (hnext : nextGeneration l.generation = some g)
    (hroom : ∀ t, Floors v.entries t → k + (1 + replaySnapshotSlots t.length) ≤ cfg.slotsPerSector) :
    ∃ e v' t, (m.exec cfg (.store st) []).1 = .err e ∧ Floors v.entries t ∧ v'.entries = v.entries ∧
      durable t ⊆ v'.leftover ∧
      Running cfg (m.exec cfg (.store st) []).2 v' l (k + (1 + replaySnapshotSlots t.length)) := by
  obtain ⟨t, ht⟩ := live_isOk h.shows h.fits h.cur
  have hfl := h.coherent.live_floors h.shows h.fits h.cur ht
  have hc := (liveReplay_ok h.shows h.cur ht).1
  have hstays := h.stays (hroom t hfl)
  obtain ⟨v', h', heff⟩ := exec_effect h.shows (.store st) []
  simp only [Op.plan, storePlan, h.shows.newest, h.cur, hnext, hsame, if_true, ht] at heff
  generalize hs : (m.exec cfg (.store st) []).1 = s at heff
  generalize hm : (m.exec cfg (.store st) []).2 = m' at heff h'
  obtain ⟨f', j'⟩ := m'
  dsimp only at heff
  cases heff with
  | generationOk hsnap hvalid hcache huse => exact absurd hvalid hinvalid
  | generationErr hsnap hwhy hv hcache huse =>
    have hst : ∀ u ∈ t, storable u = true := fun u hu => Coupled.storable h.shows (hc.mem u hu)
    have huses : cfg.Uses m.flash f' v.cur false t.length := by
      rcases huse with hu | hu | hu | hu
      · exact absurd rfl hu
      · have := hroom t hfl
        omega
      · rw [hstays] at hu
        cases hu
      · exact hu
    refine ⟨_, v', t, rfl, hfl, hv.entries, hv.all ⟨rfl, hst, hstays⟩, h', ?_, Coherent.dropped hcache,
      hv.cur.trans h.cur, ?_⟩
    · unfold View.Fits
      rw [hv.entries]
      exact h.fits
    · have hsector : targetSector v.cur true = l.sector := by rw [h.cur]; rfl
      have := huses k fun _ => ⟨by rw [hsector]; exact h.clear, hroom t hfl⟩
      rw [hstays, hsector] at this
      exact this
  | unread hwhy hcache => exact absurd rfl hwhy
  | lost hwhy => exact absurd rfl hwhy
  | generationLate hsnap hlate hcache => exact absurd rfl hlate.ne_nil
  | generationCut hsnap hwhy hv => exact absurd rfl hwhy

/-- A boot that reports no floors accepts no store for its network. -/
theorem store_refused (h : m.Shows cfg v) (hcur : v.cur = some l)
    (hnext : nextGeneration l.generation = some g) (hsame : sameNetwork l.state st = true)
    {e : SecurityStoreError} (hrep : (fresh m.flash).reported cfg = .error e) :
    ((fresh m.flash).exec cfg (.store st) []).1 = .err e := by
  obtain ⟨v', h', heff⟩ := exec_effect h.fresh (.store st) []
  rw [reported_eq h.fresh, hcur] at hrep
  simp only [Op.plan, storePlan, h.fresh.newest, hcur, hnext, hsame, if_true, hrep] at heff
  exact heff.refused.2 rfl

end

/-! ## Filling a small journal -/

namespace Sample

/-- Two 8 KiB sectors under an end-device build, whose replay cache takes 48 floors. -/
def geometry : Geometry where
  sectors := fun sector => 8192 * sector.val
  sectorSize := 8192
  readSize := 1
  writeSize := 4
  eraseSize := 4096
  capacity := 16384
  features := ⟨false, false⟩
  capacity_lt := by decide
  accepted := by decide

/-- A joined device. -/
def commissionedState : PersistentSecurityState :=
  { PersistentSecurityState.empty with
    commissioned := true
    extendedPanId := Vector.replicate 8 1
    panId := 0x1234
    shortAddress := 0x5678
    ieeeAddress := Vector.replicate 8 2
    channel := 15
    depth := 1
    networkKey := Vector.replicate 16 3
    globalCounterLimit := 0x400
    tclkPresent := true
    trustCenterAddress := Vector.replicate 8 4
    trustCenterLinkKey := Vector.replicate 16 5
    tclkCounterLimit := 0x400 }

/-- One floor for each key fingerprint. -/
def counter (i : Nat) : PersistentReplayCounter :=
  .aps ⟨.preconfiguredGlobal (Vector.replicate 8 6), UInt32.ofNat i, 7⟩

/-- A store, then commits for `n` domains, all undisturbed. -/
def filling (n : Nat) : List Event :=
  .op (.store commissionedState) [] :: (List.range n).map fun i => .op (.commit (counter i)) []

def located : LocatedState := ⟨0, 0, commissionedState, SECURITY_JOURNAL_UNTAGGED⟩

/-- The entries after `filling n`. -/
def entries (n : Nat) : Set PersistentReplayCounter := {x | x ∈ (List.range n).map counter}

theorem filling_succ (n : Nat) : filling (n + 1) = filling n ++ [.op (.commit (counter n)) []] := by
  simp [filling, List.range_succ]

/-- The first commit and the others. -/
theorem filling_split (n : Nat) : filling (n + 1) = filling 0 ++ .op (.commit (counter 0)) [] ::
    ((List.range n).map fun i => counter (i + 1)).map fun r => .op (.commit r) [] := by
  simp [filling, List.range_succ_eq_map, Function.comp_def]

theorem validate_commissionedState : commissionedState.validate = .ok () := by decide

theorem domain_counter (i : Nat) : (counter i).domain = .aps .preconfiguredGlobal (UInt32.ofNat i) := rfl

theorem counter_domain_inj {i j : Nat} (hi : i < 2 ^ 32) (hj : j < 2 ^ 32)
    (h : (counter i).domain = (counter j).domain) : i = j := by
  rw [domain_counter, domain_counter] at h
  have := congrArg UInt32.toNat (ReplayDomain.aps.inj h).2
  rwa [UInt32.toNat_ofNat_of_lt' hi, UInt32.toNat_ofNat_of_lt' hj] at this

theorem entries_succ (n : Nat) : Insert.insert (counter n) (entries n) = entries (n + 1) := by
  ext x
  simp only [entries, List.range_succ, List.map_append, List.map_singleton, List.mem_append,
    List.mem_singleton, Set.mem_insert_iff, Set.mem_ofPred_eq]
  exact or_comm

variable {n : Nat}

theorem domains_entries (hn : n < 2 ^ 32) : domains (entries n) = n := by
  have hnodup : (((List.range n).map counter).map domain).Nodup := by
    rw [List.map_map]
    refine List.Nodup.map_on ?_ List.nodup_range
    intro i hi j hj hij
    exact counter_domain_inj (Nat.lt_trans (List.mem_range.mp hi) hn)
      (Nat.lt_trans (List.mem_range.mp hj) hn) hij
  have hfl : Floors (entries n) ((List.range n).map counter) := IsFloors.self hnodup
  rw [show domains (entries n) = _ from hfl.length_eq.symm]
  simp

theorem counter_new (hn : n < 2 ^ 32) : ∀ y ∈ entries n, y.domain ≠ (counter n).domain := by
  intro y hy hd
  obtain ⟨i, hi, rfl⟩ := List.mem_map.mp hy
  have hlt := List.mem_range.mp hi
  exact absurd (counter_domain_inj (Nat.lt_trans hlt hn) hn hd) (by omega)

/-- The view after `filling n`. -/
def view (n : Nat) : View := ⟨some located, entries n, ∅⟩

theorem view_succ (n : Nat) : (view n).insert (counter n) = view (n + 1) := by
  simp only [View.insert, view, entries_succ]

theorem view_fits (hn : n < 2 ^ 32) : (view n).Fits geometry ↔ n ≤ 48 := by
  unfold View.Fits
  rw [show domains (view n).entries = n from domains_entries hn]
  exact Nat.cast_le

/-- The journal after `filling n`. -/
@[irreducible] def after (n : Nat) : Machine := run (Machine.step geometry) Machine.init (filling n)

theorem run_filling (n : Nat) : run (Machine.step geometry) Machine.init (filling n) = after n := by
  rw [after]

theorem run_filling_append (n : Nat) (es : List Event) :
    run (Machine.step geometry) Machine.init (filling n ++ es) = run (Machine.step geometry) (after n) es := by
  rw [run_append, run_filling]

theorem after_succ (n : Nat) : after (n + 1) = ((after n).exec geometry (.commit (counter n)) []).2 := by
  rw [after, filling_succ, run_filling_append]
  rfl

theorem filled_zero : Running geometry (after 0) (view 0) located 1 := by
  obtain ⟨v', h', heff⟩ := exec_effect (init_shows geometry) (.store commissionedState) []
  have hnew := (init_shows geometry).newest
  have hp : (Op.store commissionedState).plan geometry.toConfig Machine.init.flash Machine.init.journal =
      .generation false 0 commissionedState SECURITY_JOURNAL_UNTAGGED [] := by
    simp only [Op.plan, storePlan, commitTag, hnew]
    rfl
  have hrev : ¬ Revives geometry Machine.init (.op (.store commissionedState) []) := by
    rintro ⟨y, hy, -⟩
    simp [Op.inherits, hnew] at hy
  obtain ⟨-, hv, huse⟩ := generation_faultless (t := []) validate_commissionedState (by simp)
    (slots_pos geometry) (hp ▸ heff)
  have hview : v' = view 0 := by
    rw [hv]
    simp [View.advance, view, located, entries, durable_nil, targetSector]
  subst hview
  have hfit : (view 0).Fits geometry := (view_fits (by omega)).mpr (by omega)
  have hco := effect_coherent (init_shows geometry) (Coherent.dropped rfl) hrev heff
  rw [after, show filling 0 = [.op (.store commissionedState) []] from rfl, Machine.run_op]
  refine ⟨h', hfit, hco, rfl, ?_⟩
  exact huse 0 (by simp [Config.stays, Config.placement])

theorem slots_geometry : geometry.slotsPerSector = 64 := by decide

theorem filled_succ (hn : n < 48) (h : Running geometry (after n) (view n) located (n + 1)) :
    ((after n).exec geometry (.commit (counter n)) []).1 = .ok ∧
      Running geometry (after (n + 1)) (view (n + 1)) located (n + 2) := by
  have hfit : ((view n).insert (counter n)).Fits geometry := by
    rw [view_succ]
    exact (view_fits (by omega)).mpr hn
  have hstep := h.commit rfl (by rw [slots_geometry]; omega) rfl rfl (counter_new (by omega)) hfit
  rwa [view_succ, ← after_succ] at hstep

/-- **Filling up to the capacity.** -/
theorem filled (hn : n ≤ 48) : Running geometry (after n) (view n) located (n + 1) := by
  induction n with
  | zero => exact filled_zero
  | succ n ih => exact (filled_succ hn (ih (by omega))).2

theorem commit_ok (hn : n < 48) : ((after n).exec geometry (.commit (counter n)) []).1 = .ok :=
  (filled_succ hn (filled (Nat.le_of_lt hn))).1

theorem length_of_floors (hn : n < 2 ^ 32) (h : Floors (entries n) t) : t.length = n := by
  have hlen := h.length_eq
  rw [show keyCount _ (entries n) = n from domains_entries hn] at hlen
  exact Nat.cast_inj.mp hlen

/-- Filling up to the capacity neither overfills nor revives. -/
theorem filling_safe (hn : n ≤ 48) :
    Along (Machine.step geometry) (fun m e => ¬ Overfills geometry m e ∧ ¬ Revives geometry m e)
      Machine.init (filling n) := by
  induction n with
  | zero =>
    refine ⟨⟨id, ?_⟩, trivial⟩
    rintro ⟨y, hy, -⟩
    simp [Op.inherits, (init_shows geometry).newest] at hy
  | succ n ih =>
    rw [filling_succ, along_append, run_filling]
    have hrun := filled (n := n) (by omega)
    refine ⟨ih (by omega), ⟨?_, ?_⟩, trivial⟩
    · -- the table still has room for one more domain
      rintro ⟨-, -, l, t, -, -, -, ht, hlen, -⟩
      have hn' := length_of_floors (by omega) (reported_fresh_floors hrun.shows ht).1
      rw [hlen, show geometry.maxReplay = 48 from rfl] at hn'
      omega
    · refine revives_commit [] (hrun.plan rfl ?_ rfl (counter_new (by omega)))
      rw [slots_geometry]
      omega

/-- The commit after the last one that fits. -/
theorem overfilled (hn : n = 48) :
    ((after n).exec geometry (.commit (counter n)) []).1 = .err .full ∧
      (after (n + 1)).Shows geometry (view (n + 1)) ∧
      (fresh (after (n + 1)).flash).reported geometry = .error .full ∧
      ∃ t, (after (n + 1)).reported geometry = .ok t := by
  have hfull : ¬ ((view n).insert (counter n)).Fits geometry := by
    rw [view_succ, view_fits (by omega)]
    omega
  have hstep := (filled (Nat.le_of_eq hn)).commit_full rfl (by rw [slots_geometry]; omega) rfl rfl
    (counter_new (by omega)) hfull
  rwa [view_succ, ← after_succ] at hstep

theorem counter_zero_mem : counter 0 ∈ entries 2 := List.mem_map.mpr ⟨0, by simp, rfl⟩

theorem not_nwk {x : PersistentReplayCounter} (hx : x ∈ entries n) : x.isNwk = false := by
  obtain ⟨i, -, rfl⟩ := List.mem_map.mp hx
  rfl

theorem tombstone_zero (y : PersistentReplayCounter) (hy : y.domain = (counter 0).domain) :
    (!y.matchesTombstone (.replayDomain (counter 0))) = false := by
  simp only [matchesTombstone, (y.sameDomain_iff (counter 0)).mpr hy, Bool.not_true]

theorem room {k : Nat} (hk : k ≤ 50) : ∀ t, Floors (entries 2) t →
    k + (1 + replaySnapshotSlots t.length) ≤ geometry.slotsPerSector := by
  intro t hfl
  rw [length_of_floors (by omega) hfl, slots_geometry]
  simp only [replaySnapshotSlots, REPLAY_ENTRIES_PER_SLOT]
  omega

/-- The joined device on a channel that does not exist. -/
def invalidState : PersistentSecurityState := { commissionedState with channel := 9 }

/-- A rejected store beside a journal of at most 48 floors. -/
theorem store_invalid (hn : n ≤ 48) :
    ∃ e v t, ((after n).exec geometry (.store invalidState) []).1 = .err e ∧ Floors (entries n) t ∧
      v.entries = entries n ∧ durable t ⊆ v.leftover ∧
      Running geometry ((after n).exec geometry (.store invalidState) []).2 v located
        (n + 1 + (1 + replaySnapshotSlots n)) := by
  have hsame : sameNetwork located.state invalidState = true := by decide
  obtain ⟨e, v, t, he, hfl, hE, hL, hrun⟩ := (filled hn).store_invalid (g := 1)
    hsame (by decide) (by decide) fun t hfl => by
      rw [length_of_floors (by omega) hfl, slots_geometry]
      simp only [replaySnapshotSlots, REPLAY_ENTRIES_PER_SLOT]
      omega
  rw [length_of_floors (by omega) hfl] at hrun
  exact ⟨e, v, t, he, hfl, hE, hL, hrun⟩

end Sample

/-! ## Main results -/

/-- The flash fails once the generation of the operation is committed: the command that programs its commit
    marker reports an error, or the read that verifies the record does. -/
def Op.FailsLate (cfg : Geometry) (m : Machine) (op : Op) (faults : List Fault) : Prop :=
  match op.plan cfg.toConfig m.flash m.journal with
  | .generation rollover _ _ _ t =>
    Late (op.lookups cfg.toConfig m.flash m.journal +
      cfg.accesses m.flash (cfg.newest m.flash) rollover t.length) faults
  | _ => False

/-- The generation of the operation leaves out a floor that the next boot would report. -/
def Op.Drops (cfg : Geometry) (m : Machine) (op : Op) : Prop :=
  ∃ t x, (fresh m.flash).reported cfg = .ok t ∧ x ∈ t ∧
    ∀ y ∈ op.snapshot cfg m ++ op.inherits cfg m, y.sameDomain x = true → y.counter < x.counter

section

variable {cfg : Geometry} {m : Machine} {v v' : View} {op : Op} {faults : List Fault} {e : SecurityStoreError}

theorem not_failsLate_nil : ¬ op.FailsLate cfg m [] := by
  unfold Op.FailsLate
  split
  · exact fun hlate => absurd rfl hlate.ne_nil
  · exact id

/-- What a rejected operation leaves: the record it found, or the one it committed before the flash failed. -/
theorem rejected_record (h : m.Shows cfg v) (herr : (m.exec cfg op faults).1 = .err e)
    (heff : Effect cfg.toConfig m.flash m.journal v faults (op.lookups cfg.toConfig m.flash m.journal)
      (op.plan cfg.toConfig m.flash m.journal) (m.exec cfg op faults).1 v' (m.exec cfg op faults).2.flash
      (m.exec cfg op faults).2.journal) :
    (v'.cur = v.cur ∧ v.entries ⊆ v'.entries) ∨
      (op.FailsLate cfg m faults ∧
        ∃ l', v'.cur = some l' ∧ v.Next l'.generation ∧
          op.target m.journal.productTag (v.cur.map fun l => (l.state, l.tag)) = some (l'.state, l'.tag) ∧
          v'.entries = {x | x ∈ op.inherits cfg m} ∪ durable (op.snapshot cfg m) ∧
          ∀ x ∈ op.snapshot cfg m, x.isNwk = false) := by
  rw [herr] at heff
  rcases effect_err heff with hsame | ⟨ro, g, st, tag, t, hp, hsnap, hlate, rfl⟩
  · exact Or.inl hsame
  · have hsnapshot : op.snapshot cfg m = t := by rw [Op.snapshot, hp]
    refine Or.inr ⟨?_, _, rfl, hsnap.next, plan_target h hp, ?_, ?_⟩
    · rw [Op.FailsLate, hp, h.newest]
      exact hlate
    · rw [hsnapshot]
      exact advance_entries h hp hsnap.next
    · rw [hsnapshot]
      exact hsnap.nwk

end

/-- **A rejected operation does not brick the journal.**  In every run that overfills no generation, after an
    operation that returned an error, unless the flash failed behind the commit marker of a generation that
    leaves out floors: the next boot loads the content it would have loaded before, or behind such a failure
    the target of the operation, it reports every floor that was durable, and a store of any valid state is
    accepted, by the next boot and by the live journal, until the generation numbers run out. -/
theorem rejected_operation_survives (cfg : Geometry) (es : List Event) (op : Op) (faults : List Fault)
    (e : SecurityStoreError)
    (hsafe : Along (Machine.step cfg) (fun m e => ¬ Overfills cfg m e) Machine.init (es ++ [.op op faults]))
    (hkeeps : op.FailsLate cfg (run (Machine.step cfg) Machine.init es) faults →
      ¬ op.Drops cfg (run (Machine.step cfg) Machine.init es))
    (herr : ((run (Machine.step cfg) Machine.init es).exec cfg op faults).1 = .err e) :
    let m := run (Machine.step cfg) Machine.init es
    let m' := (m.exec cfg op faults).2
    (∃ c c', (fresh m.flash).content cfg = .ok c ∧ (fresh m'.flash).content cfg = .ok c' ∧
      (c' = c ∨ (op.FailsLate cfg m faults ∧ c' = op.target m.journal.productTag c))) ∧
      (∃ t t', (fresh m.flash).reported cfg = .ok t ∧ (fresh m'.flash).reported cfg = .ok t' ∧
        ∀ x ∈ t, ∃ y ∈ t', y.sameDomain x = true ∧ x.counter ≤ y.counter) ∧
      ((∀ l, cfg.newest m.flash = some l → l.generation.toNat < 2 ^ 32 - 1 ∧
          (op.FailsLate cfg m faults → l.generation.toNat < 2 ^ 32 - 2)) →
        ∀ state : PersistentSecurityState, state.validate = .ok () →
          ((fresh m'.flash).exec cfg (.store state) []).1 = .ok ∧ (m'.exec cfg (.store state) []).1 = .ok) := by
  intro m m'
  obtain ⟨hpre, hop, -⟩ := along_append.mp hsafe
  obtain ⟨v, h, hfit⟩ := run_fits hpre
  obtain ⟨v', h', heff⟩ := exec_effect h op faults
  have hfit' := effect_fits h hfit hop h' heff
  have hrecord := rejected_record h herr heff
  obtain ⟨t, ht⟩ := (reported_fresh_isOk h).mpr hfit
  obtain ⟨t', ht'⟩ := (reported_fresh_isOk h').mpr hfit'
  refine ⟨⟨_, _, content_eq h.fresh, content_eq h'.fresh, ?_⟩, ⟨t, t', ht, ht', fun x hx => ?_⟩, ?_⟩
  · rcases hrecord with ⟨hcur, -⟩ | ⟨hlate, l', hcur, -, htarget, -⟩
    · exact Or.inl (by rw [hcur])
    · exact Or.inr ⟨hlate, by rw [hcur, htarget]; rfl⟩
  · -- an entry of the new generation at least as high
    have hentry : ∃ y ∈ v'.entries, y.domain = x.domain ∧ x.floor ≤ y.floor := by
      rcases hrecord with ⟨-, hsub⟩ | ⟨hlate, l', -, -, -, hentries, hnwk⟩
      · exact ⟨x, hsub ((reported_fresh_floors h ht).1.mem x hx), rfl, Nat.le_refl _⟩
      · by_contra hno
        refine hkeeps hlate ⟨t, x, ht, hx, fun y hy hs => ?_⟩
        by_contra hge
        refine hno ⟨y, ?_, (y.sameDomain_iff x).mp hs, UInt32.not_lt.mp hge⟩
        rw [hentries]
        rcases List.mem_append.mp hy with hy | hy
        · exact Or.inr ⟨hy, hnwk y hy⟩
        · exact Or.inl hy
    obtain ⟨y, hy, hd, hc⟩ := hentry
    obtain ⟨z, hz, hzd, hzc⟩ := (reported_fresh_floors h' ht').1.exists_ge hy
    exact ⟨z, hz, (z.sameDomain_iff x).mpr (hzd.trans hd), le_trans hc hzc⟩
  · intro hgen state hvalid
    have hnext : ∀ l, v'.cur = some l → nextGeneration l.generation ≠ none := by
      intro l hl
      have hlt : l.generation.toNat + 1 < 2 ^ 32 := by
        rcases hrecord with ⟨hcur, -⟩ | ⟨hlate, l', hcur, hnext, -⟩
        · have := (hgen l (h.newest.trans (hcur.symm.trans hl))).1
          omega
        · cases hcur.symm.trans hl
          cases hv : v.cur with
          | none => simp_all [View.Next]
          | some l₀ =>
            simp only [View.Next, hv] at hnext
            have := (hgen l₀ (h.newest.trans hv)).2 hlate
            omega
      rw [nextGeneration, if_pos hlt]
      simp
    exact ⟨store_accepted h'.fresh hfit' hnext hvalid, store_accepted h' hfit' hnext hvalid⟩

/-- A store that is rejected by a journal at its capacity. -/
theorem rejected_store_survives : ∃ e t,
    ((Sample.after 48).exec Sample.geometry (.store Sample.invalidState) []).1 = .err e ∧
    (fresh ((Sample.after 48).exec Sample.geometry (.store Sample.invalidState) []).2.flash).reported
      Sample.geometry = .ok t := by
  obtain ⟨e, v, t, he, -⟩ := Sample.store_invalid (Nat.le_refl 48)
  have hsafe : Along (Machine.step Sample.geometry) (fun m e => ¬ Overfills Sample.geometry m e)
      Machine.init (Sample.filling 48 ++ [.op (.store Sample.invalidState) []]) :=
    along_append.mpr ⟨(Sample.filling_safe (Nat.le_refl 48)).mono fun _ _ h => h.1, id, trivial⟩
  have hall := rejected_operation_survives Sample.geometry (Sample.filling 48) (.store Sample.invalidState) []
    e hsafe not_failsLate_nil.elim
  rw [Sample.run_filling] at hall
  obtain ⟨-, ⟨t, t', -, ht', -⟩, -⟩ := hall he
  exact ⟨e, t', he, ht'⟩

/-- The commit of one more domain than the capacity is rejected and bricks the journal: the next boot
    reports no floor and refuses a store for the same network. -/
theorem rejected_commit_bricks :
    ((Sample.after 48).exec Sample.geometry (.commit (Sample.counter 48)) []).1 = .err .full ∧
      (∃ t, (fresh (Sample.after 48).flash).reported Sample.geometry = .ok t ∧ t.length = 48) ∧
      (fresh (Sample.after 49).flash).reported Sample.geometry = .error .full ∧
      ((fresh (Sample.after 49).flash).exec Sample.geometry (.store Sample.commissionedState) []).1 =
        .err .full := by
  have hover := Sample.overfilled rfl
  rw [show 48 + 1 = 49 from rfl] at hover
  obtain ⟨hs, hshow, hrep, -⟩ := hover
  have hfull := Sample.filled (Nat.le_refl 48)
  obtain ⟨t, ht⟩ := (reported_fresh_isOk hfull.shows).mpr hfull.fits
  have hlen : t.length = 48 :=
    Sample.length_of_floors (by omega) (reported_fresh_floors hfull.shows ht).1
  refine ⟨hs, ⟨t, ht, hlen⟩, hrep, ?_⟩
  exact store_refused hshow (l := Sample.located) rfl (g := 1) (by decide) (by decide) hrep

/-- **Cache coherence.**  After any sequence of operations, successful or not, of which none overfills
    or revives, the live journal reports the state, the product tag and the replay floors that a freshly
    constructed journal over the same flash reports. -/
theorem live_journal_coherent (cfg : Geometry) (es : List Event)
    (hsafe : Along (Machine.step cfg) (fun m e => ¬ Overfills cfg m e ∧ ¬ Revives cfg m e) Machine.init es) :
    let m := run (Machine.step cfg) Machine.init es
    (∃ c, m.content cfg = .ok c ∧ (fresh m.flash).content cfg = .ok c) ∧
      ∃ t t', m.reported cfg = .ok t ∧ (fresh m.flash).reported cfg = .ok t' ∧
        pairs domain floor t =
          pairs domain floor t' := by
  intro m
  obtain ⟨hover, hrev⟩ := along_and.mp hsafe
  obtain ⟨v, h, hco⟩ := run_coherent hrev
  obtain ⟨w, hw, hfitw⟩ := run_fits hover
  have hfit : v.Fits cfg := (reported_fresh_isOk h).mp ((reported_fresh_isOk hw).mpr hfitw)
  obtain ⟨t, t', ht, ht', hfl, hfl'⟩ := coherent_reported h hfit hco
  exact ⟨⟨_, content_eq h, content_eq h.fresh⟩, t, t', ht, ht', hfl.pairs_eq hfl'⟩

/-- A journal filled to its capacity. -/
theorem full_journal_coherent : ∃ t t', (Sample.after 48).reported Sample.geometry = .ok t ∧
    (fresh (Sample.after 48).flash).reported Sample.geometry = .ok t' ∧
    pairs domain floor t =
      pairs domain floor t' := by
  have hall :=
    live_journal_coherent Sample.geometry (Sample.filling 48) (Sample.filling_safe (Nat.le_refl 48))
  rw [Sample.run_filling] at hall
  exact hall.2

/-- One more domain, and the live journal reports floors where the next boot reports an error. -/
theorem overfilled_journal_incoherent :
    (∃ t, (run (Machine.step Sample.geometry) Machine.init (Sample.filling 49)).reported Sample.geometry =
      .ok t) ∧
    (fresh (run (Machine.step Sample.geometry) Machine.init (Sample.filling 49)).flash).reported
      Sample.geometry = .error .full := by
  have hover := Sample.overfilled rfl
  rw [show 48 + 1 = 49 from rfl] at hover
  obtain ⟨-, -, hfresh, hlive⟩ := hover
  rw [Sample.run_filling]
  exact ⟨hlive, hfresh⟩

end Zigbee.Runtime.SecurityJournal
