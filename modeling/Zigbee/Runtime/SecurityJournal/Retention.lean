import Zigbee.Runtime.SecurityJournal.Coherence

/-!
# What happens to replay floors over whole runs

* `replay_floor_kept` — a committed floor is reported by every later boot until it is released, in
  every run that overfills no generation.
* `removed_counter_stays_removed` — in every run that revives no domain, a committed generation reports its
  snapshot, and a removed counter is not reported again until it is committed again.
-/

namespace Zigbee.Runtime.SecurityJournal

open Bytes NorFlash Crash Crash.Prog FloorTable Run Sample PersistentReplayCounter

variable {t : List PersistentReplayCounter} {l : LocatedState} {j' : Journal} {g : UInt32}
   {st : PersistentSecurityState} {tag : UInt16} {op : Op} {faults : List Fault} {s : Status} {f' : Flash}

section

variable {cfg : Geometry} {m : Machine} {v : View} {n : Nat}

/-! ## Committed floors -/

/-- A floor of at least `c` for domain `d`, in the current generation and in the cache. -/
structure Holds (d : ReplayDomain) (c : Nat) (v : View) (j : Journal) : Prop where
  durable : ∃ x ∈ v.entries, x.domain = d ∧ c ≤ x.floor
  cached : ∀ g, j.replayGeneration = some g → ∃ x ∈ j.cachedReplay, x.domain = d ∧ c ≤ x.floor

variable {d : ReplayDomain} {c : Nat}

theorem floors_hold {E : Set PersistentReplayCounter} (hfl : Floors E t) (h : ∃ x ∈ E, x.domain = d ∧ c ≤ x.floor) :
    ∃ x ∈ t, x.domain = d ∧ c ≤ x.floor := by
  obtain ⟨x, hx, hd, hc⟩ := h
  obtain ⟨y, hy, hyd, hyc⟩ := hfl.exists_ge hx
  exact ⟨y, hy, hyd.trans hd, Nat.le_trans hc hyc⟩

theorem Holds.live (h : m.Shows cfg v) (hh : Holds d c v m.journal) (hcur : v.cur = some l)
    (ht : liveReplay cfg.toConfig m.flash m.journal l = .ok t) : ∃ x ∈ t, x.domain = d ∧ c ≤ x.floor := by
  rcases (liveReplay_ok h hcur ht).2 with hfl | ⟨hg, rfl⟩
  · exact floors_hold hfl hh.durable
  · exact hh.cached _ hg

theorem Holds.keepsCache {j : Journal} (hh : Holds d c v j) (hcache : KeepsCache v j j') : Holds d c v j' := by
  refine ⟨hh.durable, fun g hg => ?_⟩
  rcases hcache with hn | hfl | ⟨hrg, hcr⟩
  · rw [hn] at hg
    cases hg
  · exact floors_hold hfl hh.durable
  · rw [hcr]
    exact hh.cached g (hrg ▸ hg)

theorem merge_holds {t' : List PersistentReplayCounter} {r : PersistentReplayCounter} (hc : CacheOk cfg.toConfig v t)
    (hm : mergeReplay cfg.maxReplay t r = .ok t')
    (h : (∃ x ∈ t, x.domain = d ∧ c ≤ x.floor) ∨ (r.domain = d ∧ c ≤ r.floor)) :
    ∃ x ∈ t', x.domain = d ∧ c ≤ x.floor := by
  refine floors_hold (mergeReplay_floors (IsFloors.self hc.nodup) hm) ?_
  rcases h with ⟨x, hx, hd⟩ | hr
  · exact ⟨x, Or.inr hx, hd⟩
  · exact ⟨r, Or.inl rfl, hr⟩

/-- Domain `d` is released: a removal rejects its reported counter, or a store resets the network, and
    it takes effect. -/
def Releases (cfg : Geometry) (d : ReplayDomain) (m : Machine) : Event → Prop
  | .op op faults =>
    cfg.newest (m.exec cfg op faults).2.flash ≠ cfg.newest m.flash ∧
      ((∃ l, cfg.newest m.flash = some l ∧ op.resets l = true) ∨
        ∃ keep t x, op.keeps = some keep ∧ m.reported cfg = .ok t ∧ x ∈ t ∧ x.domain = d ∧
          keep x = false)
  | .reboot => False

/-- A generation has a number of its own. -/
theorem advance_cur_ne (hnext : v.Next g) {inPlace : Bool} {S : Set PersistentReplayCounter} :
    (v.advance inPlace g st tag S).cur ≠ v.cur := by
  intro he
  cases hc : v.cur with
  | none => simp [View.advance, hc] at he
  | some l =>
    simp only [View.Next, hc] at hnext
    simp only [View.advance, hc, Option.some.injEq] at he
    rw [← he] at hnext
    simp at hnext

/-- The snapshot of a generation that is no release of `d` has its floor. -/
theorem snapshot_holds (h : m.Shows cfg v) (hh : Holds d c v m.journal) {rollover : Bool}
    (hp : op.plan cfg.toConfig m.flash m.journal = .generation rollover g st tag t)
    (hrel : ¬ Releases cfg d m (.op op faults)) (hnew : cfg.newest (m.exec cfg op faults).2.flash ≠ v.cur) :
    ∃ x ∈ t, x.domain = d ∧ c ≤ x.floor := by
  obtain ⟨img, -, hshow, -⟩ := id h
  cases hcur : v.cur with
  | none =>
    obtain ⟨x, hx, -⟩ := hh.durable
    rw [hshow.none_eq hcur] at hx
    exact absurd hx (Set.notMem_empty x)
  | some l =>
    rw [← h.newest] at hnew
    rcases plan_generation h hcur hp with ⟨hreset, -⟩ | ⟨t₀, ht₀, hsnap⟩
    · exact absurd ⟨hnew, Or.inl ⟨l, h.newest.trans hcur, hreset⟩⟩ hrel
    · have hlive := hh.live h hcur ht₀
      cases hsnap with
      | kept hop => exact hlive
      | merged hop hr hm => exact merge_holds (liveReplay_ok h hcur ht₀).1 hm (Or.inl hlive)
      | filtered hop =>
        rename_i keep
        obtain ⟨x, hx, hd, hc⟩ := hlive
        refine ⟨x, List.mem_filter.mpr ⟨hx, ?_⟩, hd, hc⟩
        by_contra hk
        refine hrel ⟨hnew, Or.inr ⟨keep, t₀, x, hop, ?_, hx, hd, by simpa using hk⟩⟩
        rw [reported_eq h, hcur]
        exact ht₀

/-- **A committed floor survives every operation that does not release it.** -/
theorem effect_holds (h : m.Shows cfg v) (hh : Holds d c v m.journal) {v' : View}
    (hrel : ¬ Releases cfg d m (.op op faults)) (hflash : cfg.newest (m.exec cfg op faults).2.flash = v'.cur)
    (heff : Effect cfg.toConfig m.flash m.journal v faults n (op.plan cfg.toConfig m.flash m.journal) s v' f' j') :
    Holds d c v' j' := by
  have hins : ∀ r, ∃ x ∈ (v.insert r).entries, x.domain = d ∧ c ≤ x.floor := fun r => by
    obtain ⟨x, hx, hd⟩ := hh.durable
    exact ⟨x, Or.inr hx, hd⟩
  have hpart : ∀ {r} {v' : View}, v' = v ∨ v' = v.insert r → ∃ x ∈ v'.entries, x.domain = d ∧ c ≤ x.floor := by
    rintro r _ (rfl | rfl)
    · exact hh.durable
    · exact hins r
  have hnone : ∀ {j' : Journal}, j'.replayGeneration = none →
      ∀ g, j'.replayGeneration = some g → ∃ x ∈ j'.cachedReplay, x.domain = d ∧ c ≤ x.floor := by
    intro j' hn g hg
    rw [hn] at hg
    cases hg
  -- a committed generation carries the floor in its snapshot
  have hadv : ∀ {ro g st tag t}, op.plan cfg.toConfig m.flash m.journal = .generation ro g st tag t →
      Snapshot cfg.toConfig v ro g t →
      v' = v.advance (cfg.stays m.flash v.cur ro t.length) g st tag (SecurityJournal.durable t) →
      (∃ x ∈ t, x.domain = d ∧ c ≤ x.floor) ∧ ∃ x ∈ v'.entries, x.domain = d ∧ c ≤ x.floor := by
    intro ro g st tag t hp hsnap hv'
    have ht := snapshot_holds h hh hp hrel (by rw [hflash, hv']; exact advance_cur_ne hsnap.next)
    obtain ⟨x, hx, hd⟩ := id ht
    refine ⟨ht, x, ?_, hd⟩
    rw [hv']
    simp only [View.advance]
    split
    · exact Or.inr ⟨hx, hsnap.nwk x hx⟩
    · exact ⟨hx, hsnap.nwk x hx⟩
  generalize hp : op.plan cfg.toConfig m.flash m.journal = p at heff
  cases heff with
  | keep hcache => exact hh.keepsCache hcache
  | refuse hcache => exact hh.keepsCache hcache
  | appendOk hcur hst hnwk hl hmerge hcache hclear =>
    refine ⟨hins _, fun g _ => ?_⟩
    rw [hcache]
    exact merge_holds (liveReplay_ok h hcur hl).1 hmerge (Or.inl (hh.live h hcur hl))
  | appendFull hcur hst hnwk hl hmerge hcache hgen =>
    refine ⟨hins _, fun g _ => ?_⟩
    rw [hcache]
    exact hh.live h hcur hl
  | unread hwhy hcache => exact hh.keepsCache hcache
  | lost hwhy => exact ⟨hh.durable, hnone rfl⟩
  | appendErr hwhy hv hcache => exact ⟨hpart hv, hnone hcache⟩
  | appendCut hwhy hnwk hv => exact ⟨hpart hv, hnone rfl⟩
  | generationLate hsnap hlate hcache => exact ⟨(hadv hp hsnap rfl).2, hnone hcache⟩
  | generationOk hsnap hvalid hcache huse =>
    obtain ⟨ht, he⟩ := hadv hp hsnap rfl
    exact ⟨he, fun g _ => by rw [hcache]; exact ht⟩
  | generationErr hsnap hwhy hv hcache huse =>
    exact ⟨by rw [hv.entries]; exact hh.durable, hnone hcache⟩
  | generationCut hsnap hwhy hv =>
    refine ⟨?_, hnone rfl⟩
    rcases hv with hv | hv
    · rw [hv.entries]
      exact hh.durable
    · exact (hadv hp hsnap hv).2

/-- A committed floor is durable and cached. -/
theorem commit_holds (h : m.Shows cfg v) {r : PersistentReplayCounter} (hr : r.isNwk = false) {v' : View}
    (heff : Effect cfg.toConfig m.flash m.journal v faults n (commitPlan cfg.toConfig m.flash m.journal r)
      .ok v' f' j') : Holds r.domain r.floor v' j' := by
  generalize hp : commitPlan cfg.toConfig m.flash m.journal r = p at heff
  cases heff with
  | keep hcache =>
    obtain ⟨l, t, hl, ht, x, hx, hd, hc⟩ := commitPlan_keep hr hp
    have hcur : v.cur = some l := h.newest.symm.trans hl
    obtain ⟨hok, hsrc⟩ := liveReplay_ok h hcur ht
    refine Holds.keepsCache (j := m.journal) ⟨⟨x, hok.mem x hx, hd, hc⟩, fun g hg => ?_⟩ hcache
    rcases hsrc with hfl | ⟨-, rfl⟩
    · -- the cache already is of this generation, so it is what the journal works with
      obtain ⟨⟨l', hl', rfl⟩, -⟩ := (Coupled.live h).replay g hg
      cases hcur.symm.trans hl'
      rw [liveReplay, if_pos hg] at ht
      cases ht
      exact ⟨x, hx, hd, hc⟩
    · exact ⟨x, hx, hd, hc⟩
  | appendOk hcur hst hnwk hl hmerge hcache hclear =>
    have hop := (plan_append h (show (Op.commit r).plan _ _ _ = _ from hp)).1
    cases hop
    refine ⟨⟨r, Set.mem_insert _ _, rfl, Nat.le_refl _⟩, fun g _ => ?_⟩
    rw [hcache]
    exact merge_holds (liveReplay_ok h hcur hl).1 hmerge (Or.inr ⟨rfl, Nat.le_refl _⟩)
  | generationOk hsnap hvalid hcache huse =>
    rename_i ro g st tag t
    have ht : ∃ x ∈ t, x.domain = r.domain ∧ r.floor ≤ x.floor := by
      cases hcur : v.cur with
      | none => simp [commitPlan, hr, h.newest, hcur] at hp
      | some l =>
        rcases plan_generation h hcur (show (Op.commit r).plan _ _ _ = _ from hp) with ⟨hreset, -⟩ | ⟨t₀, ht₀, hof⟩
        · cases hreset
        · cases hof with
          | kept hop => cases hop
          | merged hop hr hm =>
            cases hop
            exact merge_holds (liveReplay_ok h hcur ht₀).1 hm (Or.inr ⟨rfl, Nat.le_refl _⟩)
          | filtered hop => cases hop
    obtain ⟨x, hx, hd⟩ := id ht
    refine ⟨⟨x, ?_, hd⟩, fun g _ => by rw [hcache]; exact ht⟩
    simp only [View.advance]
    split
    · exact Or.inr ⟨hx, hsnap.nwk x hx⟩
    · exact ⟨hx, hsnap.nwk x hx⟩

theorem step_holds (h : m.Shows cfg v) (hfit : v.Fits cfg) (hh : Holds d c v m.journal) {e : Event}
    (hsafe : ¬ Overfills cfg m e) (hrel : ¬ Releases cfg d m e) :
    ∃ v', (m.step cfg e).Shows cfg v' ∧ v'.Fits cfg ∧ Holds d c v' (m.step cfg e).journal := by
  cases e with
  | op op faults =>
    obtain ⟨v', h', heff⟩ := exec_effect h op faults
    exact ⟨v', h', effect_fits h hfit hsafe h' heff, effect_holds h hh hrel h'.newest heff⟩
  | reboot => exact ⟨v, h.fresh, hfit, hh.durable, fun g hg => by cases hg⟩

end

/-- **Durable floors are kept.**  In every run from erased flash, with faults, power cuts and reboots
    anywhere, that never overfills a generation: once a commit of an APS floor has returned `Ok`, every
    later boot reports a floor at least as high for its domain, until the domain is released. -/
theorem replay_floor_kept (cfg : Geometry) (pre post : List Event) (r : PersistentReplayCounter)
    (faults : List Fault) (hr : r.isNwk = false)
    (hsafe : Along (Machine.step cfg) (fun m e => ¬ Overfills cfg m e) Machine.init
      (pre ++ .op (.commit r) faults :: post))
    (hok : ((run (Machine.step cfg) Machine.init pre).exec cfg (.commit r) faults).1 = .ok)
    (hrel : Along (Machine.step cfg) (fun m e => ¬ Releases cfg r.domain m e)
      (run (Machine.step cfg) Machine.init (pre ++ [.op (.commit r) faults])) post) :
    ∃ t x, (fresh (run (Machine.step cfg) Machine.init (pre ++ .op (.commit r) faults :: post)).flash).reported
      cfg = .ok t ∧ x ∈ t ∧ x.sameDomain r = true ∧ r.counter ≤ x.counter := by
  obtain ⟨hpre, hcommit, hpost⟩ := along_append.mp hsafe
  obtain ⟨v, h, hfit⟩ := run_fits hpre
  obtain ⟨v₁, h₁, heff⟩ := exec_effect h (.commit r) faults
  have hfit₁ := effect_fits h hfit hcommit h₁ heff
  rw [hok] at heff
  have hh₁ := commit_holds h hr heff
  rw [run_append] at hrel
  obtain ⟨v₂, h₂, hfit₂, hh₂⟩ := run_induct
    (I := fun m => ∃ v, Machine.Shows cfg m v ∧ v.Fits cfg ∧ Holds r.domain r.floor v m.journal)
    (fun _ _ ⟨_, h, hfit, hh⟩ ⟨hs, hr⟩ => step_holds h hfit hh hs hr) ⟨v₁, h₁, hfit₁, hh₁⟩
    (along_and.mpr ⟨hpost, hrel⟩)
  rw [run_append, run_cons]
  obtain ⟨t, ht⟩ := (reported_fresh_isOk h₂).mpr hfit₂
  obtain ⟨x, hx, hd, hc⟩ := floors_hold (reported_fresh_floors h₂ ht).1 hh₂.durable
  exact ⟨t, x, ht, hx, (x.sameDomain_iff r).mpr hd, hc⟩

/-- The last floor that fits, after a reboot. -/
theorem last_floor_kept : ∃ t x,
    (fresh (run (Machine.step geometry) Machine.init
      (filling 47 ++ [.op (.commit (counter 47)) [], .reboot])).flash).reported
        geometry = .ok t ∧
      x ∈ t ∧ x.sameDomain (counter 47) = true ∧ (counter 47).counter ≤ x.counter := by
  have hsafe := (filling_safe (Nat.le_refl 48)).mono fun _ _ h => h.1
  rw [show filling 48 = _ from filling_succ 47, along_append] at hsafe
  refine replay_floor_kept geometry (filling 47) [.reboot] (counter 47) [] rfl ?_ ?_
    ⟨id, trivial⟩
  · exact along_append.mpr ⟨hsafe.1, hsafe.2.1, id, trivial⟩
  · rw [run_filling]
    exact commit_ok (by omega)

theorem commits_release_nothing {cfg : Geometry} (d : ReplayDomain) (rs : List PersistentReplayCounter)
    (m : Machine) :
    Along (Machine.step cfg) (fun m e => ¬ Releases cfg d m e) m (rs.map fun r => .op (.commit r) []) := by
  induction rs generalizing m with
  | nil => trivial
  | cons r rs ih =>
    refine ⟨?_, ih _⟩
    rintro ⟨-, ⟨l, -, h⟩ | ⟨keep, t, x, h, -⟩⟩ <;> cases h

/-- Forty-eight more domains, and no boot reports the first floor any more, although nothing released
    it. -/
theorem replay_floor_lost :
    ((run (Machine.step geometry) Machine.init (Sample.filling 0)).exec geometry
      (.commit (Sample.counter 0)) []).1 = .ok ∧
    Along (Machine.step geometry)
      (fun m e => ¬ Releases geometry (Sample.counter 0).domain m e)
      (run (Machine.step geometry) Machine.init
        (Sample.filling 0 ++ [.op (.commit (Sample.counter 0)) []]))
      (((List.range 48).map fun i => Sample.counter (i + 1)).map fun r => .op (.commit r) []) ∧
    (fresh (run (Machine.step geometry) Machine.init
      (Sample.filling 0 ++ .op (.commit (Sample.counter 0)) [] ::
        ((List.range 48).map fun i => Sample.counter (i + 1)).map fun r => .op (.commit r) [])).flash).reported
      geometry = .error .full := by
  refine ⟨?_, commits_release_nothing _ _ _, ?_⟩
  · rw [run_filling]
    exact commit_ok (by omega)
  · have hover := overfilled rfl
    rw [show 48 + 1 = 49 from rfl] at hover
    rw [← filling_split, run_filling]
    exact hover.2.2.1

/-! ## Removed counters -/

/-- A commit for domain `d`. -/
def Event.commits (d : ReplayDomain) : Event → Prop
  | .op (.commit r) _ => r.domain = d
  | _ => False

variable {keep : PersistentReplayCounter → Bool} {t₀ : List PersistentReplayCounter} {x : PersistentReplayCounter}

section

variable {cfg : Geometry} {m : Machine} {v : View} {n : Nat} {d : ReplayDomain}

/-- No entry of the current generation is of domain `d`. -/
def View.Lacks (d : ReplayDomain) (v : View) : Prop := ∀ x ∈ v.entries, x.domain ≠ d

/-- A snapshot has no domain but those of the current generation and of the committed floor. -/
theorem snapshot_lacks (h : m.Shows cfg v) (hlack : v.Lacks d) (hno : ¬ (Event.op op faults).commits d)
    {rollover : Bool} (hsnap : Snapshot cfg.toConfig v rollover g t)
    (hp : op.plan cfg.toConfig m.flash m.journal = .generation rollover g st tag t) : ∀ x ∈ t, x.domain ≠ d := by
  cases hcur : v.cur with
  | none =>
    rw [hsnap.first hcur]
    simp
  | some l =>
    rcases plan_generation h hcur hp with ⟨-, rfl⟩ | ⟨t₀, ht₀, hof⟩
    · simp
    · have hc := (liveReplay_ok h hcur ht₀).1
      cases hof with
      | kept hop => exact fun x hx => hlack x (hc.mem x hx)
      | merged hop hr hm =>
        intro x hx
        rcases (mergeReplay_ok hc hm).2.2 x hx with hx | rfl
        · exact hlack x (hc.mem x hx)
        · subst hop
          exact hno
      | filtered hop => exact fun x hx => hlack x (hc.mem x (List.mem_of_mem_filter hx))

/-- **A domain that is gone stays gone** until it is committed again. -/
theorem effect_lacks (h : m.Shows cfg v) (hlack : v.Lacks d) {v' : View} (hno : ¬ (Event.op op faults).commits d)
    (heff : Effect cfg.toConfig m.flash m.journal v faults n (op.plan cfg.toConfig m.flash m.journal) s v' f' j') :
    v'.Lacks d := by
  rcases heff.view with ⟨-, hentries⟩ | ⟨r, hp, rfl⟩ | ⟨ro, g, st, tag, t, hp, hsnap, rfl⟩
  · unfold View.Lacks
    rw [hentries]
    exact hlack
  · rintro x (rfl | hx)
    · obtain ⟨rfl, -⟩ := plan_append h hp
      exact hno
    · exact hlack x hx
  · intro x hx
    rw [advance_entries h hp hsnap.next] at hx
    rcases hx with hx | hx
    · exact hlack x (inherits_subset h hp hsnap.next hx)
    · exact snapshot_lacks h hlack hno hsnap hp x hx.1

theorem run_lacks (h : m.Shows cfg v) (hlack : v.Lacks d) {es : List Event}
    (hno : Along (Machine.step cfg) (fun _ e => ¬ e.commits d) m es) :
    ∃ v', (run (Machine.step cfg) m es).Shows cfg v' ∧ v'.Lacks d := by
  refine run_induct (I := fun m => ∃ v, Machine.Shows cfg m v ∧ v.Lacks d) ?_ ⟨v, h, hlack⟩ hno
  rintro m e ⟨v, h, hlack⟩ hno
  cases e with
  | op op faults =>
    obtain ⟨v', h', heff⟩ := exec_effect h op faults
    exact ⟨v', h', effect_lacks h hlack hno heff⟩
  | reboot => exact ⟨v, h.fresh, hlack⟩

/-- A removal that rejects a reported counter writes the kept ones. -/
theorem removal_plan (h : m.Shows cfg v) (hcur : v.cur = some l) (hop : op.keeps = some keep)
    (ht : m.reported cfg = .ok t₀) (hx : x ∈ t₀) (hk : keep x = false) :
    op.plan cfg.toConfig m.flash m.journal =
      match nextGeneration l.generation with
      | none => .refuse .generationExhausted
      | some g => .generation false g l.state (commitTag cfg.toConfig m.flash m.journal) (t₀.filter keep) := by
  have hplan : op.plan cfg.toConfig m.flash m.journal = compactPlan cfg.toConfig m.flash m.journal keep := by
    cases op <;> cases hop <;> rfl
  have hne : (t₀.filter keep).length ≠ t₀.length := by
    intro he
    have := List.length_filter_eq_length_iff.mp he x hx
    simp [hk] at this
  rw [reported_eq h, hcur] at ht
  rw [hplan]
  unfold compactPlan
  cases hgeneration : nextGeneration l.generation with
  | none => simp only [h.newest, hcur, ht, if_neg hne, hgeneration]
  | some g => simp only [h.newest, hcur, ht, if_neg hne, hgeneration]

theorem removal_located (h : m.Shows cfg v) (ht : m.reported cfg = .ok t₀) (hx : x ∈ t₀) : ∃ l, v.cur = some l := by
  cases hcur : v.cur with
  | none =>
    rw [reported_eq h, hcur] at ht
    cases ht
    cases hx
  | some l => exact ⟨l, rfl⟩

/-- What a removal that returned `Ok` wrote. -/
theorem removal_ok (h : m.Shows cfg v) (hop : op.keeps = some keep) (ht : m.reported cfg = .ok t₀) (hx : x ∈ t₀)
    (hk : keep x = false) {v' : View}
    (heff : Effect cfg.toConfig m.flash m.journal v faults n (op.plan cfg.toConfig m.flash m.journal)
      .ok v' f' j') :
    op.snapshot cfg m = t₀.filter keep ∧ v'.cur ≠ v.cur ∧
      v'.entries = {x | x ∈ op.inherits cfg m} ∪ durable (t₀.filter keep) := by
  obtain ⟨l, hcur⟩ := removal_located h ht hx
  have hp := removal_plan h hcur hop ht hx hk
  generalize hq : op.plan cfg.toConfig m.flash m.journal = p at heff
  cases hn : nextGeneration l.generation with
  | none =>
    rw [hq, hn] at hp
    subst hp
    exact absurd rfl heff.refused.1
  | some g =>
    rw [hq, hn] at hp
    subst hp
    cases heff with
    | generationOk hsnap hvalid hcache huse =>
      exact ⟨by rw [Op.snapshot, hq], advance_cur_ne hsnap.next, advance_entries h hq hsnap.next⟩

/-- **An undisturbed removal succeeds**, and the next boot reports what its generation took over. -/
theorem Running.remove {k : Nat} (h : Running cfg m v l k) (hvalid : l.state.validate = .ok ())
    (hnext : nextGeneration l.generation = some g) (hop : op.keeps = some keep) (hx : x ∈ v.entries)
    (hk : ∀ y, y.domain = x.domain → keep y = false)
    (hroom : ∀ t, Floors v.entries t → k + (1 + replaySnapshotSlots t.length) ≤ cfg.slotsPerSector) :
    ∃ t₀ y, m.reported cfg = .ok t₀ ∧ y ∈ t₀ ∧ y.domain = x.domain ∧ (m.exec cfg op []).1 = .ok ∧
      (∀ z, z ∈ op.inherits cfg m ↔ z ∈ v.leftover) ∧
      ∀ z ∈ v.leftover, ∃ t y, (fresh (m.exec cfg op []).2.flash).reported cfg = .ok t ∧ y ∈ t ∧
        y.sameDomain z = true := by
  obtain ⟨t₀, -, ht, -, hfl, -⟩ := coherent_reported h.shows h.fits h.coherent
  obtain ⟨y, hy, hd, -⟩ := hfl.exists_ge hx
  have hp := removal_plan h.shows h.cur hop ht hy (hk y hd)
  rw [hnext] at hp
  -- the kept counters need no more room than all of them
  have hlen : replaySnapshotSlots (t₀.filter keep).length ≤ replaySnapshotSlots t₀.length :=
    Nat.div_le_div_right (Nat.add_le_add_right (List.length_filter_le _ _) _)
  have hroom' : k + (1 + replaySnapshotSlots (t₀.filter keep).length) ≤ cfg.slotsPerSector :=
    Nat.le_trans (by omega) (hroom t₀ hfl)
  obtain ⟨v', h', heff⟩ := exec_effect h.shows op []
  have hst : ∀ u ∈ t₀.filter keep, storable u = true := fun u hu =>
    Coupled.storable h.shows (hfl.mem u (List.mem_of_mem_filter hu))
  obtain ⟨hs, -⟩ := generation_faultless hvalid hst (by omega) (hp ▸ heff)
  have hnext' : v.Next g := by
    simp only [View.Next, h.cur]
    exact nextGeneration_toNat hnext
  have hinh : ∀ z, z ∈ op.inherits cfg m ↔ z ∈ v.leftover := by
    intro z
    rw [mem_inherits h.shows hp hnext', h.stays hroom']
    simp
  refine ⟨t₀, y, ht, hy, hd, hs, hinh, fun z hz => ?_⟩
  have hsafe : ¬ Overfills cfg m (.op op []) := by
    cases op <;> cases hop <;> exact id
  obtain ⟨t, htr⟩ := (reported_fresh_isOk h').mpr (effect_fits h.shows h.fits hsafe h' heff)
  rw [hs] at heff
  obtain ⟨-, -, hentries⟩ := removal_ok h.shows hop ht hy (hk y hd) heff
  have hz' : z ∈ v'.entries := by
    rw [hentries]
    exact Or.inl ((hinh z).mpr hz)
  obtain ⟨w, hw, hwd, -⟩ := (reported_fresh_floors h' htr).1.exists_ge hz'
  exact ⟨t, w, htr, hw, (w.sameDomain_iff z).mpr hwd⟩

/-- The next boot reports the snapshot of a generation that revives nothing. -/
theorem committed_floors (h : m.Shows cfg v) (hco : Coherent cfg v m.journal)
    (hrev : ¬ Revives cfg m (.op op faults)) {v' : View}
    (heff : Effect cfg.toConfig m.flash m.journal v faults n (op.plan cfg.toConfig m.flash m.journal) s v' f' j')
    (hnew : v'.cur ≠ v.cur) : Floors v'.entries (op.snapshot cfg m) ∧ v'.Fits cfg := by
  rcases heff.view with ⟨hcur, -⟩ | ⟨r, -, rfl⟩ | ⟨ro, g, st, tag, t, hp, hsnap, rfl⟩
  · exact absurd hcur hnew
  · exact absurd rfl hnew
  · have hfl : Floors _ t := snapshot_floors h hco hrev hsnap hp
    rw [← advance_entries h hp hsnap.next] at hfl
    rw [Op.snapshot, hp]
    refine ⟨hfl, ?_⟩
    rw [View.Fits, show domains _ = _ from hfl.length_eq.symm]
    exact_mod_cast hsnap.length

end

/-- **Removed counters stay removed, and nothing left over comes back.**  In every run from erased flash,
    with faults, power cuts and reboots anywhere, of which no operation writes a generation over left over
    entries of a domain that its snapshot does not have: the next boot after a generation was committed
    reports exactly its snapshot; and once `tombstone_replay_counters` or `retain_replay_counters` has
    returned `Ok`, the next boot reports exactly the kept counters, and no later boot reports a removed
    domain until a commit for it. -/
theorem removed_counter_stays_removed (cfg : Geometry) (pre : List Event) (op : Op) (faults : List Fault)
    (hsafe : Along (Machine.step cfg) (fun m e => ¬ Revives cfg m e) Machine.init (pre ++ [.op op faults])) :
    let m := run (Machine.step cfg) Machine.init pre
    let m' := (m.exec cfg op faults).2
    (cfg.newest m'.flash ≠ cfg.newest m.flash →
      ∃ t, (fresh m'.flash).reported cfg = .ok t ∧
        pairs domain floor t =
          pairs domain floor (op.snapshot cfg m)) ∧
    ∀ keep t₀ x, op.keeps = some keep → m.reported cfg = .ok t₀ → x ∈ t₀ → keep x = false →
      (m.exec cfg op faults).1 = .ok →
        (∃ t, (fresh m'.flash).reported cfg = .ok t ∧
          pairs domain floor t =
            pairs domain floor (t₀.filter keep)) ∧
        ∀ post, Along (Machine.step cfg) (fun _ e => ¬ e.commits x.domain) m' post →
          ∀ t, (fresh (run (Machine.step cfg) m' post).flash).reported cfg = .ok t →
            ∀ y ∈ t, y.sameDomain x = false := by
  intro m m'
  obtain ⟨hpre, hrev, -⟩ := along_append.mp hsafe
  obtain ⟨v, h, hco⟩ := run_coherent hpre
  obtain ⟨v', h', heff⟩ := exec_effect h op faults
  -- what a committed generation leaves, and what the next boot says of it
  have hcommitted : v'.cur ≠ v.cur → Floors v'.entries (op.snapshot cfg m) ∧
      ∃ t, (fresh m'.flash).reported cfg = .ok t ∧
        pairs domain floor t =
          pairs domain floor (op.snapshot cfg m) := by
    intro hnew
    obtain ⟨hfl, hfit⟩ := committed_floors h hco hrev heff hnew
    obtain ⟨t, ht⟩ := (reported_fresh_isOk h').mpr hfit
    exact ⟨hfl, t, ht, (reported_fresh_floors h' ht).1.pairs_eq hfl⟩
  refine ⟨fun hnew => ?_, fun keep t₀ x hop ht₀ hx hk hok => ?_⟩
  · rw [h'.newest, h.newest] at hnew
    exact (hcommitted hnew).2
  · rw [hok] at heff
    obtain ⟨hsnap, hnew, -⟩ := removal_ok h hop ht₀ hx hk heff
    obtain ⟨hfl, hreport⟩ := hcommitted hnew
    rw [hsnap] at hfl hreport
    refine ⟨hreport, fun post hno t ht y hy => ?_⟩
    have hlack : v'.Lacks x.domain := by
      intro z hz hd
      obtain ⟨w, hw, hwd⟩ := hfl.cover z hz
      -- the kept counters have no second counter of the domain
      obtain ⟨hw₀, hkw⟩ := List.mem_filter.mp hw
      rw [List.inj_on_of_nodup_map (reported_nodup h ht₀) hw₀ hx (hwd.trans hd), hk] at hkw
      cases hkw
    obtain ⟨v₂, h₂, hlack₂⟩ := run_lacks h' hlack hno
    rw [Bool.eq_false_iff]
    exact fun hs => hlack₂ y ((reported_fresh_floors h₂ ht).1.mem y hy) ((y.sameDomain_iff x).mp hs)

/-- The removal of one of two counters. -/
theorem removed_counter_gone : ∃ t₀ x t, x.sameDomain (counter 0) = true ∧ x ∈ t₀ ∧
    (after 2).reported geometry = .ok t₀ ∧
    (fresh ((after 2).exec geometry (.tombstone (.replayDomain (counter 0))) []).2.flash).reported
      geometry = .ok t ∧ ∀ y ∈ t, y.sameDomain x = false := by
  obtain ⟨t₀, x, ht, hx, hd, hok, hinh, -⟩ :=
    (filled (show 2 ≤ 48 by omega)).remove validate_commissionedState (g := 1) (by decide)
      (show (Op.tombstone (.replayDomain (counter 0))).keeps = some _ from rfl) counter_zero_mem
      tombstone_zero (room (by omega))
  have hsafe : Along (Machine.step geometry) (fun m e => ¬ Revives geometry m e) Machine.init
      (filling 2 ++ [.op (.tombstone (.replayDomain (counter 0))) []]) := by
    rw [along_append, run_filling]
    refine ⟨(filling_safe (show 2 ≤ 48 by omega)).mono fun _ _ h => h.2, ?_, trivial⟩
    rintro ⟨y, hy, -⟩
    exact absurd ((hinh y).mp hy) (Set.notMem_empty y)
  have hall := removed_counter_stays_removed geometry (filling 2)
    (.tombstone (.replayDomain (counter 0))) [] hsafe
  rw [run_filling] at hall
  obtain ⟨⟨t, htr, -⟩, hgone⟩ := hall.2 _ t₀ x rfl ht hx (tombstone_zero x hd) hok
  exact ⟨t₀, x, t, (x.sameDomain_iff (counter 0)).mpr hd, hx, ht, htr, hgone [] trivial t htr⟩

/-- The counter that a removal removed is reported again by the next boot: the rejected store before it
    left the old snapshot behind, under the number that the removal then used. -/
theorem removed_counter_resurrected : ∃ t₀ x t y,
    (run (Machine.step geometry) Machine.init
      (filling 2 ++ [.op (.store invalidState) []])).reported geometry = .ok t₀ ∧
    x ∈ t₀ ∧ x.matchesTombstone (.replayDomain (counter 0)) = true ∧
    ((run (Machine.step geometry) Machine.init
      (filling 2 ++ [.op (.store invalidState) []])).exec geometry
        (.tombstone (.replayDomain (counter 0))) []).1 = .ok ∧
    (fresh (run (Machine.step geometry) Machine.init (filling 2 ++
      [.op (.store invalidState) [], .op (.tombstone (.replayDomain (counter 0))) []])).flash).reported
        geometry = .ok t ∧ y ∈ t ∧ y.sameDomain x = true := by
  obtain ⟨e, v, t₁, -, hfl, hE, hL, hrun⟩ := store_invalid (show 2 ≤ 48 by omega)
  have hzero : counter 0 ∈ v.entries := by
    rw [hE]
    exact counter_zero_mem
  obtain ⟨t₀, x, ht, hx, hd, hok, -, hagain⟩ := hrun.remove validate_commissionedState (g := 1)
    (by decide) (show (Op.tombstone (.replayDomain (counter 0))).keeps = some _ from rfl) hzero
    tombstone_zero (fun t ht => by
      rw [hE] at ht
      exact room (by decide) t ht)
  -- the snapshot the rejected store left has the removed domain
  obtain ⟨z, hz, hzd, -⟩ := hfl.exists_ge (hE ▸ hzero)
  obtain ⟨t, y, htr, hy, hyz⟩ := hagain z (hL ⟨hz, not_nwk (hfl.mem z hz)⟩)
  have hyx : y.domain = x.domain := by
    rw [(y.sameDomain_iff z).mp hyz, hzd, hd]
  refine ⟨t₀, x, t, y, ?_⟩
  rw [run_filling_append, run_filling_append, Machine.run_op, Machine.run_ops]
  exact ⟨ht, hx, by simpa using tombstone_zero x hd, hok, htr, hy, (y.sameDomain_iff x).mpr hyx⟩

end Zigbee.Runtime.SecurityJournal
