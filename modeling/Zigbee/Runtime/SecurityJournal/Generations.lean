import Zigbee.Runtime.SecurityJournal.Writers

/-!
# Writing a generation

What `write_generation` and `commit_generation` do to the durable view of a journal, wherever the
generation is placed: in an erased run of the current sector, in the freshly erased other sector, or
in the first sector of a blank journal.

* `View.advance` — the view after a committed generation.  A generation written *in place* takes over
  the leftover entries of an earlier attempt at the same number; one written to the other sector has
  its own snapshot only.
* `Aborted` — the view after an attempt that did not commit its record: the current generation is
  untouched, and the attempt may have added leftovers.
* `writeGeneration_wp` — success advances, and so does a fault behind the commit marker; a failure aborts,
  a power cut does one of the two.
-/

namespace Zigbee.Runtime.SecurityJournal

open Bytes NorFlash Crash Crash.Prog

theorem otherSector_ne (sector : Fin 2) : sector ≠ otherSector sector := by
  revert sector
  decide

/-- The sector a generation goes to. -/
def targetSector (cur : Option LocatedState) (inPlace : Bool) : Fin 2 :=
  match cur with
  | none => 0
  | some l => if inPlace then l.sector else otherSector l.sector

/-- The view after generation `g` with snapshot `S` is committed. -/
def View.advance (v : View) (inPlace : Bool) (g : UInt32) (st : PersistentSecurityState) (tag : UInt16)
    (S : Set PersistentReplayCounter) : View where
  cur := some ⟨g, targetSector v.cur inPlace, st, tag⟩
  entries := if v.cur.isSome && inPlace then v.leftover ∪ S else S
  leftover := ∅

/-- The view after an attempt with snapshot `S` that did not commit.  An attempt that is `whole` leaves
    its snapshot behind. -/
structure Aborted (v : View) (S : Set PersistentReplayCounter) (whole : Prop) (v' : View) : Prop where
  cur : v'.cur = v.cur
  entries : v'.entries = v.entries
  kept : v.leftover ⊆ v'.leftover
  added : v'.leftover ⊆ v.leftover ∪ S
  all : whole → S ⊆ v'.leftover

theorem Aborted.refl (v : View) (S : Set PersistentReplayCounter) {whole : Prop} (h : ¬ whole) :
    Aborted v S whole v :=
  ⟨rfl, rfl, subset_rfl, Set.subset_union_left, fun hw => absurd hw h⟩

/-- The slot of the current sector that the next generation is written to, if it is written there. -/
def Config.placement (cfg : Config) (f : Flash) (cur : Option LocatedState) (rollover : Bool)
    (count : Nat) : Option Nat :=
  match cur with
  | none => none
  | some l => if rollover then none else cfg.findErasedRun f l.sector (1 + replaySnapshotSlots count)

/-- The next generation number of a view. -/
def View.Next (v : View) (g : UInt32) : Prop :=
  match v.cur with
  | none => g = 0
  | some l => g.toNat = l.generation.toNat + 1

theorem nextGeneration_toNat {g g' : UInt32} (h : nextGeneration g = some g') :
    g'.toNat = g.toNat + 1 := by
  unfold nextGeneration at h
  split at h
  · rename_i hlt
    cases h
    rw [UInt32.toNat_add]
    exact Nat.mod_eq_of_lt hlt
  · cases h

variable {cfg : Config} {img : Image} {w : World Flash Journal} {v : View}

theorem findErasedRun_spec (hrep : Rep cfg w.disk img) {sector : Fin 2} {needed start : Nat}
    (h : cfg.findErasedRun w.disk sector needed = some start) (i : Nat) (hi : i < needed) :
    (img sector)[start + i]? = some .erased := by
  unfold Config.findErasedRun at h
  split at h
  · cases h
  · rename_i hn
    have hall := List.find?_some h
    have hstart : start < cfg.slotsPerSector - needed + 1 := by
      simpa using List.mem_of_find?_eq_some h
    rw [List.all_eq_true] at hall
    have hlt : start + i < (img sector).length := by rw [hrep.length]; omega
    have hget := List.getElem?_eq_getElem hlt
    have her := hall i (List.mem_range.mpr hi)
    rw [hrep.readSlot hget, Slot.isErased_render] at her
    rw [hget]
    generalize (img sector)[start + i] = s at her
    cases s with
    | erased => rfl
    | record g st tag c hv => simp [Slot.isErased] at her
    | replay g cells hc => simp [Slot.isErased] at her

/-- Erased slots at the end of a sector are found, and no run beyond them is chosen. -/
theorem findErasedRun_le (hrep : Rep cfg w.disk img) {sector : Fin 2} {needed k : Nat}
    (hpos : 0 < needed) (hclear : img.Clear sector k) (hk : k + needed ≤ cfg.slotsPerSector) :
    ∃ start ≤ k, cfg.findErasedRun w.disk sector needed = some start := by
  have hrun : (List.range needed).all (fun i => isErased (cfg.readSlot w.disk sector (k + i))) = true := by
    rw [List.all_eq_true]
    intro i hi
    have hlt : k + i < (img sector).length := by
      rw [hrep.length]
      have := List.mem_range.mp hi
      omega
    have hget := List.getElem?_eq_getElem hlt
    rw [hrep.readSlot hget, hclear (k + i) _ (by omega) hget, Slot.isErased_render]
    rfl
  unfold Config.findErasedRun
  rw [if_neg (by omega)]
  cases hfind : (List.range (cfg.slotsPerSector - needed + 1)).find? fun start =>
      (List.range needed).all fun i => isErased (cfg.readSlot w.disk sector (start + i)) with
  | none =>
    rw [List.find?_eq_none] at hfind
    exact absurd hrun (hfind k (List.mem_range.mpr (by omega)))
  | some start =>
    refine ⟨start, ?_, rfl⟩
    by_contra hlt
    have := (List.find?_range_eq_some.mp hfind).2.2 k (by omega)
    rw [hrun] at this
    simp at this

theorem wipe_clear (sector : Fin 2) (k : Nat) : (img.wipe sector).Clear sector k := by
  intro i s _ hs
  exact Image.mem_wipe (List.mem_of_getElem? hs)

theorem wipe_get {sector : Fin 2} {i : Nat} (hi : i < (img sector).length) :
    ((img.wipe sector) sector)[i]? = some .erased := by
  simp [Image.wipe, hi]

/-- A generation in a freshly erased sector has its own snapshot only. -/
theorem Shows.activate_wiped {loc : LocatedState} {img₁ img' : Image} {X : Set PersistentReplayCounter}
    (hrec : ∀ r ∈ img.records, r.generation < loc.generation)
    {hi : Nat} (hg : Grow hi loc.sector loc.generation.toNat X (img.wipe loc.sector) img₁)
    (ha : Activate loc img₁ img') : Shows img' ⟨some loc, X, ∅⟩ := by
  have hact := Shows.activate loc (fun r hr => hrec r (Image.mem_records_wipe.mp hr).1)
    (fun n hn => by rw [Image.headers_wipe_self] at hn; exact absurd hn (Set.notMem_empty _)) hg ha
  rwa [Image.entriesAt_wipe_self, Set.empty_union] at hact

/-- A run that writes generation `g` into `sector`, whose slots from `slot` on are free. -/
theorem activate_shows (hshow : Shows img v) {g : UInt32} (hnext : v.Next g)
    {st : PersistentSecurityState} {tag : UInt16} {S : Set PersistentReplayCounter} {inPlace : Bool}
    {img₀ img' : Image} {hi : Nat}
    (hbase : if v.cur.isSome && inPlace then img₀ = img else img₀ = img.wipe (targetSector v.cur inPlace))
    (hc : Completed hi ⟨g, targetSector v.cur inPlace, st, tag⟩ S img₀ img') :
    Shows img' (v.advance inPlace g st tag S) := by
  obtain ⟨img₁, hg, ha⟩ := hc
  cases hshow with
  | blank hrec hhead =>
    simp only [Option.isSome_none, Bool.false_and, Bool.false_eq_true, if_false] at hbase
    subst hbase
    exact Shows.activate_wiped (fun r hr => by rw [hrec] at hr; simp at hr) hg ha
  | located l hmem htop hhead hleft =>
    have hgen : g.toNat = l.generation.toNat + 1 := hnext
    have hlt : l.generation < g := UInt32.lt_iff_toNat_lt.mpr (by omega)
    have hrecs : ∀ r ∈ img.records, r.generation < g := by
      intro r hr
      rcases htop r hr with rfl | h
      · exact hlt
      · exact UInt32.lt_trans h hlt
    cases inPlace with
    | true =>
      simp only [Option.isSome_some, Bool.true_and, if_true] at hbase
      subst hbase
      have hact := Shows.activate (X := S) ⟨g, l.sector, st, tag⟩ hrecs
        (fun n hn => by rw [hgen]; exact hhead n hn) hg ha
      simpa [View.advance, targetSector, hgen] using hact
    | false =>
      simp only [Bool.and_false, Bool.false_eq_true, if_false] at hbase
      subst hbase
      exact Shows.activate_wiped hrecs hg ha

/-- An attempt that stopped before its record was committed. -/
theorem staged_shows (hshow : Shows img v) {g : UInt32} (hnext : v.Next g) {slot : Nat}
    {S : Set PersistentReplayCounter} {inPlace : Bool} {img₀ img' : Image} {hi : Nat}
    (hbase : if v.cur.isSome && inPlace then img₀ = img else img₀ = img.wipe (targetSector v.cur inPlace))
    (hsub : v.cur.isSome → inPlace = true → S ⊆ v.entries) (hnone : v.cur = none → S = ∅)
    (hfree : (img₀ (targetSector v.cur inPlace))[slot]? = some .erased)
    {whole : Prop} (hst : Staged hi (targetSector v.cur inPlace) slot g S whole img₀ img') :
    ∃ v', Shows img' v' ∧ Aborted v S (whole ∧ v.cur.isSome = true ∧ inPlace = true) v' := by
  obtain ⟨⟨X, hX, hall, hg⟩, htorn⟩ := hst
  cases hcur : v.cur with
  | none =>
    obtain rfl := hshow.none_eq hcur
    simp only [Option.isSome_none, Bool.false_and, Bool.false_eq_true, if_false] at hbase
    subst hbase
    have hwipe : Shows (img.wipe 0) ⟨none, ∅, ∅⟩ := hshow.wipe (by simp)
    refine ⟨_, ?_, Aborted.refl _ S (by simp)⟩
    rcases htorn (hnone rfl) with rfl | ⟨st, tag, hv, rfl⟩
    · exact hwipe
    · exact hwipe.torn_first hfree
  | some l =>
    have hgen : g.toNat = l.generation.toNat + 1 := by
      simpa [View.Next, hcur] using hnext
    obtain ⟨cur, E, L⟩ := v
    simp only at hcur
    subst hcur
    cases inPlace with
    | true =>
      simp only [Option.isSome_some, Bool.true_and, if_true] at hbase
      subst hbase
      rw [hgen] at hg
      refine ⟨_, hshow.stage hg (hX.trans (hsub rfl rfl)), rfl, rfl, Set.subset_union_left, ?_, ?_⟩
      · exact Set.union_subset_union_right _ hX
      · rintro ⟨hw, -, -⟩
        rw [hall hw]
        exact Set.subset_union_right
    | false =>
      simp only [Bool.and_false, Bool.false_eq_true, if_false] at hbase
      subst hbase
      have hwipe : Shows (img.wipe (otherSector l.sector)) ⟨some l, E, L⟩ := by
        refine hshow.wipe ?_
        intro l' hl'
        cases hl'
        exact otherSector_ne _
      exact ⟨_, hwipe.elsewhere (otherSector_ne _) hg, Aborted.refl _ S (by simp)⟩

section Write

variable {g : UInt32} {st : PersistentSecurityState} {tag : UInt16} {rollover : Bool}

/-- The snapshot staged in the caches. -/
def staged (w : World Flash Journal) : Set PersistentReplayCounter := durable w.ram.cachedReplay

/-- Whether the generation is written beside the current one. -/
def inPlace (cfg : Config) (w : World Flash Journal) (v : View) (rollover : Bool) : Bool :=
  (cfg.placement w.disk v.cur rollover w.ram.cachedReplay.length).isSome

/-- The staged generation may be written: its snapshot is durable, a blank journal has none, and
    beside the current generation only entries of that generation are written. -/
structure Stageable (cfg : Config) (w : World Flash Journal) (v : View) (rollover : Bool) (g : UInt32) :
    Prop where
  next : v.Next g
  nwk : ∀ x ∈ w.ram.cachedReplay, x.isNwk = false
  first : v.cur = none → w.ram.cachedReplay = []
  sub : inPlace cfg w v rollover = true → staged w ⊆ v.entries

/-- Slots that a generation takes. -/
def needed (w : World Flash Journal) : Nat := 1 + replaySnapshotSlots w.ram.cachedReplay.length

/-- Why a generation can fail. -/
def Failure (cfg : Config) (w : World Flash Journal) (st : PersistentSecurityState) : Prop :=
  Refusal w st ∨ cfg.slotsPerSector < needed w

theorem inPlace_isSome (h : inPlace cfg w v rollover = true) : v.cur.isSome = true := by
  unfold inPlace Config.placement at h
  cases hc : v.cur with
  | none => simp [hc] at h
  | some l => rfl

theorem inPlace_le (h : inPlace cfg w v rollover = true) : needed w ≤ cfg.slotsPerSector := by
  unfold inPlace Config.placement at h
  cases hc : v.cur with
  | none => simp [hc] at h
  | some l =>
    simp only [hc] at h
    by_contra hlt
    cases rollover with
    | true => simp at h
    | false =>
      unfold needed at hlt
      simp only [Bool.false_eq_true, if_false, Config.findErasedRun] at h
      rw [if_pos (Or.inr (by omega))] at h
      simp at h

/-- A generation only uses up the slots it needs: behind the used slots of the current sector when it
    is written there, and at the start of the other one otherwise. -/
def Room (cfg : Config) (w : World Flash Journal) (v : View) (rollover : Bool) (img img' : Image) : Prop :=
  ∀ k, (inPlace cfg w v rollover = true →
      img.Clear (targetSector v.cur true) k ∧ k + needed w ≤ cfg.slotsPerSector) →
    img'.Clear (targetSector v.cur (inPlace cfg w v rollover)) (k + needed w)

/-- The attempt writes its whole snapshot beside the current generation. -/
def Whole (cfg : Config) (w : World Flash Journal) (v : View) (rollover : Bool) : Prop :=
  Undisturbed w ∧ inPlace cfg w v rollover = true

/-- Accesses of the generation before its record: the search for a free run, the erase of another
    sector, and the snapshot. -/
def Config.accesses (cfg : Config) (f : Flash) (cur : Option LocatedState) (rollover : Bool) (count : Nat) :
    Nat :=
  (if cur.isSome && !rollover then 1 else 0) +
    ((if (cfg.placement f cur rollover count).isSome then 0 else 2) + snapshotAccesses count)

/-- Activation in the chosen place, from the image `img₀` with that place free. -/
theorem activate_wp (slot : Nat) (hcfg : ¬ cfg.Rejected) (hshow : Shows img v)
    (hstage : Stageable cfg w v rollover g) {k : Nat} {w₁ : World Flash Journal} {img₀ : Image}
    (hf₁ : Frame k w w₁) (hrep₀ : Rep cfg w₁.disk img₀)
    (hbase : if inPlace cfg w v rollover then img₀ = img
      else img₀ = img.wipe (targetSector v.cur (inPlace cfg w v rollover)))
    (hfree : ∀ i, i < needed w →
      (img₀ (targetSector v.cur (inPlace cfg w v rollover)))[slot + i]? = some .erased)
    (hroom : ∀ k, (inPlace cfg w v rollover = true →
        img.Clear (targetSector v.cur true) k ∧ k + needed w ≤ cfg.slotsPerSector) →
      slot + needed w ≤ k + needed w ∧
        img₀.Clear (targetSector v.cur (inPlace cfg w v rollover)) (k + needed w))
    {P : Post Flash Journal SecurityStoreError Unit}
    (hok : ∀ w' img', st.validate = .ok () → w'.ram = w.ram → Rep cfg w'.disk img' →
      Shows img' (v.advance (inPlace cfg w v rollover) g st tag (staged w)) →
      Room cfg w v rollover img img' → P.ok () w')
    (herr : Refusal w st → ∀ e w' img' v', w'.ram = w.ram → Rep cfg w'.disk img' → Shows img' v' →
      Aborted v (staged w) (Whole cfg w v rollover) v' → Room cfg w v rollover img img' → P.err e w')
    (hlate : Late (k + snapshotAccesses w.ram.cachedReplay.length) w.faults → ∀ w' img',
      st.validate = .ok () → w'.ram = w.ram → Rep cfg w'.disk img' →
      Shows img' (v.advance (inPlace cfg w v rollover) g st tag (staged w)) → P.err .hardware w')
    (hcut : w.faults ≠ [] → ∀ d img' v', Rep cfg d img' → Shows img' v' →
      Aborted v (staged w) (Whole cfg w v rollover) v' ∨ (st.validate = .ok () ∧
        v' = v.advance (inPlace cfg w v rollover) g st tag (staged w)) → P.cut d) :
    wp (activateGeneration cfg (targetSector v.cur (inPlace cfg w v rollover)) slot g st tag) w₁ P := by
  have hbase' : if v.cur.isSome && inPlace cfg w v rollover then img₀ = img
      else img₀ = img.wipe (targetSector v.cur (inPlace cfg w v rollover)) := by
    cases hp : inPlace cfg w v rollover with
    | false => simpa [hp] using hbase
    | true => simpa [hp, inPlace_isSome hp] using hbase
  have hram : w₁.ram.cachedReplay = w.ram.cachedReplay := by rw [hf₁.ram]
  have hnone : v.cur = none → staged w = ∅ := fun h => by
    unfold staged
    rw [hstage.first h, durable_nil]
  have hstaged : ∀ {img'}, Staged (slot + needed w) (targetSector v.cur (inPlace cfg w v rollover))
      slot g (durable w₁.ram.cachedReplay) (Undisturbed w₁) img₀ img' →
      (∃ v', Shows img' v' ∧ Aborted v (staged w) (Whole cfg w v rollover) v') ∧ Room cfg w v rollover img img' := by
    intro img' hst
    rw [hram] at hst
    obtain ⟨v', hshow', hab⟩ := staged_shows hshow hstage.next hbase' (fun _ => hstage.sub) hnone
      (hfree 0 (by unfold needed; omega)) hst
    refine ⟨⟨v', hshow', hab.cur, hab.entries, hab.kept, hab.added, ?_⟩, fun k hk => ?_⟩
    · rintro ⟨hund, hp⟩
      exact hab.all ⟨hf₁.undisturbed hund, inPlace_isSome hp, hp⟩
    · obtain ⟨⟨X, -, -, hg⟩, -⟩ := hst
      exact hg.clear _ _ (hroom k hk).1 (hroom k hk).2
  have hdone : ∀ {img'}, Completed (slot + needed w)
      ⟨g, targetSector v.cur (inPlace cfg w v rollover), st, tag⟩ (durable w₁.ram.cachedReplay) img₀ img' →
      Shows img' (v.advance (inPlace cfg w v rollover) g st tag (staged w)) ∧
        Room cfg w v rollover img img' := by
    intro img' hc
    rw [hram] at hc
    refine ⟨activate_shows hshow hstage.next hbase' hc, fun k hk => ?_⟩
    obtain ⟨img₁, hg, ha⟩ := hc
    exact ha.clear _ _ (hg.clear _ _ (hroom k hk).1 (hroom k hk).2)
  refine activateGeneration_wp hcfg hrep₀ (by rw [hram]; exact hstage.nwk)
    (by rw [hram]; exact hfree) (by rw [hram]) ?_ ?_ ?_ ?_
  · intro w' img' _ hv hf hrep' hc
    exact hok w' img' hv (hf.ram.trans hf₁.ram) hrep' (hdone hc).1 (hdone hc).2
  · intro hwhy e w' img' hram' hrep' hst
    obtain ⟨⟨v', hshow', hab⟩, hr⟩ := hstaged hst
    refine herr ?_ e w' img' v' (hram'.trans hf₁.ram) hrep' hshow' hab hr
    rcases hwhy with h | h | h
    · exact Or.inl (hf₁.faults_ne h)
    · exact Or.inr (Or.inl h)
    · exact Or.inr (Or.inr (by rwa [hram] at h))
  · intro hl w' img' hv hram' hrep' hc
    rw [hram] at hl
    exact hlate (hf₁.late hl) w' img' hv (hram'.trans hf₁.ram) hrep' (hdone hc).1
  · intro hne d img' hrep' hor
    rcases hor with hst | ⟨hv, hc⟩
    · obtain ⟨⟨v', hshow', hab⟩, -⟩ := hstaged hst
      exact hcut (hf₁.faults_ne hne) d img' v' hrep' hshow' (Or.inl hab)
    · exact hcut (hf₁.faults_ne hne) d img' _ hrep' (hdone hc).1 (Or.inr ⟨hv, rfl⟩)

/-- The erase before a generation in the other sector, or in a blank journal. -/
theorem eraseSector_wp (hcfg : ¬ cfg.Rejected) (hrep : Rep cfg w.disk img) {sector : Fin 2}
    {P : Post Flash Journal SecurityStoreError Unit}
    (hok : ∀ w', Frame 2 w w' → Rep cfg w'.disk (img.wipe sector) → P.ok () w')
    (herr : w.faults ≠ [] → ∀ w', w'.ram = w.ram → Rep cfg w'.disk img ∨ Rep cfg w'.disk (img.wipe sector) →
      P.err .hardware w')
    (hcut : w.faults ≠ [] → ∀ d, Rep cfg d img ∨ Rep cfg d (img.wipe sector) → P.cut d) :
    wp (eraseSector cfg sector) w P := by
  unfold eraseSector
  have hnew := hrep.erase hcfg sector
  rw [wp_bind]
  apply wp_command_at
  · intro fs hfs
    have hne : fs ≠ [] → w.faults ≠ [] := ne_nil_of_suffix hfs.suffix
    apply wp_access
    · exact fun fs' hfs' => hok _ ⟨rfl, hfs.trans hfs'⟩ hnew
    · exact fun hs _ => herr (hne hs.ne_nil) _ rfl (Or.inr hnew)
    · exact fun h => hcut (hne h) _ (Or.inr hnew)
  · exact fun hs fs _ => herr hs.ne_nil _ rfl (Or.inl hrep)
  · exact fun hne => ⟨hcut hne _ (Or.inl hrep), hcut hne _ (Or.inr hnew)⟩

theorem writeGeneration_wp (hcfg : ¬ cfg.Rejected) (hrep : Rep cfg w.disk img) (hshow : Shows img v)
    (hstage : Stageable cfg w v rollover g) {P : Post Flash Journal SecurityStoreError (Fin 2)}
    (hok : ∀ w' img', st.validate = .ok () → w'.ram = w.ram → Rep cfg w'.disk img' →
      Shows img' (v.advance (inPlace cfg w v rollover) g st tag (staged w)) →
      Room cfg w v rollover img img' → P.ok (targetSector v.cur (inPlace cfg w v rollover)) w')
    (herr : Failure cfg w st → ∀ e w' img' v', w'.ram = w.ram → Rep cfg w'.disk img' → Shows img' v' →
      Aborted v (staged w) (Whole cfg w v rollover) v' → (w.faults ≠ [] ∨ cfg.slotsPerSector < needed w ∨
        inPlace cfg w v rollover = false ∨ Room cfg w v rollover img img') → P.err e w')
    (hlate : Late (cfg.accesses w.disk v.cur rollover w.ram.cachedReplay.length) w.faults → ∀ w' img',
      st.validate = .ok () → w'.ram = w.ram → Rep cfg w'.disk img' →
      Shows img' (v.advance (inPlace cfg w v rollover) g st tag (staged w)) → P.err .hardware w')
    (hcut : w.faults ≠ [] → ∀ d img' v', Rep cfg d img' → Shows img' v' →
      Aborted v (staged w) (Whole cfg w v rollover) v' ∨ (st.validate = .ok () ∧
        v' = v.advance (inPlace cfg w v rollover) g st tag (staged w)) → P.cut d) :
    wp (writeGeneration cfg (v.cur.map (·.sector)) rollover g st tag) w P := by
  simp only [writeGeneration, wp_bind, wp_getRam]
  by_cases hroom : cfg.slotsPerSector < 1 + replaySnapshotSlots w.ram.cachedReplay.length
  · rw [if_pos hroom, wp_fail]
    refine herr (Or.inr hroom) _ w img v rfl hrep hshow (Aborted.refl _ _ ?_) (Or.inr (Or.inl hroom))
    rintro ⟨-, hp⟩
    exact absurd (inPlace_le hp) (by unfold needed; omega)
  · rw [if_neg hroom]
    have herr' : Refusal w st → ∀ e w' img' v', w'.ram = w.ram → Rep cfg w'.disk img' → Shows img' v' →
        Aborted v (staged w) (Whole cfg w v rollover) v' → Room cfg w v rollover img img' → P.err e w' :=
      fun h e w' img' v' hf hr hs ha hroom => herr (Or.inl h) e w' img' v' hf hr hs ha
        (Or.inr (Or.inr (Or.inr hroom)))
    -- a fault before the first write
    have hnot : w.faults ≠ [] → ¬ Whole cfg w v rollover := fun hne h => hne h.1.1
    -- a generation that starts by erasing its sector
    have herase : ∀ {k : Nat} {w₁ : World Flash Journal}, Frame k w w₁ → w₁.disk = w.disk →
        k = (if v.cur.isSome && !rollover then 1 else 0) → inPlace cfg w v rollover = false →
        (∀ l, v.cur = some l → l.sector ≠ targetSector v.cur false) →
        wp (do
          eraseSector cfg (targetSector v.cur false)
          activateGeneration cfg (targetSector v.cur false) 0 g st tag
          pure (targetSector v.cur false)) w₁ P := by
      intro k w₁ hf₁ hdisk hk hp hne
      have hacc : cfg.accesses w.disk v.cur rollover w.ram.cachedReplay.length =
          k + 2 + snapshotAccesses w.ram.cachedReplay.length := by
        rw [Config.accesses, ← hk, show (cfg.placement w.disk v.cur rollover w.ram.cachedReplay.length).isSome =
          false from hp]
        simp [Nat.add_assoc]
      rw [← hp] at hne ⊢
      have hwipe := hshow.wipe hne
      simp only [wp_bind, wp_pure]
      refine eraseSector_wp hcfg (hdisk ▸ hrep) ?_ ?_ ?_
      · intro w₂ hf₂ hrep₂
        refine activate_wp 0 hcfg hshow hstage (hf₁.trans hf₂) hrep₂ (by rw [hp]; rfl) ?_ ?_ hok herr' ?_ hcut
        · intro i hi
          unfold needed at hi
          rw [Nat.zero_add]
          exact wipe_get (by rw [hrep.length]; omega)
        · exact fun k _ => ⟨by omega, wipe_clear _ _⟩
        · exact fun hl => hlate (hacc ▸ hl)
      · intro hfl w₂ hram hor
        have hne := hf₁.faults_ne hfl
        have hab : Aborted v (staged w) (Whole cfg w v rollover) v := Aborted.refl _ _ (hnot hne)
        rcases hor with hr | hr
        · exact herr (Or.inl (Or.inl hne)) _ w₂ img v (hram.trans hf₁.ram) hr hshow hab (Or.inl hne)
        · exact herr (Or.inl (Or.inl hne)) _ w₂ _ v (hram.trans hf₁.ram) hr hwipe hab (Or.inl hne)
      · rintro hfl d (hd | hd)
        · exact hcut (hf₁.faults_ne hfl) d img v hd hshow (Or.inl (Aborted.refl _ _ (hnot (hf₁.faults_ne hfl))))
        · exact hcut (hf₁.faults_ne hfl) d _ v hd hwipe (Or.inl (Aborted.refl _ _ (hnot (hf₁.faults_ne hfl))))
    cases hcur : v.cur with
    | none =>
      have hp : inPlace cfg w v rollover = false := by simp [inPlace, Config.placement, hcur]
      have := herase (Frame.refl w) rfl (by simp [hcur]) hp (by simp [hcur])
      rw [hcur] at this
      simp only [Option.map_none, wp_bind, wp_pure] at this ⊢
      exact this
    | some l =>
      have hsector : targetSector v.cur true = l.sector := by rw [hcur]; rfl
      -- the other sector, after the search for a free run
      have hother : ∀ {k : Nat} {w₁ : World Flash Journal}, Frame k w w₁ → w₁.disk = w.disk →
          k = (if rollover then 0 else 1) →
          cfg.placement w.disk v.cur rollover w.ram.cachedReplay.length = none →
          wp (do
            eraseSector cfg (otherSector l.sector)
            activateGeneration cfg (otherSector l.sector) 0 g st tag
            pure (otherSector l.sector)) w₁ P := by
        intro k w₁ hf₁ hdisk hk hrun
        have := herase hf₁ hdisk (by cases rollover <;> simp [hk, hcur]) (by simp [inPlace, hrun]) (by
          intro l' hl'
          rw [hcur] at hl' ⊢
          cases hl'
          exact otherSector_ne _)
        rw [hcur] at this
        exact this
      simp only [Option.map_some]
      cases rollover with
      | true => exact hother (Frame.refl w) rfl rfl (by simp [Config.placement, hcur])
      | false =>
        simp only [Bool.false_eq_true, if_false, wp_bind, wp_pure]
        refine readFlash_wp ?_ ?_ ?_
        · intro w₁ hf₁ hdisk
          have hplace : cfg.placement w.disk v.cur false w.ram.cachedReplay.length =
              cfg.findErasedRun w.disk l.sector (1 + replaySnapshotSlots w.ram.cachedReplay.length) := by
            simp [Config.placement, hcur]
          dsimp only
          cases hrun : cfg.findErasedRun w.disk l.sector
              (1 + replaySnapshotSlots w.ram.cachedReplay.length) with
          | none => exact hother hf₁ hdisk rfl (hplace.trans hrun)
          | some slot =>
            have hp : inPlace cfg w v false = true := by simp [inPlace, hplace, hrun]
            have htarget : targetSector v.cur (inPlace cfg w v false) = l.sector := by rw [hp, hsector]
            simp only [wp_bind, wp_pure]
            rw [← htarget]
            refine activate_wp slot hcfg hshow hstage hf₁ (hdisk ▸ hrep) (by rw [hp]; rfl) ?_ ?_
              hok herr' ?_ hcut
            · rw [htarget]
              exact fun i hi => findErasedRun_spec hrep hrun i hi
            · intro k hk
              obtain ⟨hclear, hfit⟩ := hk hp
              rw [hsector] at hclear
              obtain ⟨start, hle, hfind'⟩ := findErasedRun_le hrep (by unfold needed; omega) hclear hfit
              unfold needed at hfind'
              rw [hrun] at hfind'
              cases hfind'
              exact ⟨by omega, by rw [htarget]; exact hclear.mono (by omega)⟩
            · intro hl
              refine hlate ?_
              rw [Config.accesses, hplace, hrun, hcur]
              simpa using hl
        · intro hs w₁ hram hdisk
          exact herr (Or.inl (Or.inl hs.ne_nil)) _ w₁ img v hram (hdisk ▸ hrep) hshow
            (Aborted.refl _ _ (hnot hs.ne_nil)) (Or.inl hs.ne_nil)
        · exact fun hne => hcut hne _ img v hrep hshow (Or.inl (Aborted.refl _ _ (hnot hne)))

end Write

end Zigbee.Runtime.SecurityJournal
