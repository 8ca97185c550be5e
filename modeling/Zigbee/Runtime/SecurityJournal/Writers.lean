import Zigbee.Runtime.SecurityJournal.View

/-!
# What the journal writers do to an image

One rule per writer of `Journal.lean`, in weakest-precondition form: from an image the writer may
start in, the images after it has returned, after it has failed and after a power cut.

The rules are stated through `Grow` and `Activate`, so that the caller never sees slots: a writer of
replay entries adds entries of one generation (`writeReplaySnapshot_wp`), and the record writer that
runs last activates the generation in one command (`activateGeneration_wp`).
-/

namespace Zigbee.Runtime.SecurityJournal

open Bytes NorFlash Crash Crash.Prog Image

/-- The run left the caches alone and made `k` accesses. -/
structure Frame (k : Nat) (w w' : World Flash Journal) : Prop where
  ram : w'.ram = w.ram
  passes : Passes k w.faults w'.faults

theorem Frame.refl (w : World Flash Journal) : Frame 0 w w := ⟨rfl, .refl _⟩

variable {k l : Nat}

theorem Frame.trans {a b c : World Flash Journal} (h : Frame k a b) (h' : Frame l b c) : Frame (k + l) a c :=
  ⟨h'.ram.trans h.ram, h.passes.trans h'.passes⟩

theorem Frame.faults_ne {w w' : World Flash Journal} (h : Frame k w w') (hf : w'.faults ≠ []) : w.faults ≠ [] :=
  ne_nil_of_suffix h.passes.suffix hf

theorem Image.set_get {img : Image} {sector : Fin 2} {i : Nat} {s t : Slot}
    (hs : (img sector)[i]? = some s) : ((img.set sector i t) sector)[i]? = some t := by
  have hi := (List.getElem?_eq_some_iff.mp hs).1
  simp [Image.set, hi]

theorem Image.set_get_of_ne {img : Image} {sector : Fin 2} {i j : Nat} {s' : Slot} (h : i ≠ j) :
    ((img.set sector i s') sector)[j]? = (img sector)[j]? := by
  simp [Image.set, h]

theorem Image.set_set (img : Image) (sector : Fin 2) (i : Nat) (s s' : Slot) :
    (img.set sector i s).set sector i s' = img.set sector i s' := by
  simp [Image.set]

variable {cfg : Config} {img : Image} {w : World Flash Journal} {sector : Fin 2} {slot : Nat}

/-- A program inside a slot. -/
theorem write_wp (hcfg : ¬ cfg.Rejected) (hrep : Rep cfg w.disk img) {off : Nat} {s s' : Slot}
    {data : Buf} (hs : (img sector)[slot]? = some s) (hoff : off + data.length ≤ 128)
    (hov : overlay s.render off data = s'.render) {P : Post Flash Journal SecurityStoreError Unit}
    (hok : ∀ w', Frame 2 w w' → Rep cfg w'.disk (img.set sector slot s') → P.ok () w')
    (herr : w.faults ≠ [] → ∀ w', w'.ram = w.ram → Rep cfg w'.disk img → P.err .hardware w')
    (hlate : Strikes 1 w.faults → ∀ w', w'.ram = w.ram → Rep cfg w'.disk (img.set sector slot s') →
      P.err .hardware w')
    (hcut : w.faults ≠ [] → ∀ d, Rep cfg d img ∨ Rep cfg d (img.set sector slot s') → P.cut d) :
    wp (write (cfg.slotAddress sector slot + off) data) w P := by
  have hnew := hrep.write hcfg hs hoff hov
  unfold write
  rw [wp_bind]
  apply wp_command_at
  · intro fs hfs
    apply wp_access
    · exact fun fs' hfs' => hok _ ⟨rfl, hfs.trans hfs'⟩ hnew
    · exact fun hs _ => hlate (hfs.strikes hs) _ rfl hnew
    · exact fun hne => hcut (ne_nil_of_suffix hfs.suffix hne) _ (Or.inr hnew)
  · exact fun hs fs _ => herr hs.ne_nil _ rfl hrep
  · exact fun hne => ⟨hcut hne _ (Or.inl hrep), hcut hne _ (Or.inr hnew)⟩

/-- A read, and what follows on the contents. -/
theorem readFlash_wp {P : Post Flash Journal SecurityStoreError Flash}
    (hok : ∀ w', Frame 1 w w' → w'.disk = w.disk → P.ok w.disk w')
    (herr : Strikes 0 w.faults → ∀ w', w'.ram = w.ram → w'.disk = w.disk → P.err .hardware w')
    (hcut : w.faults ≠ [] → P.cut w.disk) : wp readFlash w P := by
  unfold readFlash
  rw [wp_bind]
  apply wp_access
  · exact fun fs hfs => hok _ ⟨rfl, hfs⟩ rfl
  · exact fun hs fs => herr hs _ rfl rfl
  · exact hcut

/-! ## Replay slots -/

variable {hi : Nat} {g : UInt32}

theorem Grow.header (hs : (img sector)[slot]? = some .erased) (hhi : slot < hi) :
    Grow hi sector g.toNat ∅ img (img.set sector slot (.replay g [] (by simp))) :=
  Grow.set hs hhi rfl (Or.inr rfl) (Or.inr rfl) (by simp [Slot.entries]) (by simp) (fun _ => rfl)

variable {cells : List Cell}

/-- Adding a cell behind readable ones. -/
theorem Grow.cell {h : cells.length ≤ 4} {c : Cell} (hs : (img sector)[slot]? = some (.replay g cells h))
    (hhi : slot < hi) (hgood : cells.all Cell.good) (hfits : (cells ++ [c]).length ≤ 4) :
    Grow hi sector g.toNat {x | x = c.replay ∧ c.good ∧ x.isNwk = false} img
      (img.set sector slot (.replay g (cells ++ [c]) hfits)) := by
  have htake : cells.takeWhile Cell.good = cells :=
    List.takeWhile_eq_self_iff.mpr (List.all_eq_true.mp hgood)
  have hentries : Slot.entries (.replay g (cells ++ [c]) hfits) =
      Slot.entries (.replay g cells h) ++ if c.good then [c.replay] else [] := by
    simp only [Slot.entries, List.takeWhile_append_of_pos (List.all_eq_true.mp hgood), htake,
      List.map_append]
    cases hc : c.good <;> simp [List.takeWhile, hc]
  refine Grow.set hs hhi rfl (Or.inl rfl) (Or.inr rfl) ?_ ?_ ?_
  · intro x hn _
    rw [hentries, List.mem_append]
    cases hc : c.good <;> simp [hn]
  · rintro x ⟨-, -, hn⟩
    exact ⟨hn, rfl⟩
  · intro h
    simp [Slot.header] at h

theorem writeReplayHeader_wp (hi : Nat) (hcfg : ¬ cfg.Rejected) (hrep : Rep cfg w.disk img)
    (hs : (img sector)[slot]? = some .erased) (hhi : slot < hi) {P : Post Flash Journal SecurityStoreError Unit}
    (hok : ∀ w', Frame 3 w w' → Rep cfg w'.disk (img.set sector slot (.replay g [] (by simp))) → P.ok () w')
    (herr : w.faults ≠ [] → ∀ w' img', w'.ram = w.ram → Rep cfg w'.disk img' →
      Grow hi sector g.toNat ∅ img img' → P.err .hardware w')
    (hcut : w.faults ≠ [] → ∀ d img', Rep cfg d img' → Grow hi sector g.toNat ∅ img img' → P.cut d) :
    wp (writeReplayHeader cfg sector slot g) w P := by
  have hgrow := Grow.header (g := g) hs hhi
  simp only [writeReplayHeader, wp_bind]
  refine write_wp hcfg hrep hs (by simp) (Slot.render_header g) ?_ ?_ ?_ ?_
  · intro w₁ hf₁ hrep₁
    have hread := hrep₁.readSlot (set_get hs)
    apply readFlash_wp
    · intro w₂ hf₂ hdisk
      simp only [hread, Slot.header_render, Slot.header, if_true, wp_pure]
      exact hok w₂ (hf₁.trans hf₂) (hdisk ▸ hrep₁)
    · exact fun hs₁ w₂ hram hdisk =>
        herr (hf₁.faults_ne hs₁.ne_nil) w₂ _ (hram.trans hf₁.ram) (hdisk ▸ hrep₁) hgrow
    · exact fun hne => hcut (hf₁.faults_ne hne) _ _ hrep₁ hgrow
  · exact fun hne w' hram hrep' => herr hne w' img hram hrep' (Grow.refl _ _ _ _)
  · exact fun hs₁ w' hram hrep' => herr hs₁.ne_nil w' _ hram hrep' hgrow
  · rintro hne d (hd | hd)
    · exact hcut hne d img hd (Grow.refl _ _ _ _)
    · exact hcut hne d _ hd hgrow

theorem writeReplayEntry_wp (hi : Nat) (hcfg : ¬ cfg.Rejected) (hrep : Rep cfg w.disk img) {h : cells.length ≤ 4}
    {index : Nat} {r : PersistentReplayCounter} (hs : (img sector)[slot]? = some (.replay g cells h))
    (hhi : slot < hi) (hgood : cells.all Cell.good) (hindex : cells.length = index) (hfree : index < 4)
    {P : Post Flash Journal SecurityStoreError Unit} (hok : ∀ w' hfits, storable r = true → Frame 5 w w' →
      Rep cfg w'.disk (img.set sector slot (.replay g (cells ++ [⟨r, true⟩]) hfits)) → P.ok () w')
    (herr : w.faults ≠ [] ∨ storable r = false → ∀ w' img' X, w'.ram = w.ram → Rep cfg w'.disk img' →
      Grow hi sector g.toNat X img img' → X ⊆ {x | x = r} → P.err .hardware w')
    (hcut : w.faults ≠ [] → ∀ d img' X, Rep cfg d img' → Grow hi sector g.toNat X img img' →
      X ⊆ {x | x = r} → P.cut d) : wp (writeReplayEntry cfg sector slot index r) w P := by
  subst hindex
  have hfits : ∀ c : Cell, (cells ++ [c]).length ≤ 4 := fun c => by simpa using hfree
  have hempty : {x : PersistentReplayCounter | x = r ∧ false = true ∧ x.isNwk = false} = ∅ := by simp
  have htorn : Grow hi sector g.toNat ∅ img
      (img.set sector slot (.replay g (cells ++ [⟨r, false⟩]) (hfits _))) := by
    have := Grow.cell (c := ⟨r, false⟩) hs hhi hgood (hfits _)
    rwa [show Cell.good ⟨r, false⟩ = false from rfl, hempty] at this
  have hdone : Grow hi sector g.toNat {x | x = r ∧ storable r = true ∧ x.isNwk = false} img
      (img.set sector slot (.replay g (cells ++ [⟨r, true⟩]) (hfits _))) := by
    have := Grow.cell (c := ⟨r, true⟩) hs hhi hgood (hfits _)
    rwa [show Cell.good ⟨r, true⟩ = storable r by simp [Cell.good]] at this
  simp only [writeReplayEntry, wp_bind]
  refine write_wp hcfg hrep hs (by simp; omega)
    (Slot.render_entry r hfree) ?_ ?_ ?_ ?_
  · intro w₁ hf₁ hrep₁
    have hs₁ := set_get (t := .replay g (cells ++ [⟨r, false⟩]) (hfits _)) hs
    rw [show cfg.slotAddress sector slot + (REPLAY_HEADER_LEN + cells.length * REPLAY_ENTRY_LEN) +
      REPLAY_ENTRY_COMMIT_OFFSET = cfg.slotAddress sector slot + (16 + cells.length * 28 + 24) from rfl]
    have herr₁ : w₁.faults ≠ [] ∨ storable r = false → ∀ w', w'.ram = w₁.ram →
        Rep cfg w'.disk (img.set sector slot (.replay g (cells ++ [⟨r, true⟩]) (hfits _))) →
        P.err .hardware w' := fun hwhy w' hram hrep' =>
      herr (hwhy.imp_left hf₁.faults_ne) w' _ _ (hram.trans hf₁.ram) hrep' hdone fun x hx => hx.1
    refine write_wp hcfg hrep₁ hs₁ (by simp; omega) Slot.render_entry_commit ?_ ?_ ?_ ?_
    · intro w₂ hf₂ hrep₂
      rw [set_set] at hrep₂
      have hread := hrep₂.readSlot (set_get hs)
      have hentry : replayEntryAt (Slot.render (.replay g (cells ++ [⟨r, true⟩]) (hfits _))) cells.length
          = Cell.bytes ⟨r, true⟩ := by
        rw [Slot.replayEntryAt_render hfree, dif_pos (by simp)]
        simp
      apply readFlash_wp
      · intro w₃ hf₃ hdisk
        simp only [hread, hentry, Cell.decodeReplayEntry_bytes, Cell.good, Bool.true_and]
        cases hst : storable r with
        | true =>
          simp only [if_true, r.eq_refl, wp_pure]
          exact hok w₃ (hfits _) hst (hf₁.trans (hf₂.trans hf₃)) (hdisk ▸ hrep₂)
        | false =>
          simp only [Bool.false_eq_true, if_false, wp_fail]
          exact herr₁ (Or.inr hst) w₃ (hf₂.trans hf₃).ram (hdisk ▸ hrep₂)
      · exact fun hs₂ w₃ hram hdisk =>
          herr₁ (Or.inl (hf₂.faults_ne hs₂.ne_nil)) w₃ (hram.trans hf₂.ram) (hdisk ▸ hrep₂)
      · exact fun hne =>
          hcut (hf₁.faults_ne (hf₂.faults_ne hne)) _ _ _ hrep₂ hdone fun x hx => hx.1
    · intro hne w₂ hram hrep₂
      exact herr (Or.inl (hf₁.faults_ne hne)) w₂ _ _ (hram.trans hf₁.ram) hrep₂ htorn (Set.empty_subset _)
    · exact fun hs₂ w₂ hram hrep₂ => herr₁ (Or.inl hs₂.ne_nil) w₂ hram (by rwa [set_set] at hrep₂)
    · rintro hne d (hd | hd)
      · exact hcut (hf₁.faults_ne hne) d _ ∅ hd htorn (Set.empty_subset _)
      · rw [set_set] at hd
        exact hcut (hf₁.faults_ne hne) d _ _ hd hdone fun x hx => hx.1
  · exact fun hne w' hram hrep' => herr (Or.inl hne) w' img ∅ hram hrep' (Grow.refl _ _ _ _) (Set.empty_subset _)
  · exact fun hs₁ w' hram hrep' => herr (Or.inl hs₁.ne_nil) w' _ ∅ hram hrep' htorn (Set.empty_subset _)
  · rintro hne d (hd | hd)
    · exact hcut hne d img ∅ hd (Grow.refl _ _ _ _) (Set.empty_subset _)
    · exact hcut hne d _ ∅ hd htorn (Set.empty_subset _)

/-! ## Snapshots -/

/-- The run from `first` on is ready for `remaining` more entries: the slot of entry `position` is
    partly filled or still erased, the later ones are erased. -/
structure SnapReady (img : Image) (sector : Fin 2) (first : Nat) (g : UInt32) (position remaining : Nat) :
    Prop where
  filling : position % 4 ≠ 0 → ∃ cells h, (img sector)[first + position / 4]? = some (.replay g cells h) ∧
    cells.all Cell.good ∧ cells.length = position % 4
  free : ∀ i, (position + 3) / 4 ≤ i → i < (position + remaining + 3) / 4 →
    (img sector)[first + i]? = some .erased

/-- The durable part of a list of counters. -/
def durable (l : List PersistentReplayCounter) : Set PersistentReplayCounter :=
  {x | x ∈ l ∧ x.isNwk = false}

theorem durable_cons (u : PersistentReplayCounter) (l : List PersistentReplayCounter) :
    durable (u :: l) = {x | x = u ∧ x.isNwk = false} ∪ durable l := by
  ext x
  simp only [durable, List.mem_cons, Set.mem_union, Set.mem_ofPred_eq]
  tauto

theorem durable_nil : durable [] = ∅ := by simp [durable]

/-- Filling entry `position`, whose slot already has its header. -/
theorem SnapReady.next {first position remaining : Nat} {h : cells.length ≤ 4} {u : PersistentReplayCounter}
    (hfree : ∀ i, position / 4 < i → i < (position + (remaining + 1) + 3) / 4 →
      (img sector)[first + i]? = some .erased)
    (hs : (img sector)[first + position / 4]? = some (.replay g cells h)) (hgood : cells.all Cell.good)
    (hlen : cells.length = position % 4) (hst : storable u = true)
    (hfits : (cells ++ [(⟨u, true⟩ : Cell)]).length ≤ 4) :
    SnapReady (img.set sector (first + position / 4) (.replay g (cells ++ [⟨u, true⟩]) hfits))
      sector first g (position + 1) remaining := by
  refine ⟨fun hne => ?_, fun i hi hi' => ?_⟩
  · refine ⟨cells ++ [⟨u, true⟩], hfits, ?_, ?_, ?_⟩
    · rw [show (position + 1) / 4 = position / 4 by omega]
      exact set_get hs
    · simpa [List.all_append, Cell.good, hst] using hgood
    · simp only [List.length_append, List.length_singleton]
      omega
  · rw [set_get_of_ne (by omega)]
    exact hfree i (by omega) (by omega)

theorem writeReplaySnapshot_wp (hi : Nat) (hcfg : ¬ cfg.Rejected) {first : Nat}
    {updates : List PersistentReplayCounter} {P : Post Flash Journal SecurityStoreError Unit} :
    ∀ {position : Nat} {w : World Flash Journal} {img : Image}, Rep cfg w.disk img →
    first + (position + updates.length + 3) / 4 ≤ hi →
    SnapReady img sector first g position updates.length →
    (∀ w' img', (∀ u ∈ updates, storable u = true) →
      Frame (5 * updates.length + 3 * ((position + updates.length + 3) / 4 - (position + 3) / 4)) w w' →
      Rep cfg w'.disk img' → Grow hi sector g.toNat (durable updates) img img' →
      (∀ i < first, (img' sector)[i]? = (img sector)[i]?) → P.ok () w') →
    (w.faults ≠ [] ∨ (∃ u ∈ updates, storable u = false) → ∀ w' img' X, w'.ram = w.ram →
      Rep cfg w'.disk img' → Grow hi sector g.toNat X img img' → X ⊆ {x | x ∈ updates} →
      P.err .hardware w') →
    (w.faults ≠ [] → ∀ d img' X, Rep cfg d img' → Grow hi sector g.toNat X img img' →
      X ⊆ {x | x ∈ updates} → P.cut d) →
    wp (writeReplaySnapshot cfg sector first g updates position) w P := by
  -- induction on the entries still to write
  induction updates with
  | nil =>
    intro position w img hrep hhi hready hok herr hcut
    simp only [writeReplaySnapshot, wp_pure]
    refine hok w img (by simp) (by simpa using Frame.refl w) hrep ?_ (fun _ _ => rfl)
    rw [durable_nil]
    exact Grow.refl _ _ _ _
  | cons u updates ih =>
    intro position w img hrep hhi hready hok herr hcut
    have hfree := hready.free
    simp only [List.length_cons] at hfree hhi
    -- the entry itself, and the rest of the run, from a slot that has its header
    have hentry : ∀ (k : Nat) (w₁ : World Flash Journal) (img₁ : Image) (cells : List Cell) (h : cells.length ≤ 4),
        Frame k w w₁ → k + 3 * ((position + updates.length + 1 + 3) / 4 - (position + 1 + 3) / 4) =
          3 * ((position + (updates.length + 1) + 3) / 4 - (position + 3) / 4) →
        Rep cfg w₁.disk img₁ → Grow hi sector g.toNat ∅ img img₁ →
        (∀ i < first, (img₁ sector)[i]? = (img sector)[i]?) →
        (∀ i, position / 4 < i → i < (position + (updates.length + 1) + 3) / 4 →
          (img₁ sector)[first + i]? = some .erased) →
        (img₁ sector)[first + position / 4]? = some (.replay g cells h) → cells.all Cell.good →
        cells.length = position % 4 →
        wp (do
          writeReplayEntry cfg sector (first + position / 4) (position % 4) u
          writeReplaySnapshot cfg sector first g updates (position + 1)) w₁ P := by
      intro k w₁ img₁ cells h hf₁ hk hrep₁ hg₁ hlow hfree₁ hs₁ hgood hlen
      simp only [wp_bind]
      refine writeReplayEntry_wp hi hcfg hrep₁ hs₁ (by omega) hgood hlen (Nat.mod_lt _ (by omega)) ?_ ?_ ?_
      · intro w₂ hfits hst hf₂ hrep₂
        have hf := hf₁.trans hf₂
        have hg₂ : Grow hi sector g.toNat {x | x = u ∧ x.isNwk = false} img
            (img₁.set sector (first + position / 4) (.replay g (cells ++ [⟨u, true⟩]) hfits)) := by
          have hc := hg₁.trans (Grow.cell (c := ⟨u, true⟩) hs₁ (by omega) hgood hfits)
          rw [Set.empty_union] at hc
          simpa [Cell.good, hst] using hc
        have hsub : ∀ {X : Set PersistentReplayCounter}, X ⊆ {x | x ∈ updates} →
            {x | x = u ∧ x.isNwk = false} ∪ X ⊆ {x | x ∈ u :: updates} := by
          rintro X hX x (hx | hx)
          · simp [hx.1]
          · exact List.mem_cons_of_mem _ (hX hx)
        refine ih hrep₂ (by omega) (SnapReady.next hfree₁ hs₁ hgood hlen hst hfits) ?_ ?_ ?_
        · intro w₃ img₃ hall hf₃ hrep₃ hg₃ hlow₃
          refine hok w₃ img₃ ?_ ?_ hrep₃ ?_ ?_
          · intro x hx
            rcases List.mem_cons.mp hx with rfl | hx
            · exact hst
            · exact hall x hx
          · have hf' := hf.trans hf₃
            rwa [show k + 5 + (5 * updates.length + _) = 5 * (updates.length + 1) + 3 *
              ((position + (updates.length + 1) + 3) / 4 - (position + 3) / 4) by omega] at hf'
          · rw [durable_cons]
            exact hg₂.trans hg₃
          · intro i hi
            rw [hlow₃ i hi, set_get_of_ne (by omega)]
            exact hlow i hi
        · intro hwhy w₃ img₃ X hram hrep₃ hg₃ hX
          refine herr ?_ w₃ img₃ _ (hram.trans hf.ram) hrep₃ (hg₂.trans hg₃) (hsub hX)
          rcases hwhy with hne | ⟨x, hx, hbad⟩
          · exact Or.inl (hf.faults_ne hne)
          · exact Or.inr ⟨x, by simp [hx], hbad⟩
        · exact fun hne d img₃ X hd hg₃ hX =>
            hcut (hf.faults_ne hne) d img₃ _ hd (hg₂.trans hg₃) (hsub hX)
      · intro hwhy w₂ img₂ X hram hrep₂ hg₂ hX
        refine herr ?_ w₂ img₂ X (hram.trans hf₁.ram) hrep₂ (by simpa using hg₁.trans hg₂) ?_
        · rcases hwhy with hne | hbad
          · exact Or.inl (hf₁.faults_ne hne)
          · exact Or.inr ⟨u, by simp, hbad⟩
        · exact fun x hx => by simp [show x = u from hX hx]
      · intro hne d img₂ X hd hg₂ hX
        refine hcut (hf₁.faults_ne hne) d img₂ X hd (by simpa using hg₁.trans hg₂) ?_
        exact fun x hx => by simp [show x = u from hX hx]
    simp only [writeReplaySnapshot]
    by_cases hpos : position % 4 = 0
    · rw [if_pos (show position % REPLAY_ENTRIES_PER_SLOT = 0 from hpos), wp_bind]
      have hs := hfree (position / 4) (by omega) (by omega)
      refine writeReplayHeader_wp hi hcfg hrep hs (by omega) ?_ ?_ ?_
      · intro w₁ hf₁ hrep₁
        refine hentry 3 w₁ _ [] (by simp) hf₁ (by omega) hrep₁ (Grow.header hs (by omega)) ?_ ?_
          (set_get hs) rfl (by simpa using hpos.symm)
        · exact fun i hi => set_get_of_ne (by omega)
        · intro i hi hi'
          rw [set_get_of_ne (by omega)]
          exact hfree i (by omega) hi'
      · exact fun hne w₁ img₁ hram hrep₁ hg =>
          herr (Or.inl hne) w₁ img₁ ∅ hram hrep₁ hg (Set.empty_subset _)
      · intro hne d img' hd hg
        exact hcut hne d img' ∅ hd hg (Set.empty_subset _)
    · rw [if_neg (show position % REPLAY_ENTRIES_PER_SLOT ≠ 0 from hpos)]
      obtain ⟨cells, h, hs, hgood, hlen⟩ := hready.filling hpos
      exact hentry 0 w img cells h (Frame.refl w) (by omega) hrep (Grow.refl _ _ _ _) (fun _ _ => rfl)
        (fun i hi hi' => hfree i (by omega) hi') hs hgood hlen

/-! ## Records and generations -/

/-- The images a record writer leaves without its marker. -/
def Unmarked (sector : Fin 2) (slot : Nat) (g : UInt32) (img img' : Image) : Prop :=
  img' = img ∨ ∃ st tag hv, img' = img.set sector slot (.record g st tag false hv)

/-- What an attempt at generation `g` leaves when its record was not committed: a part of its snapshot,
    all of it when the attempt is `whole`.  Without a snapshot that is at most a record slot without its
    marker. -/
structure Staged (hi : Nat) (sector : Fin 2) (slot : Nat) (g : UInt32) (S : Set PersistentReplayCounter)
    (whole : Prop) (img img' : Image) : Prop where
  grow : ∃ X ⊆ S, (whole → X = S) ∧ Grow hi sector g.toNat X img img'
  torn : S = ∅ → Unmarked sector slot g img img'

/-- The snapshot is written and the record committed. -/
def Completed (hi : Nat) (loc : LocatedState) (S : Set PersistentReplayCounter) (img img' : Image) : Prop :=
  ∃ img₁, Grow hi loc.sector loc.generation.toNat S img img₁ ∧ Activate loc img₁ img'

variable {st : PersistentSecurityState} {tag : UInt16}

theorem Grow.torn {hv : st.validate = .ok ()} (hs : (img sector)[slot]? = some .erased) (hhi : slot < hi) :
    Grow hi sector g.toNat ∅ img (img.set sector slot (.record g st tag false hv)) :=
  Grow.set hs hhi rfl (Or.inl rfl) (Or.inl rfl) (by simp [Slot.header]) (by simp) (fun _ => rfl)

theorem Unmarked.grow {img' : Image} (hs : (img sector)[slot]? = some .erased) (hhi : slot < hi)
    (h : Unmarked sector slot g img img') : Grow hi sector g.toNat ∅ img img' := by
  rcases h with rfl | ⟨st, tag, hv, rfl⟩
  · exact Grow.refl _ _ _ _
  · exact Grow.torn hs hhi

/-- The flash reports an error once the commit marker of a record is programmed: of the program itself,
    or of the read that verifies the record.  The record starts at access `k`. -/
def Late (k : Nat) (faults : List Fault) : Prop := Strikes (k + 3) faults ∨ Strikes (k + 4) faults

theorem late_of_passes {a b : List Fault} (h : Passes k a b) (hl : Late l b) : Late (k + l) a :=
  hl.imp h.strikes h.strikes

theorem Frame.late {w w' : World Flash Journal} (h : Frame k w w') (hl : Late l w'.faults) : Late (k + l) w.faults :=
  late_of_passes h.passes hl

theorem Late.ne_nil {faults : List Fault} (h : Late k faults) : faults ≠ [] :=
  h.elim Strikes.ne_nil Strikes.ne_nil

theorem writeRecord_wp (hi : Nat) (hcfg : ¬ cfg.Rejected) (hrep : Rep cfg w.disk img)
    (hs : (img sector)[slot]? = some .erased) (hhi : slot < hi) {P : Post Flash Journal SecurityStoreError Unit}
    (hok : ∀ w' img', st.validate = .ok () → Frame 5 w w' → Rep cfg w'.disk img' →
      Completed hi ⟨g, sector, st, tag⟩ ∅ img img' → P.ok () w')
    (herr : w.faults ≠ [] ∨ st.validate ≠ .ok () → ∀ e w' img', w'.ram = w.ram → Rep cfg w'.disk img' →
      Unmarked sector slot g img img' → P.err e w')
    (hlate : Late 0 w.faults → ∀ w' img', st.validate = .ok () → w'.ram = w.ram → Rep cfg w'.disk img' →
      Completed hi ⟨g, sector, st, tag⟩ ∅ img img' → P.err .hardware w')
    (hcut : w.faults ≠ [] → ∀ d img', Rep cfg d img' →
      Unmarked sector slot g img img' ∨ (st.validate = .ok () ∧ Completed hi ⟨g, sector, st, tag⟩ ∅ img img') →
      P.cut d) : wp (writeRecord cfg sector slot g st tag) w P := by
  simp only [writeRecord, wp_bind, wp_ofExcept]
  cases hv : st.validate with
  | error e => exact herr (Or.inr (by simp [hv])) e w img rfl hrep (Or.inl rfl)
  | ok u =>
    have hdone : Completed hi ⟨g, sector, st, tag⟩ ∅ img
        (img.set sector slot (.record g st tag true hv)) := by
      refine ⟨img.set sector slot (.record g st tag false hv), Grow.torn hs hhi, ?_⟩
      have := Activate.set (set_get (t := .record g st tag false hv) hs)
      rwa [set_set] at this
    have hunmarked : Unmarked sector slot g img (img.set sector slot (.record g st tag false hv)) :=
      Or.inr ⟨st, tag, hv, rfl⟩
    refine write_wp hcfg hrep hs (by simp) (Slot.render_record g tag hv) ?_ ?_ ?_ ?_
    · intro w₁ hf₁ hrep₁
      have hs₁ := set_get (t := .record g st tag false hv) hs
      refine write_wp hcfg hrep₁ hs₁ (by simp)
        (Slot.render_record_commit g tag hv) ?_ ?_ ?_ ?_
      · intro w₂ hf₂ hrep₂
        rw [set_set] at hrep₂
        have hf := hf₁.trans hf₂
        have hread : cfg.readSlot w₂.disk sector slot = recordSlot g st tag true :=
          hrep₂.readSlot (set_get hs)
        apply readFlash_wp
        · intro w₃ hf₃ hdisk
          simp only [hread, decodeRecord_committed g tag hv, recordTag_recordSlot, and_self, if_true,
            wp_pure]
          exact hok w₃ _ hv (hf.trans hf₃) (hdisk ▸ hrep₂) hdone
        · exact fun hstr w₃ hram hdisk =>
            hlate (Or.inr (hf.passes.strikes hstr)) w₃ _ hv (hram.trans hf.ram) (hdisk ▸ hrep₂) hdone
        · exact fun hne => hcut (hf.faults_ne hne) _ _ hrep₂ (Or.inr ⟨hv, hdone⟩)
      · exact fun hne w₂ hram hrep₂ =>
          herr (Or.inl (hf₁.faults_ne hne)) _ w₂ _ (hram.trans hf₁.ram) hrep₂ hunmarked
      · intro hstr w₂ hram hrep₂
        rw [set_set] at hrep₂
        exact hlate (Or.inl (hf₁.passes.strikes hstr)) w₂ _ hv (hram.trans hf₁.ram) hrep₂ hdone
      · rintro hne d (hd | hd)
        · exact hcut (hf₁.faults_ne hne) d _ hd (Or.inl hunmarked)
        · rw [set_set] at hd
          exact hcut (hf₁.faults_ne hne) d _ hd (Or.inr ⟨hv, hdone⟩)
    · exact fun hne w₁ hram hrep₁ => herr (Or.inl hne) _ w₁ img hram hrep₁ (Or.inl rfl)
    · exact fun hstr w₁ hram hrep₁ => herr (Or.inl hstr.ne_nil) _ w₁ _ hram hrep₁ hunmarked
    · rintro hne d (hd | hd)
      · exact hcut hne d img hd (Or.inl (Or.inl rfl))
      · exact hcut hne d _ hd (Or.inl hunmarked)

/-- Nothing disturbs the writing of the snapshot. -/
def Undisturbed (w : World Flash Journal) : Prop :=
  w.faults = [] ∧ ∀ u ∈ w.ram.cachedReplay, storable u = true

theorem Frame.undisturbed {w w' : World Flash Journal} (h : Frame k w w') (hu : Undisturbed w) : Undisturbed w' := by
  refine ⟨?_, by rw [h.ram]; exact hu.2⟩
  by_contra hne
  exact h.faults_ne hne hu.1

/-- Why a generation can fail once its place is chosen. -/
def Refusal (w : World Flash Journal) (st : PersistentSecurityState) : Prop :=
  w.faults ≠ [] ∨ st.validate ≠ .ok () ∨ ∃ u ∈ w.ram.cachedReplay, storable u = false

theorem durable_eq_empty {l : List PersistentReplayCounter} (hn : ∀ x ∈ l, x.isNwk = false)
    (h : durable l = ∅) : l = [] := by
  rw [List.eq_nil_iff_forall_not_mem]
  intro x hx
  have : x ∈ durable l := ⟨hx, hn x hx⟩
  rw [h] at this
  exact this

/-- Accesses of a snapshot of `count` entries. -/
def snapshotAccesses (count : Nat) : Nat := 5 * count + 3 * replaySnapshotSlots count

theorem activateGeneration_wp (hcfg : ¬ cfg.Rejected) (hrep : Rep cfg w.disk img)
    (hn : ∀ x ∈ w.ram.cachedReplay, x.isNwk = false)
    (hfree : ∀ i, i < 1 + replaySnapshotSlots w.ram.cachedReplay.length →
      (img sector)[slot + i]? = some .erased)
    (hhi : slot + (1 + replaySnapshotSlots w.ram.cachedReplay.length) ≤ hi)
    {P : Post Flash Journal SecurityStoreError Unit}
    (hok : ∀ w' img' k, st.validate = .ok () → Frame k w w' → Rep cfg w'.disk img' →
      Completed hi ⟨g, sector, st, tag⟩ (durable w.ram.cachedReplay) img img' → P.ok () w')
    (herr : Refusal w st → ∀ e w' img', w'.ram = w.ram → Rep cfg w'.disk img' →
      Staged hi sector slot g (durable w.ram.cachedReplay) (Undisturbed w) img img' → P.err e w')
    (hlate : Late (snapshotAccesses w.ram.cachedReplay.length) w.faults → ∀ w' img', st.validate = .ok () →
      w'.ram = w.ram → Rep cfg w'.disk img' →
      Completed hi ⟨g, sector, st, tag⟩ (durable w.ram.cachedReplay) img img' → P.err .hardware w')
    (hcut : w.faults ≠ [] → ∀ d img', Rep cfg d img' →
      Staged hi sector slot g (durable w.ram.cachedReplay) (Undisturbed w) img img' ∨
        (st.validate = .ok () ∧
          Completed hi ⟨g, sector, st, tag⟩ (durable w.ram.cachedReplay) img img') → P.cut d) :
    wp (activateGeneration cfg sector slot g st tag) w P := by
  have hs : (img sector)[slot]? = some .erased := hfree 0 (by omega)
  have hready : SnapReady img sector (slot + 1) g 0 w.ram.cachedReplay.length := by
    refine ⟨fun h => absurd rfl h, fun i _ hi => ?_⟩
    have := hfree (i + 1) (by simp only [replaySnapshotSlots, REPLAY_ENTRIES_PER_SLOT]; omega)
    rwa [show slot + (i + 1) = slot + 1 + i by omega] at this
  simp only [activateGeneration, wp_bind, wp_getRam]
  by_cases hempty : w.ram.cachedReplay = []
  · -- no snapshot: the record is the only thing written
    rw [hempty]
    simp only [writeReplaySnapshot, wp_pure]
    have hd : durable w.ram.cachedReplay = ∅ := by rw [hempty, durable_nil]
    refine writeRecord_wp hi hcfg hrep hs (by omega) ?_ ?_ ?_ ?_
    · intro w' img' hv hf hrep' hc
      exact hok w' img' _ hv hf hrep' (by rw [hd]; exact hc)
    · intro hwhy e w' img' hram hrep' hu
      exact herr (hwhy.imp_right Or.inl) e w' img' hram hrep'
        ⟨⟨∅, Set.empty_subset _, fun _ => hd.symm, hu.grow hs (by omega)⟩, fun _ => hu⟩
    · intro hl w' img' hv hram hrep' hc
      refine hlate ?_ w' img' hv hram hrep' (by rw [hd]; exact hc)
      rw [hempty]
      exact hl
    · intro hne d img' hrep' hu
      refine hcut hne d img' hrep' ?_
      rcases hu with hu | ⟨hv, hc⟩
      · exact Or.inl ⟨⟨∅, Set.empty_subset _, fun _ => hd.symm, hu.grow hs (by omega)⟩, fun _ => hu⟩
      · exact Or.inr ⟨hv, by rw [hd]; exact hc⟩
  · have hne' : durable w.ram.cachedReplay ≠ ∅ := fun h => hempty (durable_eq_empty hn h)
    have hdur : ∀ {X : Set PersistentReplayCounter}, X ⊆ {x | x ∈ w.ram.cachedReplay} →
        X ⊆ durable w.ram.cachedReplay := fun hX x hx => ⟨hX hx, hn x (hX hx)⟩
    refine writeReplaySnapshot_wp hi hcfg hrep ?_ hready ?_ ?_ ?_
    · simp only [replaySnapshotSlots, REPLAY_ENTRIES_PER_SLOT] at hhi
      omega
    · intro w₁ img₁ hall hf₁ hrep₁ hg₁ hlow
      have hs₁ : (img₁ sector)[slot]? = some .erased := by rw [hlow slot (by omega)]; exact hs
      have hgrow : ∀ {img₂ : Image}, Grow hi sector g.toNat ∅ img₁ img₂ →
          Grow hi sector g.toNat (durable w.ram.cachedReplay) img img₂ := fun hg => by
        simpa using hg₁.trans hg
      refine writeRecord_wp hi hcfg hrep₁ hs₁ (by omega) ?_ ?_ ?_ ?_
      · rintro w₂ img₂ hv hf₂ hrep₂ ⟨img', hg, ha⟩
        exact hok w₂ img₂ _ hv (hf₁.trans hf₂) hrep₂ ⟨img', hgrow hg, ha⟩
      · intro hwhy e w₂ img₂ hram hrep₂ hu
        refine herr ?_ e w₂ img₂ (hram.trans hf₁.ram) hrep₂
          ⟨⟨_, subset_rfl, fun _ => rfl, hgrow (hu.grow hs₁ (by omega))⟩, fun h => absurd h hne'⟩
        rcases hwhy with h | h
        · exact Or.inl (hf₁.faults_ne h)
        · exact Or.inr (Or.inl h)
      · rintro hl w₂ img₂ hv hram hrep₂ ⟨img', hg, ha⟩
        refine hlate ?_ w₂ img₂ hv (hram.trans hf₁.ram) hrep₂ ⟨img', hgrow hg, ha⟩
        have := hf₁.late hl
        rwa [Nat.zero_add] at this
      · intro hne d img₂ hrep₂ hu
        refine hcut (hf₁.faults_ne hne) d img₂ hrep₂ ?_
        rcases hu with hu | ⟨hv, img', hg, ha⟩
        · exact Or.inl ⟨⟨_, subset_rfl, fun _ => rfl, hgrow (hu.grow hs₁ (by omega))⟩, fun h => absurd h hne'⟩
        · exact Or.inr ⟨hv, img', hgrow hg, ha⟩
    · intro hwhy w₁ img₁ X hram hrep₁ hg₁ hX
      refine herr (hwhy.imp_right Or.inr) _ w₁ img₁ hram hrep₁
        ⟨⟨X, hdur hX, fun hund => ?_, hg₁⟩, fun h => absurd h hne'⟩
      rcases hwhy with h | ⟨u, hu, hst⟩
      · exact absurd hund.1 h
      · rw [hund.2 u hu] at hst
        cases hst
    · intro hne d img₁ X hrep₁ hg₁ hX
      exact hcut hne d img₁ hrep₁
        (Or.inl ⟨⟨X, hdur hX, fun hund => absurd hund.1 hne, hg₁⟩, fun h => absurd h hne'⟩)

end Zigbee.Runtime.SecurityJournal
