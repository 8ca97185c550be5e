import Mathlib.Data.List.TakeWhile
import Zigbee.Runtime.SecurityJournal.Image

/-!
# What a journal image says

The durable meaning of an image, as sets: its committed records, and for each sector and generation
the replay entries a scan of that generation merges.

* `newest_eq` — the record scan returns the committed record whose generation exceeds all others.
* `scanReplay_ok`, `scanReplay_isOk` — the replay scan returns the floor table of the entries of its
  generation, and succeeds exactly when their domains fit the cache.
* `View`, `Shows` — the current record, the entries of its generation and the *leftover* entries of
  the next generation in the same sector, which an attempt that never committed its record left.
* `Grow` — an image change that adds entries of one generation to one sector and nothing else.
-/

namespace Zigbee.Runtime.SecurityJournal

open Bytes NorFlash FloorTable PersistentReplayCounter Slot

/-- The committed records of an image in scan order. -/
def Image.records (img : Image) : List LocatedState :=
  (img 0).filterMap (Slot.located 0) ++ (img 1).filterMap (Slot.located 1)

/-- The entries that a scan of generation `n` in `sector` merges. -/
def Image.entriesAt (img : Image) (sector : Fin 2) (n : Nat) : Set PersistentReplayCounter :=
  {x | x.isNwk = false ∧ ∃ s ∈ img sector, s.header.map UInt32.toNat = some n ∧ x ∈ s.entries}

/-- The generations of the replay slots of `sector`. -/
def Image.headers (img : Image) (sector : Fin 2) : Set Nat :=
  {n | ∃ s ∈ img sector, s.header.map UInt32.toNat = some n}

variable {img : Image} {l : LocatedState}

open Image

theorem Image.mem_records : l ∈ img.records ↔ ∃ s ∈ img l.sector, s.located l.sector = some l := by
  have hsector : ∀ {sector : Fin 2} {s : Slot}, s.located sector = some l → l.sector = sector := by
    intro sector s h
    cases s with
    | erased => simp [Slot.located] at h
    | replay g cells hc => simp [Slot.located] at h
    | record g st tag committed hv =>
      cases committed with
      | false => simp [Slot.located] at h
      | true => simp only [Slot.located, Option.some.injEq] at h; rw [← h]
  simp only [records, List.mem_append, List.mem_filterMap]
  constructor
  · rintro (⟨s, hs, h⟩ | ⟨s, hs, h⟩) <;>
    · have := hsector h
      rw [this]
      exact ⟨s, hs, h⟩
  · rintro ⟨s, hs, h⟩
    rcases hl : l.sector with ⟨_ | _ | k, hk⟩
    · rw [hl] at hs h; exact Or.inl ⟨s, hs, h⟩
    · rw [hl] at hs h; exact Or.inr ⟨s, hs, h⟩
    · omega

variable {sector : Fin 2} {n : Nat} {x : PersistentReplayCounter}

theorem Image.entriesAt_subset_headers (h : x ∈ img.entriesAt sector n) : n ∈ img.headers sector := by
  obtain ⟨-, s, hs, hh, -⟩ := h
  exact ⟨s, hs, hh⟩

variable {s : Slot}

/-- Every entry a scan reads can be stored again. -/
theorem Slot.storable_of_mem_entries (h : x ∈ s.entries) : storable x = true := by
  cases s with
  | erased => simp [entries] at h
  | record g st tag committed hv => simp [entries] at h
  | replay g cells hc =>
    simp only [entries, List.mem_map] at h
    obtain ⟨c, hc, rfl⟩ := h
    have hgood := List.mem_takeWhile_imp hc
    simp only [Cell.good, Bool.and_eq_true] at hgood
    exact hgood.2

/-! ## The record scan -/

/-- One committed record of the `newest` scan. -/
def pickNewest (newest : Option LocatedState) (candidate : LocatedState) : Option LocatedState :=
  match newest with
  | none => some candidate
  | some current =>
    if current.generation < candidate.generation then some candidate
    else if candidate.generation = current.generation then
      some (resolveDuplicateGeneration current candidate)
    else some current

theorem newestStep_render (sector : Fin 2) (newest : Option LocatedState) (s : Slot) :
    newestStep sector newest s.render =
      match s.located sector with
      | none => newest
      | some candidate => pickNewest newest candidate := by
  rw [← s.located_render sector]
  unfold newestStep
  cases decodeRecord s.render with
  | none => rfl
  | some d => cases newest <;> rfl

theorem foldl_newestStep (sector : Fin 2) (slots : List Slot) (newest : Option LocatedState) :
    (slots.map render).foldl (newestStep sector) newest =
      (slots.filterMap (Slot.located sector)).foldl pickNewest newest := by
  induction slots generalizing newest with
  | nil => rfl
  | cons s slots ih =>
    simp only [List.map_cons, List.foldl_cons, newestStep_render, List.filterMap_cons, ih]
    cases s.located sector <;> rfl

variable {cfg : Config} {f : Flash}

theorem newest_eq_foldl (h : Rep cfg f img) : cfg.newest f = img.records.foldl pickNewest none := by
  unfold Config.newest records
  rw [h 0, h 1, foldl_newestStep, foldl_newestStep, List.foldl_append]

theorem resolveDuplicateGeneration_generation (a b : LocatedState) (h : b.generation = a.generation) :
    (resolveDuplicateGeneration a b).generation = a.generation := by
  unfold resolveDuplicateGeneration
  split
  · rfl
  · dsimp only
    split <;> simp [h]

theorem resolveDuplicateGeneration_self (a : LocatedState) : resolveDuplicateGeneration a a = a := by
  simp [resolveDuplicateGeneration]

/-- A record that every candidate equals or stays below. -/
def Tops (l r : LocatedState) : Prop := r = l ∨ r.generation < l.generation

theorem Tops.eq_of_not_lt {r : LocatedState} (h : Tops l r) (hn : ¬ r.generation < l.generation) :
    r = l := h.resolve_right hn

variable {acc : Option LocatedState}

theorem pickNewest_tops {r : LocatedState} (hr : Tops l r) (hacc : ∀ a, acc = some a → Tops l a) (a : LocatedState)
    (ha : pickNewest acc r = some a) : Tops l a := by
  cases acc with
  | none =>
    simp only [pickNewest, Option.some.injEq] at ha
    rwa [← ha]
  | some c =>
    have hc := hacc c rfl
    simp only [pickNewest] at ha
    split at ha
    · rw [← Option.some.inj ha]; exact hr
    · split at ha
      · rename_i hlt heq
        rw [← Option.some.inj ha]
        rcases hc with rfl | hc
        · have hrc : r = c := hr.eq_of_not_lt (by rw [heq]; exact UInt32.lt_irrefl _)
          rw [hrc, resolveDuplicateGeneration_self]
          exact Or.inl rfl
        · refine Or.inr ?_
          rwa [resolveDuplicateGeneration_generation c r heq]
      · rw [← Option.some.inj ha]; exact hc

theorem pickNewest_top {r : LocatedState} (hr : Tops l r) (hacc : ∀ a, acc = some a → Tops l a)
    (h : r = l ∨ acc = some l) : pickNewest acc r = some l := by
  cases acc with
  | none =>
    simp only [reduceCtorEq, or_false] at h
    rw [h]; rfl
  | some c =>
    have hc := hacc c rfl
    simp only [pickNewest]
    by_cases hlt : c.generation < r.generation
    · rw [if_pos hlt]
      rcases h with h | h
      · rw [h]
      · rw [Option.some.inj h] at hlt
        rcases hr with rfl | hr
        · rfl
        · exact absurd (UInt32.lt_trans hlt hr) (UInt32.lt_irrefl _)
    · rw [if_neg hlt]
      have hcl : c = l := by
        rcases h with rfl | h
        · exact hc.eq_of_not_lt hlt
        · exact Option.some.inj h
      subst hcl
      by_cases heq : r.generation = c.generation
      · have hrc : r = c := hr.eq_of_not_lt (by rw [heq]; exact UInt32.lt_irrefl _)
        rw [if_pos heq, hrc, resolveDuplicateGeneration_self]
      · rw [if_neg heq]

/-- A record that tops every other one survives the scan. -/
theorem foldl_pickNewest {records : List LocatedState} (hrec : ∀ r ∈ records, Tops l r)
    (hacc : ∀ r, acc = some r → Tops l r) (hl : l ∈ records ∨ acc = some l) :
    records.foldl pickNewest acc = some l := by
  induction records generalizing acc with
  | nil => simpa using hl
  | cons r records ih =>
    have hr := hrec r (by simp)
    rw [List.foldl_cons]
    refine ih (fun a ha => hrec a (by simp [ha])) (pickNewest_tops hr hacc) ?_
    rcases hl with hl | hl
    · rcases List.mem_cons.mp hl with rfl | hl
      · exact Or.inr (pickNewest_top hr hacc (Or.inl rfl))
      · exact Or.inl hl
    · exact Or.inr (pickNewest_top hr hacc (Or.inr hl))

/-- **The record scan returns the strictly newest committed record.** -/
theorem newest_eq (h : Rep cfg f img) (hl : l ∈ img.records) (hmax : ∀ r ∈ img.records, Tops l r) :
    cfg.newest f = some l := by
  rw [newest_eq_foldl h]
  exact foldl_pickNewest hmax (by simp) (Or.inl hl)

/-! ## The replay scan -/

/-- `merge_replay` is the floor-table update by domain. -/
theorem mergeReplay_eq (cap : Nat) (t : List PersistentReplayCounter) (x : PersistentReplayCounter) :
    mergeReplay cap t x =
      match merge domain floor cap t x with
      | some t' => .ok t'
      | none => .error .full := by
  have hraise : ∀ l : List PersistentReplayCounter,
      raiseFirst domain floor l x =
        (l.findIdx? (·.sameDomain x)).map fun i =>
          l.modify i fun stored => if stored.counter < x.counter then x else stored := by
    intro l
    induction l with
    | nil => rfl
    | cons s l ih =>
      simp only [raiseFirst, List.findIdx?_cons, ih]
      by_cases hd : s.domain = x.domain
      · have hfloor : (s.floor < x.floor) = (s.counter < x.counter) :=
          propext UInt32.lt_iff_toNat_lt.symm
        simp [hd, (s.sameDomain_iff x).mpr hd, hfloor]
      · have : s.sameDomain x = false := by
          rw [Bool.eq_false_iff]
          exact fun h => hd ((s.sameDomain_iff x).mp h)
        simp [hd, this, Function.comp_def]
  unfold mergeReplay merge
  rw [hraise t]
  cases t.findIdx? (·.sameDomain x) with
  | some i => rfl
  | none => by_cases h : t.length < cap <;> simp [h]

/-- The entries a scan of `generation` in `sector` merges, in order. -/
def Image.scanList (img : Image) (sector : Fin 2) (generation : UInt32) : List PersistentReplayCounter :=
  ((img sector).flatMap fun s => if s.header = some generation then s.entries else []).filter
    fun x => !x.isNwk

theorem Image.mem_scanList {generation : UInt32} :
    {x | x ∈ img.scanList sector generation} = img.entriesAt sector generation.toNat := by
  ext x
  simp only [Image.scanList, Image.entriesAt, List.mem_filter, List.mem_flatMap, Bool.not_eq_true',
    Set.mem_ofPred_eq]
  constructor
  · rintro ⟨⟨s, hs, hx⟩, hn⟩
    split at hx
    · rename_i hh
      exact ⟨hn, s, hs, by simp [hh], hx⟩
    · simp at hx
  · rintro ⟨hn, s, hs, hh, hx⟩
    refine ⟨⟨s, hs, ?_⟩, hn⟩
    simp only [Option.map_eq_some_iff] at hh
    obtain ⟨g, hg, hgn⟩ := hh
    rw [if_pos (by rw [hg, UInt32.toNat_inj.mp hgn])]
    exact hx

theorem Slot.entries_length (s : Slot) : s.entries.length ≤ 4 := by
  cases s with
  | erased => simp [entries]
  | record g st tag c hv => simp [entries]
  | replay g cells h =>
    simp only [entries, List.length_map]
    exact Nat.le_trans (List.takeWhile_sublist _).length_le h

/-- Beside the record of a sector there is room for four entries a slot. -/
theorem Image.scanList_length (hl : l ∈ img.records) (generation : UInt32) :
    (img.scanList l.sector generation).length + 4 ≤ 4 * (img l.sector).length := by
  have hle : ∀ slots : List Slot, (slots.flatMap fun s =>
      if s.header = some generation then s.entries else []).length ≤ 4 * slots.length := by
    intro slots
    induction slots with
    | nil => simp
    | cons s slots ih =>
      have hs : (if s.header = some generation then s.entries else []).length ≤ 4 := by
        split
        · exact s.entries_length
        · simp
      simp only [List.flatMap_cons, List.length_append, List.length_cons]
      omega
  obtain ⟨s, hs, hloc⟩ := Image.mem_records.mp hl
  have hheader : s.header ≠ some generation := by
    cases s with
    | erased => simp [header]
    | record g st tag c hv => simp [header]
    | replay g cells hc => simp [Slot.located] at hloc
  obtain ⟨a, b, hab⟩ := List.append_of_mem hs
  have ha := hle a
  have hb := hle b
  refine Nat.le_trans (Nat.add_le_add_right (List.length_filter_le _ _) 4) ?_
  rw [hab]
  simp only [List.flatMap_append, List.flatMap_cons, if_neg hheader, List.nil_append, List.length_append,
    List.length_cons]
  omega

theorem foldlM_scanEntry (cap : Nat) (l t : List PersistentReplayCounter) :
    l.foldlM (scanEntry cap) t =
      match (l.filter fun x => !x.isNwk).foldlM
          (merge domain floor cap) t with
      | some t' => .ok t'
      | none => .error .full := by
  induction l generalizing t with
  | nil => rfl
  | cons x l ih =>
    simp only [List.foldlM_cons, scanEntry]
    cases hx : x.isNwk with
    | true =>
      simp only [if_true, List.filter_cons, hx, Bool.not_true, Bool.false_eq_true, if_false]
      exact ih t
    | false =>
      simp only [Bool.false_eq_true, if_false, List.filter_cons, hx, Bool.not_false, if_true,
        List.foldlM_cons, mergeReplay_eq]
      cases hm : merge domain floor cap t x with
      | none => rfl
      | some t' => exact ih t'

theorem scanSlot_render (cap : Nat) (g : UInt32) (t : List PersistentReplayCounter) (s : Slot) :
    scanSlot cap g t s.render =
      (if s.header = some g then s.entries else []).foldlM (scanEntry cap) t := by
  unfold scanSlot
  rw [s.header_render]
  by_cases h : s.header = some g
  · rw [if_neg (by simp [h]), if_pos h, entries_render h]
  · rw [if_pos h, if_neg h]
    rfl

theorem foldlM_scanSlot (cap : Nat) (g : UInt32) (slots : List Slot) (t : List PersistentReplayCounter) :
    (slots.map render).foldlM (scanSlot cap g) t =
      (slots.flatMap fun s => if s.header = some g then s.entries else []).foldlM (scanEntry cap) t := by
  induction slots generalizing t with
  | nil => rfl
  | cons s slots ih =>
    simp only [List.map_cons, List.foldlM_cons, List.flatMap_cons, List.foldlM_append,
      scanSlot_render]
    congr 1
    funext t'
    exact ih t'

variable {r : PersistentReplayCounter} {cap : Nat} {t : List PersistentReplayCounter}

section Scan

variable {cfg : Config} {f : Flash} {img : Image} {sector : Fin 2} {generation : UInt32}

/-- The committed entries of `generation` in a sector, as a scan finds them. -/
def Config.scanList (cfg : Config) (f : Flash) (sector : Fin 2) (generation : UInt32) :
    List PersistentReplayCounter :=
  ((cfg.sectorSlots f sector).flatMap fun record =>
    if replayHeaderGeneration record = some generation then committedEntries (replayEntries record)
    else []).filter fun x => !x.isNwk

theorem Rep.scanList (h : Rep cfg f img) :
    cfg.scanList f sector generation = img.scanList sector generation := by
  unfold Config.scanList Image.scanList
  rw [h sector, List.flatMap_map]
  congr 2
  funext s
  simp only [header_render]
  split
  · rename_i hg
    exact entries_render hg
  · rfl

theorem scanReplay_eq (h : Rep cfg f img) :
    cfg.scanReplay f sector generation =
      match mergeAll domain floor cfg.maxReplay
          (img.scanList sector generation) with
      | some t => .ok t
      | none => .error .full := by
  unfold Config.scanReplay
  rw [h sector, foldlM_scanSlot, foldlM_scanEntry]
  rfl

/-- The floor tables of replay counters. -/
abbrev Floors (E : Set PersistentReplayCounter) (t : List PersistentReplayCounter) : Prop :=
  IsFloors domain floor E t

theorem mergeReplay_eq_ok {t' : List PersistentReplayCounter} :
    mergeReplay cap t r = .ok t' ↔
      merge domain floor cap t r = some t' := by
  rw [mergeReplay_eq]
  split <;> simp_all

theorem mergeReplay_eq_error {e : SecurityStoreError} (h : mergeReplay cap t r = .error e) :
    merge domain floor cap t r = none ∧ e = .full := by
  rw [mergeReplay_eq] at h
  split at h
  · cases h
  · rename_i hm
    cases h
    exact ⟨hm, rfl⟩

theorem mergeReplay_floors {E : Set PersistentReplayCounter} {t' : List PersistentReplayCounter} (hfl : Floors E t)
    (h : mergeReplay cap t r = .ok t') : Floors (Insert.insert r E) t' :=
  merge_isFloors hfl (mergeReplay_eq_ok.mp h)

/-- The number of replay domains of a set of entries. -/
noncomputable abbrev domains (E : Set PersistentReplayCounter) : ℕ∞ :=
  keyCount domain E

/-- **A successful replay scan returns the floors of the entries of its generation.** -/
theorem scanReplay_ok (h : Rep cfg f img) (ht : cfg.scanReplay f sector generation = .ok t) :
    Floors (img.entriesAt sector generation.toNat) t ∧ t.length ≤ cfg.maxReplay := by
  rw [scanReplay_eq h] at ht
  split at ht
  · rename_i t' hm
    cases ht
    rw [← mem_scanList]
    exact ⟨mergeAll_isFloors hm, mergeAll_length_le hm⟩
  · cases ht

theorem mergeReplay_isOk {E : Set PersistentReplayCounter} (hfl : Floors E t)
    (hcap : domains (Insert.insert r E) ≤ cap) : ∃ t', mergeReplay cap t r = .ok t' := by
  obtain ⟨t', ht'⟩ := hfl.merge_isSome hcap
  exact ⟨t', mergeReplay_eq_ok.mpr ht'⟩

/-- **The replay scan succeeds exactly when the domains of its generation fit the cache.** -/
theorem scanReplay_isOk (h : Rep cfg f img) :
    (∃ t, cfg.scanReplay f sector generation = .ok t) ↔
      domains (img.entriesAt sector generation.toNat) ≤ cfg.maxReplay := by
  rw [← mem_scanList, ← mergeAll_isSome (floor),
    Option.isSome_iff_exists, scanReplay_eq h]
  constructor
  · rintro ⟨t, ht⟩
    split at ht
    · rename_i t' hm; exact ⟨t', hm⟩
    · cases ht
  · rintro ⟨t, ht⟩
    exact ⟨t, by rw [ht]⟩

theorem scanReplay_error (h : Rep cfg f img) {e : SecurityStoreError}
    (he : cfg.scanReplay f sector generation = .error e) : e = .full := by
  rw [scanReplay_eq h] at he
  split at he
  · cases he
  · cases he; rfl

end Scan

/-! ## Adding entries of one generation -/

/-- The slots of `sector` from `k` on are erased. -/
def Image.Clear (img : Image) (sector : Fin 2) (k : Nat) : Prop :=
  ∀ i s, k ≤ i → (img sector)[i]? = some s → s = .erased

theorem Image.Clear.mono {k k' : Nat} (h : img.Clear sector k) (hk : k ≤ k') :
    img.Clear sector k' := fun i s hi hs => h i s (Nat.le_trans hk hi) hs

/-- `img'` has the records of `img`, and in addition the entries `X` of generation `n` in `sector`.
    Only slots below `hi` were written. -/
structure Grow (hi : Nat) (sector : Fin 2) (n : Nat) (X : Set PersistentReplayCounter)
    (img img' : Image) : Prop where
  records : ∀ l, l ∈ img'.records ↔ l ∈ img.records
  entries : ∀ t k x, x ∈ img'.entriesAt t k ↔ x ∈ img.entriesAt t k ∨ (t = sector ∧ k = n ∧ x ∈ X)
  headers : ∀ t k, k ∈ img'.headers t → k ∈ img.headers t ∨ (t = sector ∧ k = n)
  clear : ∀ t k, hi ≤ k → img.Clear t k → img'.Clear t k

theorem Grow.entriesAt_self (h : Grow hi sector n X img img') : img'.entriesAt sector n = img.entriesAt sector n ∪ X := by
  ext x
  rw [h.entries]
  simp

theorem Grow.entriesAt_other (h : Grow hi sector n X img img') {t : Fin 2} {k : Nat} (hne : ¬ (t = sector ∧ k = n)) :
    img'.entriesAt t k = img.entriesAt t k := by
  ext x
  rw [h.entries]
  exact or_iff_left fun ⟨ht, hk, _⟩ => hne ⟨ht, hk⟩

theorem Grow.refl (hi : Nat) (sector : Fin 2) (n : Nat) (img : Image) : Grow hi sector n ∅ img img :=
  ⟨fun _ => Iff.rfl, by simp, fun _ _ h => Or.inl h, fun _ _ _ h => h⟩

theorem Grow.trans {hi : Nat} {X Y : Set PersistentReplayCounter} {a b c : Image} (h : Grow hi sector n X a b)
    (h' : Grow hi sector n Y b c) : Grow hi sector n (X ∪ Y) a c where
  records l := (h'.records l).trans (h.records l)
  entries t k x := by
    rw [h'.entries, h.entries, Set.mem_union]
    tauto
  headers t k hk := by
    rcases h'.headers t k hk with hk | hk
    · exact h.headers t k hk
    · exact Or.inr hk
  clear t k hk hc := h'.clear t k hk (h.clear t k hk hc)

variable {i : Nat}

/-- Replacing one member of a list by one that satisfies at least as much. -/
theorem exists_mem_set {α : Type} {l : List α} {s s' : α} {P : α → Prop} (hs : l[i]? = some s) (hP : P s → P s') :
    (∃ u ∈ l.set i s', P u) ↔ (∃ u ∈ l, P u) ∨ P s' := by
  obtain ⟨hi, hsi⟩ := List.getElem?_eq_some_iff.mp hs
  have hl : l = l.take i ++ s :: l.drop (i + 1) := by
    rw [← hsi, List.getElem_cons_drop, List.take_append_drop]
  have hset : l.set i s' = l.take i ++ s' :: l.drop (i + 1) := by
    rw [List.set_eq_take_append_cons_drop, if_pos hi]
  rw [hset]
  nth_rewrite 3 [hl]
  simp only [List.mem_append, List.mem_cons, or_and_right, exists_or, exists_eq_left]
  constructor
  · rintro (h | h | h)
    · exact Or.inl (Or.inl h)
    · exact Or.inr h
    · exact Or.inl (Or.inr (Or.inr h))
  · rintro ((h | h | h) | h)
    · exact Or.inl h
    · exact Or.inr (Or.inl (hP h))
    · exact Or.inr (Or.inr h)
    · exact Or.inr (Or.inl h)

variable {g : UInt32}

/-- A slot update that keeps records, and adds entries of one generation. -/
theorem Grow.set {hi : Nat} {s' : Slot} {X : Set PersistentReplayCounter} (hs : (img sector)[i]? = some s)
    (hhi : i < hi) (hloc : s'.located sector = s.located sector) (hhead : s.header = s'.header ∨ s.header = none)
    (hhead' : s'.header = none ∨ s'.header = some g)
    (hent : ∀ x, x.isNwk = false → s'.header = some g → (x ∈ s'.entries ↔ x ∈ s.entries ∨ x ∈ X))
    (hX : ∀ x ∈ X, x.isNwk = false ∧ s'.header = some g) (hnone : s.header = none → s.entries = []) :
    Grow hi sector g.toNat X img (img.set sector i s') := by
  have hother : ∀ {t}, t ≠ sector → (img.set sector i s') t = img t := fun ht =>
    Function.update_of_ne ht _ _
  have hself : (img.set sector i s') sector = (img sector).set i s' := Function.update_self _ _ _
  refine ⟨fun l => ?_, fun t k x => ?_, fun t k hk => ?_, fun t k hk hc j u hj hu => ?_⟩
  · rw [Image.mem_records, Image.mem_records]
    by_cases ht : l.sector = sector
    · rw [ht, hself, exists_mem_set hs (by rw [hloc]; exact id)]
      refine ⟨fun h => h.elim id fun h => ?_, Or.inl⟩
      exact ⟨s, List.mem_of_getElem? hs, by rw [← hloc]; exact h⟩
    · rw [hother ht]
  · by_cases ht : t = sector
    · subst ht
      have hmono : s.header.map UInt32.toNat = some k ∧ x ∈ s.entries ∧ x.isNwk = false →
          s'.header.map UInt32.toNat = some k ∧ x ∈ s'.entries ∧ x.isNwk = false := by
        rintro ⟨hk, hx, hn⟩
        rcases hhead with hhead | hhead
        · rcases hhead' with hhead' | hhead'
          · rw [hhead, hhead'] at hk; simp at hk
          · exact ⟨by rw [← hhead]; exact hk, (hent x hn hhead').mpr (Or.inl hx), hn⟩
        · rw [hhead] at hk; simp at hk
      have hset := exists_mem_set
        (P := fun u => u.header.map UInt32.toNat = some k ∧ x ∈ u.entries ∧ x.isNwk = false) hs hmono
      have hrw : ∀ l : List Slot, (x.isNwk = false ∧ ∃ u ∈ l,
          u.header.map UInt32.toNat = some k ∧ x ∈ u.entries) ↔
          ∃ u ∈ l, u.header.map UInt32.toNat = some k ∧ x ∈ u.entries ∧ x.isNwk = false := by
        intro l
        constructor
        · rintro ⟨hn, u, hu, hk, hx⟩; exact ⟨u, hu, hk, hx, hn⟩
        · rintro ⟨u, hu, hk, hx, hn⟩; exact ⟨hn, u, hu, hk, hx⟩
      simp only [Image.entriesAt, Set.mem_ofPred_eq, hself]
      rw [hrw, hrw, hset]
      constructor
      · rintro (h | ⟨hk, hx, hn⟩)
        · exact Or.inl h
        · rcases hhead' with hhead' | hhead'
          · rw [hhead'] at hk; simp at hk
          · rcases (hent x hn hhead').mp hx with hx | hx
            · refine Or.inl ⟨s, List.mem_of_getElem? hs, ?_, hx, hn⟩
              rcases hhead with hhead | hhead
              · rw [hhead]; exact hk
              · rw [hnone hhead] at hx; simp at hx
            · rw [hhead'] at hk
              exact Or.inr ⟨trivial, (Option.some.inj hk).symm, hx⟩
      · rintro (h | ⟨-, rfl, hx⟩)
        · exact Or.inl h
        · obtain ⟨hn, hh⟩ := hX x hx
          exact Or.inr ⟨by rw [hh]; rfl, (hent x hn hh).mpr (Or.inr hx), hn⟩
    · simp [Image.entriesAt, hother ht, ht]
  · by_cases ht : t = sector
    · subst ht
      simp only [Image.headers, Set.mem_ofPred_eq, hself] at hk ⊢
      obtain ⟨u, hu, hk⟩ := hk
      rcases List.mem_or_eq_of_mem_set hu with hu | rfl
      · exact Or.inl ⟨u, hu, hk⟩
      · rcases hhead' with hhead' | hhead'
        · rw [hhead'] at hk; simp at hk
        · rw [hhead'] at hk
          exact Or.inr ⟨trivial, (Option.some.inj hk).symm⟩
    · simp only [Image.headers, hother ht] at hk
      exact Or.inl hk
  · by_cases ht : t = sector
    · subst ht
      rw [hself, List.getElem?_set, if_neg (by omega)] at hu
      exact hc j u hj hu
    · rw [hother ht] at hu
      exact hc j u hj hu

/-! ## Activating a record and erasing a sector -/

/-- `img'` has one more committed record, and the entries of `img`. -/
structure Activate (loc : LocatedState) (img img' : Image) : Prop where
  records : ∀ l, l ∈ img'.records ↔ l ∈ img.records ∨ l = loc
  entries : ∀ t k, img'.entriesAt t k = img.entriesAt t k
  headers : ∀ t k, k ∈ img'.headers t → k ∈ img.headers t
  clear : ∀ t k, img.Clear t k → img'.Clear t k

theorem Activate.set {st : PersistentSecurityState} {tag : UInt16} {hv : st.validate = .ok ()}
    (hs : (img sector)[i]? = some (.record g st tag false hv)) :
    Activate ⟨g, sector, st, tag⟩ img (img.set sector i (.record g st tag true hv)) := by
  have hother : ∀ {t}, t ≠ sector → (img.set sector i (.record g st tag true hv)) t = img t :=
    fun ht => Function.update_of_ne ht _ _
  have hself : (img.set sector i (.record g st tag true hv)) sector =
      (img sector).set i (.record g st tag true hv) := Function.update_self _ _ _
  -- neither the torn nor the committed record has a replay header
  have hkeep : ∀ {P : Slot → Prop}, ¬ P (.record g st tag false hv) → ¬ P (.record g st tag true hv) →
      ((∃ u ∈ (img sector).set i (.record g st tag true hv), P u) ↔ ∃ u ∈ img sector, P u) := by
    intro P h1 h2
    rw [exists_mem_set hs (fun h => absurd h h1)]
    exact ⟨fun h => h.elim id fun h => absurd h h2, Or.inl⟩
  refine ⟨fun l => ?_, fun t k => ?_, fun t k hk => ?_, fun t k hc j u hj hu => ?_⟩
  · rw [Image.mem_records, Image.mem_records]
    by_cases ht : l.sector = sector
    · rw [ht, hself, exists_mem_set hs (by simp [Slot.located])]
      simp only [Slot.located, Option.some.injEq]
      rw [eq_comm (a := l)]
    · rw [hother ht]
      refine ⟨Or.inl, fun h => h.elim id fun h => ?_⟩
      rw [h] at ht
      exact absurd rfl ht
  · by_cases ht : t = sector
    · subst ht
      ext x
      simp only [Image.entriesAt, Set.mem_ofPred_eq, hself]
      rw [hkeep (by simp [header]) (by simp [header])]
    · simp [Image.entriesAt, hother ht]
  · by_cases ht : t = sector
    · subst ht
      simp only [Image.headers, Set.mem_ofPred_eq, hself] at hk ⊢
      exact (hkeep (by simp [header]) (by simp [header])).mp hk
    · simpa [Image.headers, hother ht] using hk
  · by_cases ht : t = sector
    · subst ht
      have hij : i ≠ j := by
        rintro rfl
        have := hc i _ hj hs
        simp at this
      rw [hself, List.getElem?_set, if_neg hij] at hu
      exact hc j u hj hu
    · rw [hother ht] at hu
      exact hc j u hj hu

theorem Image.wipe_of_ne (img : Image) {t : Fin 2} (h : t ≠ sector) :
    img.wipe sector t = img t := Function.update_of_ne h _ _

theorem Image.mem_wipe (h : s ∈ img.wipe sector sector) : s = .erased := by
  simp only [wipe, Function.update_self] at h
  exact List.eq_of_mem_replicate h

theorem Image.mem_records_wipe : l ∈ (img.wipe sector).records ↔ l ∈ img.records ∧ l.sector ≠ sector := by
  rw [Image.mem_records, Image.mem_records]
  by_cases h : l.sector = sector
  · simp only [h, ne_eq, not_true_eq_false, and_false, iff_false]
    rintro ⟨s, hs, hl⟩
    rw [mem_wipe hs] at hl
    simp [Slot.located] at hl
  · simp [img.wipe_of_ne h, h]

theorem Image.entriesAt_wipe_self (img : Image) (sector : Fin 2) (n : Nat) :
    (img.wipe sector).entriesAt sector n = ∅ := by
  rw [Set.eq_empty_iff_forall_notMem]
  rintro x ⟨-, s, hs, hh, -⟩
  rw [mem_wipe hs] at hh
  simp [header] at hh

theorem Image.headers_wipe_self (img : Image) (sector : Fin 2) : (img.wipe sector).headers sector = ∅ := by
  rw [Set.eq_empty_iff_forall_notMem]
  rintro n ⟨s, hs, hh⟩
  rw [mem_wipe hs] at hh
  simp [header] at hh

theorem Image.entriesAt_wipe_of_ne (img : Image) {t : Fin 2} (h : t ≠ sector) (n : Nat) :
    (img.wipe sector).entriesAt t n = img.entriesAt t n := by
  simp [Image.entriesAt, img.wipe_of_ne h]

theorem Image.headers_wipe_of_ne (img : Image) {t : Fin 2} (h : t ≠ sector) :
    (img.wipe sector).headers t = img.headers t := by
  simp [Image.headers, img.wipe_of_ne h]

/-! ## Views -/

/-- The durable content of a journal: its current record, the replay entries of the current
    generation, and the entries of the next generation that an uncommitted attempt left beside it. -/
structure View where
  cur : Option LocatedState
  entries : Set PersistentReplayCounter
  leftover : Set PersistentReplayCounter

/-- The image has the given view, and is one the journal can leave: the current record tops all
    others, its sector has no replay slot beyond the next generation, and an uncommitted attempt
    only wrote entries that the current generation already has. -/
inductive Shows (img : Image) : View → Prop
  | blank (hrec : img.records = []) (hhead : ∀ t, img.headers t = ∅) : Shows img ⟨none, ∅, ∅⟩
  | located (l : LocatedState) (hmem : l ∈ img.records) (htop : ∀ r ∈ img.records, Tops l r)
      (hhead : ∀ n ∈ img.headers l.sector, n ≤ l.generation.toNat + 1)
      (hleft : img.entriesAt l.sector (l.generation.toNat + 1) ⊆
        img.entriesAt l.sector l.generation.toNat) :
      Shows img ⟨some l, img.entriesAt l.sector l.generation.toNat,
        img.entriesAt l.sector (l.generation.toNat + 1)⟩

variable {v : View}

theorem Shows.newest (hrep : Rep cfg f img) (h : Shows img v) : cfg.newest f = v.cur := by
  cases h with
  | blank hrec hhead => rw [newest_eq_foldl hrep, hrec]; rfl
  | located l hmem htop hhead hleft => exact newest_eq hrep hmem htop

theorem Shows.leftover_subset (h : Shows img v) : v.leftover ⊆ v.entries := by
  cases h with
  | blank hrec hhead => exact Set.empty_subset _
  | located l hmem htop hhead hleft => exact hleft

theorem Shows.isNwk (h : Shows img v) (hx : x ∈ v.entries) : x.isNwk = false := by
  cases h with
  | blank hrec hhead => simp at hx
  | located l hmem htop hhead hleft => exact hx.1

theorem Shows.storable (h : Shows img v) (hx : x ∈ v.entries) : storable x = true := by
  cases h with
  | blank hrec hhead => simp at hx
  | located l hmem htop hhead hleft =>
    obtain ⟨-, s, -, -, hs⟩ := hx
    exact storable_of_mem_entries hs

theorem Shows.none_eq (h : Shows img v) (hc : v.cur = none) : v = ⟨none, ∅, ∅⟩ := by
  cases h with
  | blank hrec hhead => rfl
  | located l hmem htop hhead hleft => simp at hc

theorem Shows.entries_eq (h : Shows img v) (hc : v.cur = some l) :
    v.entries = img.entriesAt l.sector l.generation.toNat := by
  cases h with
  | blank hrec hhead => simp at hc
  | located l' hmem htop hhead hleft => cases hc; rfl

theorem Shows.leftover_eq (h : Shows img v) (hc : v.cur = some l) :
    v.leftover = img.entriesAt l.sector (l.generation.toNat + 1) := by
  cases h with
  | blank hrec hhead => simp at hc
  | located l' hmem htop hhead hleft => cases hc; rfl

/-- Erased flash shows nothing. -/
theorem Shows.erased (n : Nat) : Shows (fun _ => List.replicate n .erased) ⟨none, ∅, ∅⟩ := by
  have hslot : ∀ s ∈ List.replicate n Slot.erased, s = .erased := fun s hs => List.eq_of_mem_replicate hs
  refine .blank ?_ fun t => ?_
  · rw [List.eq_nil_iff_forall_not_mem]
    intro l hl
    obtain ⟨s, hs, hloc⟩ := Image.mem_records.mp hl
    rw [hslot s hs] at hloc
    simp [Slot.located] at hloc
  · rw [Set.eq_empty_iff_forall_notMem]
    rintro k ⟨s, hs, hk⟩
    rw [hslot s hs] at hk
    simp [header] at hk

section Transitions

variable {img img' : Image} {l : LocatedState} {E E' L L' X : Set PersistentReplayCounter} {hi : Nat}

/-- New entries of the current or the next generation, or in the other sector. -/
theorem Shows.grow {t : Fin 2} (h : Shows img ⟨some l, E, L⟩) (hg : Grow hi t n X img img')
    (hn : t = l.sector → n ≤ l.generation.toNat + 1) (hE : img'.entriesAt l.sector l.generation.toNat = E')
    (hL : img'.entriesAt l.sector (l.generation.toNat + 1) = L') (hsub : L' ⊆ E') : Shows img' ⟨some l, E', L'⟩ := by
  cases h with
  | located _ hmem htop hhead hleft =>
    subst hE hL
    refine .located l ((hg.records l).mpr hmem) (fun r hr => htop r ((hg.records r).mp hr)) (fun k hk => ?_) hsub
    rcases hg.headers _ k hk with hk | ⟨ht, rfl⟩
    · exact hhead k hk
    · exact hn ht.symm

/-- New entries of the current generation. -/
theorem Shows.append (h : Shows img ⟨some l, E, L⟩)
    (hg : Grow hi l.sector l.generation.toNat X img img') : Shows img' ⟨some l, E ∪ X, L⟩ := by
  refine h.grow hg (fun _ => Nat.le_succ _) ?_ ?_ (h.leftover_subset.trans Set.subset_union_left)
  · exact hg.entriesAt_self.trans (congrArg (· ∪ X) (h.entries_eq rfl).symm)
  · exact (hg.entriesAt_other (by simp)).trans (h.leftover_eq rfl).symm

/-- New entries of the next generation, beside the current one. -/
theorem Shows.stage (h : Shows img ⟨some l, E, L⟩)
    (hg : Grow hi l.sector (l.generation.toNat + 1) X img img') (hX : X ⊆ E) :
    Shows img' ⟨some l, E, L ∪ X⟩ := by
  refine h.grow hg (fun _ => Nat.le_refl _) ?_ ?_ (Set.union_subset h.leftover_subset hX)
  · exact (hg.entriesAt_other (by simp)).trans (h.entries_eq rfl).symm
  · exact hg.entriesAt_self.trans (congrArg (· ∪ X) (h.leftover_eq rfl).symm)

/-- New entries in the other sector. -/
theorem Shows.elsewhere {t : Fin 2} (h : Shows img ⟨some l, E, L⟩) (hne : l.sector ≠ t) (hg : Grow hi t n X img img') :
    Shows img' ⟨some l, E, L⟩ := by
  refine h.grow hg (fun ht => absurd ht.symm hne) ?_ ?_ h.leftover_subset
  · exact (hg.entriesAt_other fun hsame => hne hsame.1).trans (h.entries_eq rfl).symm
  · exact (hg.entriesAt_other fun hsame => hne hsame.1).trans (h.leftover_eq rfl).symm

/-- A record without its commit marker in a blank journal. -/
theorem Shows.torn_first {st : PersistentSecurityState} {tag : UInt16} {hv : st.validate = .ok ()}
    (h : Shows img ⟨none, ∅, ∅⟩) (hs : (img sector)[i]? = some .erased) :
    Shows (img.set sector i (.record g st tag false hv)) ⟨none, ∅, ∅⟩ := by
  cases h with
  | blank hrec hhead =>
    have hg : Grow (i + 1) sector g.toNat ∅ img (img.set sector i (.record g st tag false hv)) :=
      Grow.set hs (Nat.lt_succ_self i) rfl (Or.inl rfl) (Or.inl rfl) (by simp [header]) (by simp) (fun _ => rfl)
    refine .blank ?_ fun t => ?_
    · rw [List.eq_nil_iff_forall_not_mem]
      intro l hl
      have := (hg.records l).mp hl
      rw [hrec] at this
      simp at this
    · rw [Set.eq_empty_iff_forall_notMem]
      rintro k ⟨s, hsm, hk⟩
      by_cases ht : t = sector
      · subst ht
        simp only [Image.set, Function.update_self] at hsm
        rcases List.mem_or_eq_of_mem_set hsm with hsm | rfl
        · have : k ∈ img.headers t := ⟨s, hsm, hk⟩
          rw [hhead t] at this
          simp at this
        · simp [header] at hk
      · simp only [Image.set, Function.update_of_ne ht] at hsm
        have : k ∈ img.headers t := ⟨s, hsm, hk⟩
        rw [hhead t] at this
        simp at this

/-- Erasing the other sector. -/
theorem Shows.wipe {t : Fin 2} (h : Shows img v) (ht : ∀ l, v.cur = some l → l.sector ≠ t) : Shows (img.wipe t) v := by
  cases h with
  | blank hrec hhead =>
    refine .blank ?_ fun t' => ?_
    · rw [List.eq_nil_iff_forall_not_mem]
      intro l hl
      have := (mem_records_wipe.mp hl).1
      rw [hrec] at this
      simp at this
    · by_cases htt : t' = t
      · rw [htt]; exact img.headers_wipe_self t
      · rw [img.headers_wipe_of_ne htt]; exact hhead t'
  | located l hmem htop hhead hleft =>
    have hne := ht l rfl
    rw [← img.entriesAt_wipe_of_ne hne, ← img.entriesAt_wipe_of_ne hne]
    refine .located l (mem_records_wipe.mpr ⟨hmem, hne⟩)
      (fun r hr => htop r (mem_records_wipe.mp hr).1) ?_ ?_
    · rw [img.headers_wipe_of_ne hne]
      exact hhead
    · rw [img.entriesAt_wipe_of_ne hne, img.entriesAt_wipe_of_ne hne]
      exact hleft

/-- A record of a generation above everything its image holds becomes the current one. -/
theorem Shows.activate {img₀ : Image} (loc : LocatedState)
    (hrec : ∀ r ∈ img₀.records, r.generation < loc.generation)
    (hhead : ∀ n ∈ img₀.headers loc.sector, n ≤ loc.generation.toNat)
    (hg : Grow hi loc.sector loc.generation.toNat X img₀ img) (ha : Activate loc img img') :
    Shows img' ⟨some loc, img₀.entriesAt loc.sector loc.generation.toNat ∪ X, ∅⟩ := by
  have hE : img'.entriesAt loc.sector loc.generation.toNat =
      img₀.entriesAt loc.sector loc.generation.toNat ∪ X := by
    ext x
    rw [ha.entries, hg.entries]
    simp
  have hhead' : ∀ n ∈ img'.headers loc.sector, n ≤ loc.generation.toNat := by
    intro n hn
    rcases hg.headers _ n (ha.headers _ n hn) with hn | ⟨-, rfl⟩
    · exact hhead n hn
    · exact Nat.le_refl _
  have hL : img'.entriesAt loc.sector (loc.generation.toNat + 1) = ∅ := by
    rw [Set.eq_empty_iff_forall_notMem]
    intro x hx
    have := hhead' _ (entriesAt_subset_headers hx)
    omega
  rw [← hE, ← hL]
  refine .located loc ((ha.records loc).mpr (Or.inr rfl)) ?_ ?_ ?_
  · intro r hr
    rcases (ha.records r).mp hr with hr | rfl
    · exact Or.inr (hrec r ((hg.records r).mp hr))
    · exact Or.inl rfl
  · exact fun n hn => Nat.le_succ_of_le (hhead' n hn)
  · rw [hL]
    exact Set.empty_subset _

end Transitions

end Zigbee.Runtime.SecurityJournal
