import Mathlib.Data.Set.Card
import Mathlib.Tactic.Tauto

/-!
# Bounded tables of monotone floors

A table keeps, for each key, the entry with the largest value seen so far.  Updates of a known key
only ever raise its value; an unknown key needs a free slot.

* `merge` — one update of a table of capacity `cap`; `none` when a new key does not fit.
* `mergeAll` — a table built from a list of updates.
* `IsFloors E t` — `t` is the floor table of the set `E` of updates: one entry per key of `E`, an
  update of largest value.
* `mergeAll_isFloors`, `mergeAll_isSome` — building a table computes the floors, and succeeds
  exactly when the distinct keys fit.
* `Covers` — a table that is short of the keys it has no room for.
* `IsFloors.pairs_eq` — the reported (key, value) pairs depend on the set of updates only.
-/

namespace FloorTable

variable {α κ : Type} (key : α → κ) (val : α → Nat)

/-- `t` holds, for every key of `E`, an update of `E` with the largest value. -/
structure IsFloors (E : Set α) (t : List α) : Prop where
  nodup : (t.map key).Nodup
  mem : ∀ y ∈ t, y ∈ E
  max : ∀ y ∈ t, ∀ z ∈ E, key z = key y → val z ≤ val y
  cover : ∀ z ∈ E, ∃ y ∈ t, key y = key z

variable {key val}

variable {E F : Set α} {t : List α}

theorem IsFloors.congr (h : IsFloors key val E t) (hEF : E = F) : IsFloors key val F t := hEF ▸ h

theorem IsFloors.empty : IsFloors key val (∅ : Set α) [] :=
  ⟨by simp, by simp, by simp, by simp⟩

/-- A table without duplicate keys is its own floor table. -/
theorem IsFloors.self (h : (t.map key).Nodup) : IsFloors key val {x | x ∈ t} t := by
  refine ⟨h, fun _ hy => hy, ?_, fun z hz => ⟨z, hz, rfl⟩⟩
  intro y hy z hz hk
  rw [List.inj_on_of_nodup_map h hz hy hk]

theorem IsFloors.exists_ge (h : IsFloors key val E t) {z : α} (hz : z ∈ E) :
    ∃ y ∈ t, key y = key z ∧ val z ≤ val y := by
  obtain ⟨y, hy, hk⟩ := h.cover z hz
  exact ⟨y, hy, hk, h.max y hy z hz hk.symm⟩

/-- Updates below a table change nothing. -/
theorem IsFloors.union (h : IsFloors key val E t) (hF : ∀ z ∈ F, ∃ y ∈ t, key y = key z ∧ val z ≤ val y) :
    IsFloors key val (F ∪ E) t := by
  refine ⟨h.nodup, fun y hy => Or.inr (h.mem y hy), ?_, ?_⟩
  · rintro y hy z (hz | hz) hk
    · obtain ⟨y', hy', hk', hle⟩ := hF z hz
      rwa [List.inj_on_of_nodup_map h.nodup hy' hy (hk'.trans hk)] at hle
    · exact h.max y hy z hz hk
  · rintro z (hz | hz)
    · obtain ⟨y, hy, hk, -⟩ := hF z hz
      exact ⟨y, hy, hk⟩
    · exact h.cover z hz

/-- Number of distinct keys of a set of updates. -/
noncomputable def keyCount (key : α → κ) (E : Set α) : ℕ∞ := (key '' E).encard

theorem keyCount_mono (h : ∀ x ∈ E, ∃ y ∈ F, key y = key x) : keyCount key E ≤ keyCount key F := by
  apply Set.encard_le_encard
  rintro _ ⟨x, hx, rfl⟩
  exact h x hx

variable {x : α}

theorem keyCount_insert_new (h : ∀ y ∈ E, key y ≠ key x) : keyCount key (insert x E) = keyCount key E + 1 := by
  unfold keyCount
  rw [Set.image_insert_eq, Set.encard_insert_of_notMem]
  rintro ⟨y, hy, hk⟩
  exact h y hy hk

theorem insert_union_mem (E : Set α) (x : α) (l : List α) :
    insert x E ∪ {y | y ∈ l} = E ∪ {y | y ∈ x :: l} := by
  ext y
  simp only [Set.mem_union, Set.mem_insert_iff, Set.mem_ofPred_eq, List.mem_cons]
  tauto

/-- The (key, value) pairs of a table. -/
def pairs (key : α → κ) (val : α → Nat) (t : List α) : Set (κ × Nat) :=
  {p | ∃ y ∈ t, p = (key y, val y)}

variable {t' : List α}

/-- **The report depends on the set of updates only.** -/
theorem IsFloors.pairs_eq (h : IsFloors key val E t) (h' : IsFloors key val E t') :
    pairs key val t = pairs key val t' := by
  have hsub : ∀ {u u' : List α}, IsFloors key val E u → IsFloors key val E u' →
      pairs key val u ⊆ pairs key val u' := by
    rintro u u' hu hu' p ⟨y, hy, rfl⟩
    obtain ⟨y', hy', hk⟩ := hu'.cover y (hu.mem y hy)
    refine ⟨y', hy', ?_⟩
    have h1 := hu.max y hy y' (hu'.mem y' hy') hk
    have h2 := hu'.max y' hy' y (hu.mem y hy) hk.symm
    rw [hk, Nat.le_antisymm h2 h1]
  exact Set.Subset.antisymm (hsub h h') (hsub h' h)

/-- The floor table of a part of `E`; what it leaves out are keys that it has no room for. -/
def Covers (key : α → κ) (val : α → Nat) (cap : Nat) (E : Set α) (t : List α) : Prop :=
  ∃ F ⊆ E, IsFloors key val F t ∧ ∀ z ∈ E, z ∉ F → cap ≤ t.length ∧ ∀ y ∈ t, key y ≠ key z

variable {cap : Nat}

theorem IsFloors.covers (h : IsFloors key val E t) : Covers key val cap E t :=
  ⟨E, subset_rfl, h, fun _ hz hn => absurd hz hn⟩

theorem Covers.max (h : Covers key val cap E t) {y z : α} (hy : y ∈ t) (hz : z ∈ E) (hk : key z = key y) :
    val z ≤ val y := by
  obtain ⟨F, -, hF, hout⟩ := h
  by_cases hzF : z ∈ F
  · exact hF.max y hy z hzF hk
  · exact absurd hk.symm ((hout z hz hzF).2 y hy)

/-! ## One update -/

variable [DecidableEq κ]

section

variable (key val)

/-- Raise the first entry with the key of `x`; `none` without one. -/
def raiseFirst : List α → α → Option (List α)
  | [], _ => none
  | s :: t, x =>
    if key s = key x then some ((if val s < val x then x else s) :: t)
    else (raiseFirst t x).map (s :: ·)

/-- One update; `none` when the table is full and the key is new. -/
def merge (cap : Nat) (t : List α) (x : α) : Option (List α) :=
  match raiseFirst key val t x with
  | some t' => some t'
  | none => if t.length < cap then some (t ++ [x]) else none

/-- A table built from updates in order. -/
def mergeAll (cap : Nat) (l : List α) : Option (List α) := l.foldlM (merge key val cap) []

end

theorem raiseFirst_none (h : raiseFirst key val t x = none) : ∀ s ∈ t, key s ≠ key x := by
  induction t with
  | nil => simp
  | cons s t ih =>
    simp only [raiseFirst] at h
    split at h
    · cases h
    · rename_i hne
      simp only [Option.map_eq_none_iff] at h
      intro y hy
      rcases List.mem_cons.mp hy with rfl | hy
      · exact hne
      · exact ih h y hy

theorem raiseFirst_some (h : raiseFirst key val t x = some t') :
    ∃ a s b, t = a ++ s :: b ∧ t' = a ++ (if val s < val x then x else s) :: b ∧ key s = key x := by
  induction t generalizing t' with
  | nil => simp [raiseFirst] at h
  | cons s t ih =>
    simp only [raiseFirst] at h
    split at h
    · rename_i hk
      cases h
      exact ⟨[], s, t, rfl, rfl, hk⟩
    · simp only [Option.map_eq_some_iff] at h
      obtain ⟨u, hu, rfl⟩ := h
      obtain ⟨a, s', b, rfl, rfl, hk⟩ := ih hu
      exact ⟨s :: a, s', b, rfl, rfl, hk⟩

/-- What an update of a table with distinct keys does to its entries. -/
theorem merge_isFloors (ht : IsFloors key val E t) (h : merge key val cap t x = some t') :
    IsFloors key val (insert x E) t' := by
  unfold merge at h
  split at h
  · rename_i u hu
    cases h
    obtain ⟨a, s, b, rfl, rfl, hk⟩ := raiseFirst_some hu
    have hnew : key (if val s < val x then x else s) = key s := by split <;> simp [hk]
    have hs : s ∈ a ++ s :: b := by simp
    have hother : ∀ y ∈ a ++ b, key y ≠ key s := by
      intro y hy he
      have hn := ht.nodup
      simp only [List.map_append, List.map_cons] at hn
      rw [List.nodup_middle] at hn
      have := (List.nodup_cons.mp hn).1
      apply this
      rw [← List.map_append, ← he]
      exact List.mem_map_of_mem hy
    refine ⟨?_, ?_, ?_, ?_⟩
    · have hn := ht.nodup
      simpa [hnew] using hn
    · intro y hy
      rcases List.mem_append.mp hy with hy | hy
      · exact Or.inr (ht.mem y (by simp [hy]))
      · rcases List.mem_cons.mp hy with rfl | hy
        · split
          · exact Or.inl rfl
          · exact Or.inr (ht.mem s hs)
        · exact Or.inr (ht.mem y (by simp [hy]))
    · intro y hy z hz hkz
      rcases List.mem_append.mp hy with hya | hyb
      · have hne := hother y (by simp [hya])
        rcases hz with rfl | hz
        · exact absurd (hkz.symm.trans hk.symm) hne
        · exact ht.max y (by simp [hya]) z hz hkz
      · rcases List.mem_cons.mp hyb with rfl | hyb
        · have hmax : ∀ z ∈ E, key z = key s → val z ≤ val s := ht.max s hs
          rcases hz with rfl | hz
          · split <;> omega
          · have := hmax z hz (hkz.trans hnew)
            split <;> omega
        · have hne := hother y (by simp [hyb])
          rcases hz with rfl | hz
          · exact absurd (hkz.symm.trans hk.symm) hne
          · exact ht.max y (by simp [hyb]) z hz hkz
    · intro z hz
      have hx : ∃ y ∈ a ++ (if val s < val x then x else s) :: b, key y = key s :=
        ⟨_, by simp, hnew⟩
      rcases hz with rfl | hz
      · rw [← hk]; exact hx
      · obtain ⟨y, hy, hyk⟩ := ht.cover z hz
        simp only [List.mem_append, List.mem_cons] at hy
        rcases hy with hy | rfl | hy
        · exact ⟨y, by simp [hy], hyk⟩
        · rw [← hyk]; exact hx
        · exact ⟨y, by simp [hy], hyk⟩
  · rename_i hu
    have hfresh := raiseFirst_none hu
    split at h
    · cases h
      refine ⟨?_, ?_, ?_, ?_⟩
      · rw [List.map_append, List.nodup_append]
        refine ⟨ht.nodup, by simp, ?_⟩
        intro k hk k' hk' he
        obtain ⟨y, hy, rfl⟩ := List.mem_map.mp hk
        simp only [List.map_cons, List.map_nil, List.mem_singleton] at hk'
        exact hfresh y hy (he.trans hk')
      · intro y hy
        rcases List.mem_append.mp hy with hy | hy
        · exact Or.inr (ht.mem y hy)
        · exact Or.inl (List.mem_singleton.mp hy)
      · intro y hy z hz hkz
        rcases List.mem_append.mp hy with hyt | hyx
        · rcases hz with rfl | hz
          · exact absurd hkz.symm (hfresh y hyt)
          · exact ht.max y hyt z hz hkz
        · rw [List.mem_singleton.mp hyx] at hkz ⊢
          rcases hz with rfl | hz
          · exact Nat.le_refl _
          · obtain ⟨y', hy', hk'⟩ := ht.cover z hz
            exact absurd (hk'.trans hkz) (hfresh y' hy')
      · intro z hz
        rcases hz with rfl | hz
        · exact ⟨z, by simp, rfl⟩
        · obtain ⟨y, hy, hk⟩ := ht.cover z hz
          exact ⟨y, by simp [hy], hk⟩
    · cases h

theorem merge_eq_none : merge key val cap t x = none ↔ (∀ s ∈ t, key s ≠ key x) ∧ cap ≤ t.length := by
  unfold merge
  cases hu : raiseFirst key val t x with
  | some u =>
    obtain ⟨a, s, b, rfl, -, hk⟩ := raiseFirst_some hu
    simp only [reduceCtorEq, false_iff, not_and]
    intro h
    exact absurd hk (h s (by simp))
  | none =>
    have := raiseFirst_none hu
    simp only [ite_eq_right_iff, reduceCtorEq, imp_false, Nat.not_lt]
    exact ⟨fun h => ⟨this, h⟩, fun h => h.2⟩

theorem merge_length_le (ht : t.length ≤ cap) (h : merge key val cap t x = some t') : t'.length ≤ cap := by
  unfold merge at h
  split at h
  · rename_i u hu
    cases h
    obtain ⟨a, s, b, rfl, rfl, -⟩ := raiseFirst_some hu
    simpa using ht
  · split at h
    · cases h; simp; omega
    · cases h

/-- A floor table has one entry for each key. -/
theorem IsFloors.length_eq (h : IsFloors key val E t) : (t.length : ℕ∞) = keyCount key E := by
  have hset : key '' E = ((t.map key).toFinset : Set κ) := by
    ext k
    simp only [Set.mem_image, List.coe_toFinset, List.mem_map, Set.mem_ofPred_eq]
    constructor
    · rintro ⟨z, hz, rfl⟩
      obtain ⟨y, hy, hk⟩ := h.cover z hz
      exact ⟨y, hy, hk⟩
    · rintro ⟨y, hy, rfl⟩
      exact ⟨y, h.mem y hy, rfl⟩
  unfold keyCount
  rw [hset, Set.encard_coe_eq_coe_finsetCard, List.toFinset_card_of_nodup h.nodup, List.length_map]

/-- A refused update is one whose key the capacity excludes. -/
theorem IsFloors.merge_isSome (ht : IsFloors key val E t) (hcap : keyCount key (insert x E) ≤ cap) :
    ∃ t', merge key val cap t x = some t' := by
  cases hm : merge key val cap t x with
  | some t' => exact ⟨t', rfl⟩
  | none =>
    exfalso
    obtain ⟨hfresh, hfull⟩ := merge_eq_none.mp hm
    have hnew : ∀ y ∈ E, key y ≠ key x := by
      intro y hy hk
      obtain ⟨s, hs, hsk⟩ := ht.cover y hy
      exact hfresh s hs (hsk.trans hk)
    rw [keyCount_insert_new hnew, ← ht.length_eq] at hcap
    have : t.length + 1 ≤ cap := by exact_mod_cast hcap
    omega

/-! ## A table short of keys -/

/-- A table is only short of keys where they do not fit. -/
theorem Covers.floors (h : Covers key val cap E t) (hcap : keyCount key E ≤ cap) : IsFloors key val E t := by
  obtain ⟨F, hFE, hF, hout⟩ := h
  refine hF.congr (Set.Subset.antisymm hFE fun z hz => ?_)
  by_contra hzF
  obtain ⟨hfull, hnew⟩ := hout z hz hzF
  have hne : ∀ w ∈ F, key w ≠ key z := fun w hw hk => by
    obtain ⟨y, hy, hyw⟩ := hF.cover w hw
    exact hnew y hy (hyw.trans hk)
  have hle : keyCount key (insert z F) ≤ cap := by
    refine le_trans (keyCount_mono ?_) hcap
    rintro w (rfl | hw)
    · exact ⟨w, hz, rfl⟩
    · exact ⟨w, hFE hw, rfl⟩
  rw [keyCount_insert_new hne, ← hF.length_eq] at hle
  have : t.length + 1 ≤ cap := by exact_mod_cast hle
  omega

theorem Covers.merge (h : Covers key val cap E t) (hm : FloorTable.merge key val cap t x = some t') :
    Covers key val cap (insert x E) t' := by
  obtain ⟨F, hFE, hF, hout⟩ := h
  refine ⟨insert x F, Set.insert_subset_insert hFE, merge_isFloors hF hm, ?_⟩
  rintro z (rfl | hz) hn
  · exact absurd (Set.mem_insert z F) hn
  · obtain ⟨hfull, hnew⟩ := hout z hz fun hzF => hn (Or.inr hzF)
    -- a full table only takes a key that it has
    unfold FloorTable.merge at hm
    split at hm
    · rename_i u hu
      cases hm
      obtain ⟨a, s, b, rfl, rfl, hk⟩ := raiseFirst_some hu
      have hs : key (if val s < val x then x else s) = key s := by split <;> simp [hk]
      refine ⟨by simpa using hfull, fun y hy => ?_⟩
      rcases List.mem_append.mp hy with hy | hy
      · exact hnew y (by simp [hy])
      · rcases List.mem_cons.mp hy with rfl | hy
        · rw [hs]
          exact hnew s (by simp)
        · exact hnew y (by simp [hy])
    · rw [if_neg (by omega)] at hm
      cases hm

/-- A refused update is one more key that the table has no room for. -/
theorem Covers.refused (h : Covers key val cap E t) (hm : FloorTable.merge key val cap t x = none) :
    Covers key val cap (insert x E) t := by
  obtain ⟨F, hFE, hF, hout⟩ := h
  obtain ⟨hnew, hfull⟩ := merge_eq_none.mp hm
  refine ⟨F, hFE.trans (Set.subset_insert x E), hF, ?_⟩
  rintro z (rfl | hz) hzF
  · exact ⟨hfull, hnew⟩
  · exact hout z hz hzF

/-! ## Tables built from a list of updates -/

variable {l : List α}

/-- Updating the table of `E` with every element of `l`. -/
theorem IsFloors.foldlM_isSome (ht : IsFloors key val E t) (hcap : keyCount key (E ∪ {x | x ∈ l}) ≤ cap) :
    ∃ t', l.foldlM (merge key val cap) t = some t' := by
  induction l generalizing E t with
  | nil => exact ⟨t, rfl⟩
  | cons x l ih =>
    rw [← insert_union_mem] at hcap
    have hle : keyCount key (insert x E) ≤ cap := by
      refine le_trans (keyCount_mono ?_) hcap
      exact fun y hy => ⟨y, Or.inl hy, rfl⟩
    obtain ⟨t1, hm⟩ := ht.merge_isSome hle
    obtain ⟨t', hf⟩ := ih (merge_isFloors ht hm) hcap
    refine ⟨t', ?_⟩
    simp [List.foldlM_cons, hm, hf]

theorem IsFloors.foldlM (ht : IsFloors key val E t) (h : l.foldlM (merge key val cap) t = some t') :
    IsFloors key val (E ∪ {x | x ∈ l}) t' := by
  induction l generalizing E t with
  | nil => cases h; simpa using ht
  | cons x l ih =>
    simp only [List.foldlM_cons, Option.bind_eq_bind, Option.bind_eq_some_iff] at h
    obtain ⟨t1, hm, h⟩ := h
    rw [← insert_union_mem]
    exact ih (merge_isFloors ht hm) h

theorem foldlM_merge_length_le (ht : t.length ≤ cap) (h : l.foldlM (merge key val cap) t = some t') :
    t'.length ≤ cap := by
  induction l generalizing t with
  | nil => cases h; exact ht
  | cons x l ih =>
    simp only [List.foldlM_cons, Option.bind_eq_bind, Option.bind_eq_some_iff] at h
    obtain ⟨t1, hm, h⟩ := h
    exact ih (merge_length_le ht hm) h

/-- **A built table is the floor table of its updates.** -/
theorem mergeAll_isFloors (h : mergeAll key val cap l = some t) : IsFloors key val {x | x ∈ l} t := by
  have h0 : IsFloors key val ∅ [] := IsFloors.empty
  simpa using h0.foldlM h

theorem mergeAll_length_le (h : mergeAll key val cap l = some t) : t.length ≤ cap :=
  foldlM_merge_length_le (Nat.zero_le _) h

/-- **A table can be built exactly when the distinct keys fit.** -/
theorem mergeAll_isSome (val : α → Nat) : (mergeAll key val cap l).isSome ↔ keyCount key {x | x ∈ l} ≤ cap := by
  constructor
  · intro h
    obtain ⟨t, ht⟩ := Option.isSome_iff_exists.mp h
    rw [← (mergeAll_isFloors ht).length_eq]
    exact_mod_cast mergeAll_length_le ht
  · intro h
    have h0 : IsFloors key val ∅ [] := IsFloors.empty
    obtain ⟨t, ht⟩ := h0.foldlM_isSome (l := l) (by simpa using h)
    exact Option.isSome_iff_exists.mpr ⟨t, ht⟩

end FloorTable
