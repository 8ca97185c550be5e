import Mathlib.Data.List.Permutation
import Mathlib.Order.Lattice

/-!
# Merging ranked copies

Copies of a record that carry two numbers and a core are merged two at a time, in the order they are met: the copy of
the larger pair of numbers stays, the later one of equals, and its second number is raised to the other's when the
cores are related.  The raise changes the rank that the next copy is compared with.

* `merge`, `loaded` — one merge, and a list of copies.
* `Safe` — the result does not depend on the order but for equal ranks, and loses no number.
* `Usurped`, `Overtaken` — the two ways in which it does.
* `safe_iff` — there is no other.
-/

namespace RankedMerge

structure Copy (κ : Type) where
  high : Nat
  low : Nat
  core : κ
  deriving DecidableEq

variable {κ : Type}

/-- The rank of the first copy is at most the second's. -/
def Copy.Le (a b : Copy κ) : Prop := a.high < b.high ∨ (a.high = b.high ∧ a.low ≤ b.low)

instance (a b : Copy κ) : Decidable (a.Le b) := inferInstanceAs (Decidable (_ ∨ _))

theorem Copy.Le.refl (a : Copy κ) : a.Le a := Or.inr ⟨rfl, le_rfl⟩

variable {a b c : Copy κ}

open Copy

theorem Copy.Le.trans (h : a.Le b) (h' : b.Le c) : a.Le c := by
  unfold Le at *
  omega

theorem Copy.le_total (a b : Copy κ) : a.Le b ∨ b.Le a := by
  unfold Le
  omega

variable (Same : κ → κ → Prop) [DecidableRel Same]

def merge (a b : Copy κ) : Copy κ :=
  let chosen := if a.Le b then b else a
  ⟨max a.high b.high, if Same a.core b.core then max a.low b.low else chosen.low, chosen.core⟩

def mergeStep (acc : Option (Copy κ)) (c : Copy κ) : Option (Copy κ) := some (acc.elim c (merge Same · c))

/-- The copies merged in their order. -/
def loaded (l : List (Copy κ)) : Option (Copy κ) := l.foldl (mergeStep Same) none

/-! ## What is asked of the merge -/

omit [DecidableRel Same] in
/-- Copies of equal rank are met in the same order. -/
def SameTies (l l' : List (Copy κ)) : Prop :=
  ∀ high low, (l.filter fun c => c.high = high ∧ c.low = low) = l'.filter fun c => c.high = high ∧ c.low = low

/-- The result depends on the order of equal ranks only, and covers every copy's first number, and the second of every
    copy with a related core. -/
structure Safe (s : List (Copy κ)) : Prop where
  orderFree : ∀ l l' : List (Copy κ), l.Perm s → l'.Perm s → SameTies l l' → loaded Same l = loaded Same l'
  covers : ∀ l : List (Copy κ), l.Perm s → ∀ r ∈ loaded Same l, ∀ c ∈ s, c.high ≤ r.high ∧ (Same c.core r.core → c.low ≤ r.low)

omit [DecidableRel Same] in
def Top (s : List (Copy κ)) (w : Copy κ) : Prop := w ∈ s ∧ ∀ c ∈ s, c.Le w

omit [DecidableRel Same] in
/-- A copy with the largest first number and another core than a top copy can be raised above it. -/
def Usurped (s : List (Copy κ)) : Prop :=
  ∃ w, Top s w ∧ ∃ x ∈ s, ∃ y ∈ s, x.high = w.high ∧ x.core ≠ w.core ∧ y.high < w.high ∧ Same y.core x.core ∧ w.low < y.low

omit [DecidableRel Same] in
/-- The copy of the largest second number that a top copy is raised to. -/
def Raises (s : List (Copy κ)) (w j : Copy κ) : Prop :=
  j ∈ s ∧ Same j.core w.core ∧ w.low < j.low ∧
    ∀ c ∈ s, Same c.core w.core → c.low < j.low ∨ (c.low = j.low ∧ c.high ≤ j.high)

omit [DecidableRel Same] in
/-- A top copy is raised by a copy that another one, of an unrelated core, is ranked above or can be raised above. -/
def Overtaken (s : List (Copy κ)) : Prop :=
  ∃ w, Top s w ∧ ∃ j, Raises Same s w j ∧ ∃ m ∈ s, ¬ Same m.core w.core ∧
    (j.Le m ∨ ∃ y ∈ s, Same y.core m.core ∧ y.high < m.high ∧ (j.high < m.high ∨ (j.high = m.high ∧ j.low < y.low)))

/-- The last of the largest elements of a list. -/
theorem exists_last_max {α : Type} {R : α → α → Prop} (total : ∀ a b, R a b ∨ R b a) (trans : ∀ a b c, R a b → R b c → R a c)
    {l : List α} (h : l ≠ []) : ∃ p w q, l = p ++ w :: q ∧ (∀ c ∈ p, R c w) ∧ ∀ c ∈ q, ¬ R w c := by
  induction l with
  | nil => exact absurd rfl h
  | cons a l ih =>
    by_cases hl : l = []
    · exact ⟨[], a, [], by rw [hl]; rfl, nofun, nofun⟩
    obtain ⟨p, w, q, rfl, hp, hq⟩ := ih hl
    by_cases haw : R a w
    · refine ⟨a :: p, w, q, rfl, fun c hc => ?_, hq⟩
      rcases List.mem_cons.mp hc with rfl | hc
      · exact haw
      · exact hp c hc
    · refine ⟨[], a, p ++ w :: q, rfl, nofun, fun c hc hac => ?_⟩
      rcases List.mem_append.mp hc with hc | hc
      · exact haw (trans _ _ _ hac (hp c hc))
      · rcases List.mem_cons.mp hc with rfl | hc
        · exact haw hac
        · have hwa : R w a := (total a w).resolve_left haw
          exact hq c hc (trans _ _ _ hwa hac)

/-! ## One merge -/

variable {Same}

theorem merge_of_le (h : a.Le b) : merge Same a b = ⟨b.high, if Same a.core b.core then max a.low b.low else b.low, b.core⟩ := by
  have hmax : max a.high b.high = b.high := by
    unfold Le at h
    omega
  rw [merge, if_pos h, hmax]

theorem merge_of_not_le (h : ¬ a.Le b) : merge Same a b = ⟨a.high, if Same a.core b.core then max a.low b.low else a.low, a.core⟩ := by
  have hmax : max a.high b.high = a.high := by
    unfold Le at h
    omega
  rw [merge, if_neg h, hmax]

@[simp] theorem merge_self (a : Copy κ) : merge Same a a = a := by
  rw [merge_of_le (Copy.Le.refl a), max_self, ite_self]

theorem loaded_concat (l : List (Copy κ)) (c : Copy κ) : loaded Same (l ++ [c]) = some ((loaded Same l).elim c (merge Same · c)) := by
  rw [loaded, List.foldl_append]
  rfl

variable (Same) in
theorem loaded_isSome {l : List (Copy κ)} (h : l ≠ []) : ∃ r, loaded Same l = some r := by
  obtain ⟨l, c, rfl⟩ := List.eq_nil_or_concat l |>.resolve_left h
  rw [List.concat_eq_append]
  exact ⟨_, loaded_concat l c⟩

variable {r : Copy κ}

/-- An invariant of merging a list. -/
theorem loaded_induct {P : List (Copy κ) → Copy κ → Prop} (hone : ∀ c, P [c] c) (hstep : ∀ l a c, P l a → P (l ++ [c]) (merge Same a c))
    {l : List (Copy κ)} (h : loaded Same l = some r) : P l r := by
  induction l using List.reverseRecOn generalizing r with
  | nil => cases h
  | append_singleton l c ih =>
    rw [loaded_concat] at h
    cases Option.some.inj h
    cases hl : loaded Same l with
    | none =>
      have hnil : l = [] := by
        by_contra hne
        obtain ⟨r, hr⟩ := loaded_isSome Same hne
        rw [hr] at hl
        cases hl
      rw [hnil]
      exact hone c
    | some a => exact hstep l a c (ih hl)

/-! ## Where the parts of the result come from -/

/-- The result has the core and the first number of a copy, and the second number of that copy or of a smaller one with
    a related core. -/
def From (Same : κ → κ → Prop) (l : List (Copy κ)) (a : Copy κ) : Prop :=
  ∃ m ∈ l, a.core = m.core ∧ a.high = m.high ∧
    (a.low = m.low ∨ ∃ y ∈ l, Same y.core m.core ∧ y.high < m.high ∧ a.low = y.low)

variable (hsymm : ∀ a b, Same a b → Same b a) (htrans : ∀ a b c, Same a b → Same b c → Same a c)

include hsymm htrans

theorem From.merge {l : List (Copy κ)} (h : From Same l a) : From Same (l ++ [c]) (merge Same a c) := by
  have hc : c ∈ l ++ [c] := List.mem_append_right l List.mem_cons_self
  have hl : ∀ {x}, x ∈ l → x ∈ l ++ [c] := fun hx => List.mem_append_left [c] hx
  obtain ⟨m, hm, hcore, hhigh, hlow⟩ := h
  by_cases hle : a.Le c
  · rw [merge_of_le hle]
    refine ⟨c, hc, rfl, rfl, ?_⟩
    dsimp only
    split
    · rename_i hsame
      by_cases hraised : a.low ≤ c.low
      · exact Or.inl (max_eq_right hraised)
      · -- the copy is raised to the number of the result so far
        right
        have hlt : a.high < c.high := by
          unfold Le at hle
          omega
        rw [max_eq_left (by omega)]
        rcases hlow with hlow | ⟨y, hy, hsamey, hylt, hlow⟩
        · exact ⟨m, hl hm, hcore ▸ hsame, by omega, hlow⟩
        · exact ⟨y, hl hy, htrans _ _ _ hsamey (hcore ▸ hsame), by omega, hlow⟩
    · exact Or.inl rfl
  · rw [merge_of_not_le hle]
    refine ⟨m, hl hm, hcore, hhigh, ?_⟩
    dsimp only
    have hkeep : a.low = m.low ∨ ∃ y ∈ l ++ [c], Same y.core m.core ∧ y.high < m.high ∧ a.low = y.low := by
      rcases hlow with hlow | ⟨y, hy, hrest⟩
      · exact Or.inl hlow
      · exact Or.inr ⟨y, hl hy, hrest⟩
    split
    · rename_i hsame
      by_cases hraised : c.low ≤ a.low
      · rw [max_eq_left hraised]
        exact hkeep
      · right
        have hlt : c.high < a.high := by
          unfold Le at hle
          omega
        exact ⟨c, hc, hsymm _ _ (hcore ▸ hsame), by omega, max_eq_right (by omega)⟩
    · exact hkeep

theorem loaded_from {l : List (Copy κ)} (h : loaded Same l = some r) : From Same l r := by
  refine loaded_induct (P := From Same) (fun c => ?_) (fun l a c hfrom => hfrom.merge hsymm htrans) h
  exact ⟨c, List.mem_cons_self, rfl, rfl, Or.inl rfl⟩

/-- A bound on the second numbers of the copies of a kind is one on the result. -/
theorem loaded_low_le {k : κ} {b : Nat} {l : List (Copy κ)} (hb : ∀ c ∈ l, Same c.core k → c.low ≤ b) (h : loaded Same l = some r)
    (hr : Same r.core k) : r.low ≤ b := by
  obtain ⟨m, hm, hcore, -, hlow⟩ := loaded_from hsymm htrans h
  have hmk : Same m.core k := hcore ▸ hr
  rcases hlow with hlow | ⟨y, hy, hsame, -, hlow⟩
  · rw [hlow]
    exact hb m hm hmk
  · rw [hlow]
    exact hb y hy (htrans _ _ _ hsame hmk)

omit hsymm htrans in
variable (Same) in
/-- Smaller copies do not displace the result. -/
theorem foldl_keeps {w : Copy κ} (q : List (Copy κ)) (hhigh : a.high = w.high) (hlow : w.low ≤ a.low) (hq : ∀ c ∈ q, ¬ w.Le c) :
    ∃ r, q.foldl (mergeStep Same) (some a) = some r ∧ r.core = a.core ∧ r.high = w.high ∧ a.low ≤ r.low ∧
      ∀ c ∈ q, Same a.core c.core → c.low ≤ r.low := by
  induction q generalizing a with
  | nil => exact ⟨a, rfl, rfl, hhigh, le_rfl, fun c hc => absurd hc List.not_mem_nil⟩
  | cons c q ih =>
    have hc := hq c List.mem_cons_self
    have hnot : ¬ a.Le c := by
      unfold Le at *
      omega
    have hmerge : merge Same a c = _ := merge_of_not_le hnot
    have hraise : a.low ≤ (merge Same a c).low := by
      rw [hmerge]
      dsimp only
      split
      · exact le_max_left _ _
      · exact le_rfl
    have hcore : (merge Same a c).core = a.core := by rw [hmerge]
    obtain ⟨r, hr, hrcore, hrhigh, hrlow, hcovers⟩ := ih (a := merge Same a c) (by rw [hmerge]; exact hhigh) (hlow.trans hraise)
      (fun d hd => hq d (List.mem_cons_of_mem c hd))
    refine ⟨r, hr, hrcore.trans hcore, hrhigh, hraise.trans hrlow, fun d hd hsame => ?_⟩
    rcases List.mem_cons.mp hd with rfl | hd
    · have : d.low ≤ (merge Same a d).low := by
        rw [hmerge]
        dsimp only
        rw [if_pos hsame]
        exact le_max_right _ _
      exact this.trans hrlow
    · exact hcovers d hd (by rw [hcore]; exact hsame)

/-! ## The order does not matter -/

omit hsymm htrans [DecidableRel Same] in
/-- The last of the copies with the largest rank. -/
theorem exists_last_top {l : List (Copy κ)} (h : l ≠ []) : ∃ p w q, l = p ++ w :: q ∧ (∀ c ∈ p, c.Le w) ∧ ∀ c ∈ q, ¬ w.Le c :=
  exists_last_max le_total (fun _ _ _ => Copy.Le.trans) h

omit hsymm htrans [DecidableRel Same] in
theorem exists_raises {s : List (Copy κ)} {w : Copy κ} (hc : c ∈ s) (hsame : Same c.core w.core) (hlow : w.low < c.low) :
    ∃ j, Raises Same s w j := by
  classical
  have hne : (s.filter fun c => Same c.core w.core) ≠ [] := List.ne_nil_of_mem (List.mem_filter.mpr ⟨hc, decide_eq_true hsame⟩)
  obtain ⟨p, j, q, hsplit, hp, hq⟩ := exists_last_max
    (R := fun a b : Copy κ => a.low < b.low ∨ (a.low = b.low ∧ a.high ≤ b.high)) (fun a b => by omega) (fun a b c => by omega) hne
  have hmem : ∀ d, d ∈ s ∧ Same d.core w.core ↔ d ∈ p ++ j :: q := by
    intro d
    rw [← hsplit, List.mem_filter, decide_eq_true_iff]
  have hmax : ∀ d ∈ s, Same d.core w.core → d.low < j.low ∨ (d.low = j.low ∧ d.high ≤ j.high) := by
    intro d hd hdw
    rcases List.mem_append.mp ((hmem d).mp ⟨hd, hdw⟩) with hd | hd
    · exact hp d hd
    · rcases List.mem_cons.mp hd with rfl | hd
      · exact Or.inr ⟨rfl, le_rfl⟩
      · have := hq d hd
        omega
  obtain ⟨hjs, hjw⟩ := (hmem j).mpr (List.mem_append_right p List.mem_cons_self)
  have := hmax c hc hsame
  exact ⟨j, hjs, hjw, by omega, hmax⟩

/-- The core of a top copy stays from its merge on. -/
theorem core_after_top {s p : List (Copy κ)} {w : Copy κ} (husurped : ¬ Usurped Same s) (hw : Top s w) (hsub : ∀ c ∈ p, c ∈ s) :
    ∃ r, loaded Same (p ++ [w]) = some r ∧ r.core = w.core ∧ r.high = w.high ∧ w.low ≤ r.low := by
  rw [loaded_concat]
  cases hp : loaded Same p with
  | none => exact ⟨w, rfl, rfl, rfl, le_rfl⟩
  | some a =>
    refine ⟨_, rfl, ?_⟩
    rw [Option.elim_some]
    by_cases hle : a.Le w
    · rw [merge_of_le hle]
      refine ⟨rfl, rfl, ?_⟩
      dsimp only
      split
      · exact le_max_right _ _
      · exact le_rfl
    · obtain ⟨m, hm, hcore, hhigh, hlow⟩ := loaded_from hsymm htrans hp
      have hmw := hw.2 m (hsub m hm)
      unfold Le at hle hmw
      rw [merge_of_not_le (by unfold Le; exact hle)]
      rcases hlow with hlow | ⟨y, hy, hsame, hylt, hlow⟩
      · omega
      · -- then the cores are the same, by the absence of a usurper
        have hsamecore : m.core = w.core := by
          by_contra hne
          exact husurped ⟨w, hw, m, hsub m hm, y, hsub y hy, by omega, hne, by omega, hsame, by omega⟩
        refine ⟨hcore.trans hsamecore, by dsimp only; omega, ?_⟩
        dsimp only
        split
        · exact le_max_right _ _
        · omega

/-- Once the raising copy is met, the result keeps its second number until the top copy takes it. -/
theorem raised_before_top {s p : List (Copy κ)} {w j : Copy κ} (hovertaken : ¬ Overtaken Same s) (hw : Top s w)
    (hj : Raises Same s w j) (hsub : ∀ c ∈ p, c ∈ s) (hjp : j ∈ p) :
    ∃ r, loaded Same p = some r ∧ Same r.core w.core ∧ r.low = j.low ∧ j.high ≤ r.high := by
  obtain ⟨hjs, hjw, hjlow, hmax⟩ := hj
  have hbound : ∀ c ∈ p, Same c.core w.core → c.low ≤ j.low := by
    intro c hc hcw
    have := hmax c (hsub c hc) hcw
    omega
  induction p using List.reverseRecOn with
  | nil => exact absurd hjp List.not_mem_nil
  | append_singleton p c ih =>
    have hsubp : ∀ d ∈ p, d ∈ s := fun d hd => hsub d (List.mem_append_left [c] hd)
    have hcs : c ∈ s := hsub c (List.mem_append_right p List.mem_cons_self)
    have hcbound := hbound c (List.mem_append_right p List.mem_cons_self)
    have hbound' : ∀ d ∈ p, Same d.core w.core → d.low ≤ j.low := fun d hd => hbound d (List.mem_append_left [c] hd)
    rw [loaded_concat]
    by_cases hjp' : j ∈ p
    case pos =>
      obtain ⟨a, ha, haw, halow, hahigh⟩ := ih hsubp hjp' hbound'
      rw [ha, Option.elim_some]
      refine ⟨_, rfl, ?_⟩
      by_cases hcw : Same c.core w.core
      · have hac : Same a.core c.core := htrans _ _ _ haw (hsymm _ _ hcw)
        have hlow := hcbound hcw
        by_cases hle : a.Le c
        · rw [merge_of_le hle, if_pos hac]
          unfold Le at hle
          exact ⟨hcw, by dsimp only; omega, by dsimp only; omega⟩
        · rw [merge_of_not_le hle, if_pos hac]
          exact ⟨haw, by dsimp only; omega, hahigh⟩
      · have hac : ¬ Same a.core c.core := fun hac => hcw (htrans _ _ _ (hsymm _ _ hac) haw)
        have hnot : ¬ a.Le c := by
          intro hle
          refine hovertaken ⟨w, hw, j, ⟨hjs, hjw, hjlow, hmax⟩, c, hcs, hcw, Or.inl ?_⟩
          unfold Le at *
          omega
        rw [merge_of_not_le hnot, if_neg hac]
        exact ⟨haw, halow, hahigh⟩
    case neg =>
      have hcj : j = c := by
        rcases List.mem_append.mp hjp with hmem | hmem
        · exact absurd hmem hjp'
        · exact List.mem_singleton.mp hmem
      subst hcj
      cases hp : loaded Same p with
      | none => exact ⟨j, rfl, hjw, rfl, le_rfl⟩
      | some a =>
        refine ⟨_, rfl, ?_⟩
        rw [Option.elim_some]
        by_cases haw : Same a.core w.core
        · have haj : Same a.core j.core := htrans _ _ _ haw (hsymm _ _ hjw)
          have hlow := loaded_low_le hsymm htrans hbound' hp haw
          by_cases hle : a.Le j
          · rw [merge_of_le hle, if_pos haj]
            exact ⟨hjw, by dsimp only; omega, le_rfl⟩
          · rw [merge_of_not_le hle, if_pos haj]
            unfold Le at hle
            exact ⟨haw, by dsimp only; omega, by dsimp only; omega⟩
        · have haj : ¬ Same a.core j.core := fun haj => haw (htrans _ _ _ haj hjw)
          -- an unrelated copy is not above the raising one
          have hle : a.Le j := by
            by_contra hnot
            obtain ⟨m, hm, hcore, hhigh, hlow⟩ := loaded_from hsymm htrans hp
            rw [hcore] at haw
            refine hovertaken ⟨w, hw, j, ⟨hjs, hjw, hjlow, hmax⟩, m, hsubp m hm, haw, ?_⟩
            unfold Le at hnot ⊢
            rcases hlow with hlow | ⟨y, hy, hsame, hylt, hlow⟩
            · left
              omega
            · right
              exact ⟨y, hsubp y hy, hsame, hylt, by omega⟩
          rw [merge_of_le hle, if_neg haj]
          exact ⟨hjw, rfl, le_rfl⟩

/-- What the result is made of: the last top copy, and the largest second number of the copies related to it. -/
structure Documented (Same : κ → κ → Prop) (s : List (Copy κ)) (w r : Copy κ) : Prop where
  core : r.core = w.core
  high : r.high = w.high
  low : w.low ≤ r.low
  covers : ∀ c ∈ s, Same c.core w.core → c.low ≤ r.low
  attained : r.low = w.low ∨ ∃ c ∈ s, Same c.core w.core ∧ r.low = c.low

omit hsymm htrans [DecidableRel Same] in
theorem Documented.unique {s : List (Copy κ)} {w r' : Copy κ} (h : Documented Same s w r) (h' : Documented Same s w r') : r = r' := by
  have hle : ∀ {a b : Copy κ}, Documented Same s w a → Documented Same s w b → a.low ≤ b.low := by
    intro a b ha hb
    rcases ha.attained with hlow | ⟨c, hc, hsame, hlow⟩
    · rw [hlow]
      exact hb.low
    · rw [hlow]
      exact hb.covers c hc hsame
  have hlow := le_antisymm (hle h h') (hle h' h)
  have hhigh := h.high.trans h'.high.symm
  have hcore := h.core.trans h'.core.symm
  cases r
  cases r'
  cases hlow
  cases hhigh
  cases hcore
  rfl

theorem loaded_documented {s p q : List (Copy κ)} {w : Copy κ} (husurped : ¬ Usurped Same s) (hovertaken : ¬ Overtaken Same s)
    (hperm : (p ++ w :: q).Perm s) (hp : ∀ c ∈ p, c.Le w) (hq : ∀ c ∈ q, ¬ w.Le c) :
    ∃ r, loaded Same (p ++ w :: q) = some r ∧ Documented Same s w r := by
  have hmem : ∀ c, c ∈ s ↔ c ∈ p ∨ c = w ∨ c ∈ q := by
    intro c
    rw [← hperm.mem_iff, List.mem_append, List.mem_cons]
  have hw : Top s w := by
    refine ⟨(hmem w).mpr (Or.inr (Or.inl rfl)), fun c hc => ?_⟩
    rcases (hmem c).mp hc with hc | rfl | hc
    · exact hp c hc
    · exact Copy.Le.refl c
    · exact (le_total c w).resolve_right (hq c hc)
  have hps : ∀ c ∈ p, c ∈ s := fun c hc => (hmem c).mpr (Or.inl hc)
  obtain ⟨a, ha, hacore, hahigh, halow⟩ := core_after_top hsymm htrans husurped hw hps
  obtain ⟨r, hr, hrcore, hrhigh, hrlow, hcovers⟩ := foldl_keeps Same q hahigh halow hq
  have hload : loaded Same (p ++ w :: q) = some r := by
    have hsplit : p ++ w :: q = (p ++ [w]) ++ q := by simp
    rw [hsplit, loaded, List.foldl_append]
    rw [loaded] at ha
    rw [ha]
    exact hr
  have hcore : r.core = w.core := hrcore.trans hacore
  refine ⟨r, hload, hcore, hrhigh, halow.trans hrlow, fun c hc hcw => ?_, ?_⟩
  · by_cases hraise : c.low ≤ w.low
    · exact hraise.trans (halow.trans hrlow)
    -- the raising copy comes before the top copy, or after it
    obtain ⟨j, hj⟩ := exists_raises hc hcw (by omega)
    have hcj : c.low ≤ j.low := by
      have := hj.2.2.2 c hc hcw
      omega
    refine hcj.trans ?_
    rcases (hmem j).mp hj.1 with hjp | rfl | hjq
    · obtain ⟨b, hb, hbw, hblow, -⟩ := raised_before_top hsymm htrans hovertaken hw hj hps hjp
      rw [loaded_concat, hb, Option.elim_some] at ha
      cases Option.some.inj ha
      have hlow : b.low ≤ (merge Same b w).low := by
        unfold merge
        dsimp only
        rw [if_pos hbw]
        exact le_max_left _ _
      rw [← hblow]
      exact hlow.trans hrlow
    · exact absurd hj.2.2.1 (lt_irrefl _)
    · exact hcovers j hjq (by rw [hacore]; exact hsymm _ _ hj.2.1)
  · obtain ⟨m, hm, hmcore, hmhigh, hlow⟩ := loaded_from hsymm htrans hload
    have hms : m ∈ s := hperm.mem_iff.mp hm
    rcases hlow with hlow | ⟨y, hy, hsame, -, hlow⟩
    · left
      have hmw := hw.2 m hms
      have := halow.trans hrlow
      unfold Le at hmw
      omega
    · exact Or.inr ⟨y, hperm.mem_iff.mp hy, by rw [← hcore, hmcore]; exact hsame, hlow⟩

omit hsymm htrans [DecidableRel Same] in
/-- The copies of the largest rank, of which the last is known. -/
theorem filter_ties {p q : List (Copy κ)} {w : Copy κ} (hq : ∀ c ∈ q, ¬ w.Le c) :
    ((p ++ w :: q).filter fun c => c.high = w.high ∧ c.low = w.low) = (p.filter fun c => c.high = w.high ∧ c.low = w.low) ++ [w] := by
  have hnone : (q.filter fun c => c.high = w.high ∧ c.low = w.low) = [] := by
    rw [List.filter_eq_nil_iff]
    intro c hc htie
    rw [decide_eq_true_iff] at htie
    exact hq c hc (Or.inr ⟨htie.1.symm, htie.2.ge⟩)
  rw [List.filter_append, List.filter_cons_of_pos (by simp), hnone]

omit hsymm htrans [DecidableRel Same] in
/-- The last copies of the largest rank of two orders agree. -/
theorem last_top_unique {p q p' q' : List (Copy κ)} {w w' : Copy κ} (hperm : (p ++ w :: q).Perm (p' ++ w' :: q'))
    (hties : SameTies (p ++ w :: q) (p' ++ w' :: q')) (hp : ∀ c ∈ p, c.Le w) (hq : ∀ c ∈ q, ¬ w.Le c) (hp' : ∀ c ∈ p', c.Le w')
    (hq' : ∀ c ∈ q', ¬ w'.Le c) : w = w' := by
  have hle : ∀ {p q : List (Copy κ)} {w c : Copy κ}, (∀ c ∈ p, c.Le w) → (∀ c ∈ q, ¬ w.Le c) → c ∈ p ++ w :: q → c.Le w := by
    intro p q w c hp hq hc
    rcases List.mem_append.mp hc with hc | hc
    · exact hp c hc
    · rcases List.mem_cons.mp hc with rfl | hc
      · exact Copy.Le.refl c
      · exact (le_total c w).resolve_right (hq c hc)
  have hww' : w.Le w' := hle hp' hq' (hperm.mem_iff.mp (by simp))
  have hw'w : w'.Le w := hle hp hq (hperm.mem_iff.mpr (by simp))
  have hhigh : w'.high = w.high := by
    unfold Le at *
    omega
  have hlow : w'.low = w.low := by
    unfold Le at *
    omega
  have hfilter := hties w.high w.low
  have hlast := filter_ties (p := p') hq'
  rw [hhigh, hlow] at hlast
  rw [filter_ties hq, hlast] at hfilter
  exact List.singleton_inj.mp (List.append_inj' hfilter rfl).2

theorem safe_of_not {s : List (Copy κ)} (husurped : ¬ Usurped Same s) (hovertaken : ¬ Overtaken Same s) : Safe Same s := by
  refine ⟨fun l l' hl hl' hties => ?_, fun l hl r hr c hc => ?_⟩
  · by_cases hnil : l = []
    · rw [hnil] at hl
      rw [hnil, List.Perm.eq_nil (hl'.trans hl.symm)]
    have hnil' : l' ≠ [] := fun h => hnil (List.Perm.eq_nil (by rw [h] at hl'; exact hl.trans hl'.symm))
    obtain ⟨p, w, q, rfl, hp, hq⟩ := exists_last_top hnil
    obtain ⟨p', w', q', rfl, hp', hq'⟩ := exists_last_top hnil'
    obtain rfl := last_top_unique (hl.trans hl'.symm) hties hp hq hp' hq'
    obtain ⟨r, hr, hdoc⟩ := loaded_documented hsymm htrans husurped hovertaken hl hp hq
    obtain ⟨r', hr', hdoc'⟩ := loaded_documented hsymm htrans husurped hovertaken hl' hp' hq'
    rw [hr, hr', hdoc.unique hdoc']
  · have hnil : l ≠ [] := fun h => by rw [h] at hr; cases hr
    obtain ⟨p, w, q, rfl, hp, hq⟩ := exists_last_top hnil
    obtain ⟨r', hr', hdoc⟩ := loaded_documented hsymm htrans husurped hovertaken hl hp hq
    rw [hr', Option.mem_some_iff] at hr
    subst hr
    refine ⟨?_, fun hsame => hdoc.covers c hc (by rw [← hdoc.core]; exact hsame)⟩
    have hcw : c.Le w := by
      rcases List.mem_append.mp (hl.mem_iff.mpr hc) with hcp | hcq
      · exact hp c hcp
      · rcases List.mem_cons.mp hcq with rfl | hcq
        · exact Copy.Le.refl c
        · exact (le_total c w).resolve_right (hq c hcq)
    rw [hdoc.high]
    unfold Le at hcw
    omega

/-! ## The order matters -/

omit hsymm htrans [DecidableRel Same] in
/-- The copies of one rank can be met first. -/
theorem sameTies_first (l : List (Copy κ)) (w : Copy κ) :
    SameTies l ((l.filter fun c => c.high = w.high ∧ c.low = w.low) ++ l.filter fun c => !decide (c.high = w.high ∧ c.low = w.low)) := by
  intro high low
  rw [List.filter_append, List.filter_filter, List.filter_filter]
  by_cases heq : high = w.high ∧ low = w.low
  · obtain ⟨rfl, rfl⟩ := heq
    have hnone : (l.filter fun c => decide (c.high = w.high ∧ c.low = w.low) && !decide (c.high = w.high ∧ c.low = w.low)) = [] := by
      rw [List.filter_eq_nil_iff]
      simp
    rw [hnone, List.append_nil]
    exact List.filter_congr fun c _ => (Bool.and_self _).symm
  · have hnone : (l.filter fun c => decide (c.high = high ∧ c.low = low) && decide (c.high = w.high ∧ c.low = w.low)) = [] := by
      rw [List.filter_eq_nil_iff]
      intro c _ hc
      rw [Bool.and_eq_true, decide_eq_true_iff, decide_eq_true_iff] at hc
      exact heq ⟨hc.1.1.symm.trans hc.2.1, hc.1.2.symm.trans hc.2.2⟩
    rw [hnone, List.nil_append]
    refine List.filter_congr fun c _ => ?_
    by_cases hc : c.high = high ∧ c.low = low
    · have hnot : ¬ (c.high = w.high ∧ c.low = w.low) := fun h => heq ⟨hc.1.symm.trans h.1, hc.2.symm.trans h.2⟩
      rw [decide_eq_true hc, decide_eq_false hnot]
      rfl
    · rw [decide_eq_false hc, Bool.false_and]

/-- The order with the top copies first ends with the core of the last of them. -/
theorem core_of_orderFree {s p q : List (Copy κ)} {w : Copy κ} (hsafe : Safe Same s) (hperm : (p ++ w :: q).Perm s) (hp : ∀ c ∈ p, c.Le w)
    (hq : ∀ c ∈ q, ¬ w.Le c) (hr : loaded Same (p ++ w :: q) = some r) : r.core = w.core := by
  have hties := filter_ties (p := p) hq
  have hload := hsafe.orderFree _ _ hperm ((List.filter_append_perm _ _).trans hperm) (sameTies_first (p ++ w :: q) w)
  rw [hr, hties] at hload
  -- the top copies have one rank, so the last of them stays
  have hfirst : ∃ a, loaded Same ((p.filter fun c => c.high = w.high ∧ c.low = w.low) ++ [w]) = some a ∧ a.core = w.core ∧ a.high = w.high ∧ w.low ≤ a.low := by
    rw [loaded_concat]
    cases ht : loaded Same (p.filter fun c => c.high = w.high ∧ c.low = w.low) with
    | none => exact ⟨w, rfl, rfl, rfl, le_rfl⟩
    | some b =>
      have htie : ∀ c ∈ p.filter fun c => c.high = w.high ∧ c.low = w.low, c.high = w.high ∧ c.low = w.low :=
        fun c hc => of_decide_eq_true (List.mem_filter.mp hc).2
      obtain ⟨m, hm, -, hhigh, hlow⟩ := loaded_from hsymm htrans ht
      have hmtie := htie m hm
      have hblow : b.low = w.low := by
        rcases hlow with hlow | ⟨y, hy, -, hylt, -⟩
        · exact hlow.trans hmtie.2
        · have := htie y hy
          omega
      refine ⟨_, rfl, ?_⟩
      rw [Option.elim_some, merge_of_le (Or.inr ⟨hhigh.trans hmtie.1, hblow.le⟩)]
      refine ⟨rfl, rfl, ?_⟩
      dsimp only
      split
      · exact le_max_right _ _
      · exact le_rfl
  obtain ⟨a, ha, hacore, hahigh, halow⟩ := hfirst
  have hrest : ∀ c ∈ (p ++ w :: q).filter fun c => !decide (c.high = w.high ∧ c.low = w.low), ¬ w.Le c := by
    intro c hc hle
    obtain ⟨hcl, hnot⟩ := List.mem_filter.mp hc
    rw [Bool.not_eq_true', decide_eq_false_iff_not] at hnot
    have hcw : c.Le w := by
      rcases List.mem_append.mp hcl with hcl | hcl
      · exact hp c hcl
      · rcases List.mem_cons.mp hcl with rfl | hcl
        · exact Copy.Le.refl c
        · exact absurd hle (hq c hcl)
    unfold Le at *
    omega
  obtain ⟨r', hr', hrcore, -⟩ := foldl_keeps Same _ hahigh halow hrest
  rw [loaded, List.foldl_append] at hload
  rw [loaded] at ha
  rw [ha, hr'] at hload
  cases hload
  exact hrcore.trans hacore

theorem not_usurped {s : List (Copy κ)} (hsafe : Safe Same s) : ¬ Usurped Same s := by
  classical
  rintro ⟨w, ⟨hw, hmax⟩, x, hx, y, hy, hhigh, hcore, hylt, hsame, hlow⟩
  have hxw : x ≠ w := fun h => hcore (by rw [h])
  have hyw : y ≠ w := fun h => absurd hylt (by rw [h]; exact lt_irrefl _)
  have hyx : y ≠ x := fun h => absurd hylt (by rw [h, hhigh]; exact lt_irrefl _)
  have hperm : s.Perm (w :: x :: y :: ((s.erase w).erase x).erase y) :=
    (List.perm_cons_erase hw).trans (List.Perm.cons w
      ((List.perm_cons_erase ((List.mem_erase_of_ne hxw).mpr hx)).trans (List.Perm.cons x
        (List.perm_cons_erase ((List.mem_erase_of_ne hyx).mpr ((List.mem_erase_of_ne hyw).mpr hy))))))
  set rest := ((s.erase w).erase x).erase y
  have hperm' : ((y :: x :: rest) ++ w :: []).Perm s := by
    refine List.Perm.trans ?_ hperm.symm
    have hcomm : ((y :: x :: rest) ++ [w]).Perm ([w] ++ (y :: x :: rest)) := List.perm_append_comm
    exact hcomm.trans (List.Perm.cons w (List.Perm.swap x y rest))
  have hrest : ∀ c ∈ rest ++ [w], ¬ (⟨w.high, w.low + 1, x.core⟩ : Copy κ).Le c := by
    intro c hc
    have hcs : c ∈ s := hperm'.mem_iff.mp (by
      rcases List.mem_append.mp hc with hc | hc
      · simp [hc]
      · simp [List.mem_singleton.mp hc])
    have := hmax c hcs
    unfold Le at *
    dsimp only
    omega
  have hyx' : y.Le x := Or.inl (by omega)
  have hstart : merge Same y x = ⟨x.high, max y.low x.low, x.core⟩ := by rw [merge_of_le hyx', if_pos hsame]
  obtain ⟨r, hr, hrcore, -⟩ := foldl_keeps Same (w := ⟨w.high, w.low + 1, x.core⟩) (rest ++ [w]) (a := merge Same y x)
    (by rw [hstart]; exact hhigh) (by rw [hstart]; dsimp only; omega) hrest
  have hload : loaded Same ((y :: x :: rest) ++ w :: []) = some r := hr
  have hwcore := core_of_orderFree hsymm htrans hsafe hperm' (fun c hc => hmax c (hperm'.mem_iff.mp (List.mem_append_left _ hc))) nofun hload
  rw [hrcore, hstart] at hwcore
  exact hcore hwcore

/-- Copies of a kind with small second numbers keep it small. -/
theorem foldl_low_lt {k : κ} {b : Nat} (q : List (Copy κ)) (ha : Same a.core k → a.low < b) (hq : ∀ c ∈ q, Same c.core k → c.low < b) :
    ∃ r, q.foldl (mergeStep Same) (some a) = some r ∧ (Same r.core k → r.low < b) := by
  induction q generalizing a with
  | nil => exact ⟨a, rfl, ha⟩
  | cons c q ih =>
    have hc := hq c List.mem_cons_self
    refine ih (a := merge Same a c) (fun hk => ?_) fun d hd => hq d (List.mem_cons_of_mem c hd)
    by_cases hle : a.Le c
    · rw [merge_of_le hle] at hk ⊢
      dsimp only at hk ⊢
      split
      · rename_i hsame
        exact max_lt (ha (htrans _ _ _ hsame hk)) (hc hk)
      · exact hc hk
    · rw [merge_of_not_le hle] at hk ⊢
      dsimp only at hk ⊢
      split
      · rename_i hsame
        exact max_lt (ha hk) (hc (htrans _ _ _ (hsymm _ _ hsame) hk))
      · exact ha hk

/-- An order that starts with the raising copies, or with one above them, and forgets them. -/
theorem not_forgotten {s : List (Copy κ)} (start rest : List (Copy κ)) {w j : Copy κ} (hsafe : Safe Same s) (hw : Top s w)
    (hj : Raises Same s w j) (hperm : (start ++ rest ++ [w]).Perm s) (hstart : loaded Same start = some a) (ha : ¬ Same a.core w.core)
    (hrest : ∀ c ∈ rest, Same c.core w.core → c.low < j.low) : False := by
  have hww : Same w.core w.core := htrans _ _ _ (hsymm _ _ hj.2.1) hj.2.1
  obtain ⟨r, hr, hlow⟩ := foldl_low_lt hsymm htrans (k := w.core) (b := j.low) (rest ++ [w]) (a := a) (fun h => absurd h ha) (by
    intro c hc hcw
    rcases List.mem_append.mp hc with hc | hc
    · exact hrest c hc hcw
    · rw [List.mem_singleton.mp hc]
      exact hj.2.2.1)
  have hload : loaded Same ((start ++ rest) ++ w :: []) = some r := by
    rw [List.append_assoc, loaded, List.foldl_append]
    rw [loaded] at hstart
    rw [hstart]
    exact hr
  have hcore := core_of_orderFree hsymm htrans hsafe hperm
    (fun c hc => hw.2 c (hperm.mem_iff.mp (List.mem_append_left [w] hc))) nofun hload
  have hcovers := (hsafe.covers _ hperm r hload j hj.1).2 (by rw [hcore]; exact hj.2.1)
  have := hlow (by rw [hcore]; exact hww)
  omega

theorem not_overtaken {s : List (Copy κ)} (hsafe : Safe Same s) : ¬ Overtaken Same s := by
  classical
  rintro ⟨w, hw, j, hj, m, hm, hmw, hover⟩
  obtain ⟨hjs, hjw, hjlow, hmax⟩ := hj
  have hww : Same w.core w.core := htrans _ _ _ (hsymm _ _ hjw) hjw
  have hmne : m ≠ w := fun h => hmw (by rw [h]; exact hww)
  have hjne : j ≠ w := fun h => absurd hjlow (by rw [h]; exact lt_irrefl _)
  have hjm : j ≠ m := fun h => hmw (by rw [← h]; exact hjw)
  have hperm : s.Perm (w :: m :: (s.erase w).erase m) :=
    (List.perm_cons_erase hw.1).trans (List.Perm.cons w (List.perm_cons_erase ((List.mem_erase_of_ne hmne).mpr hm)))
  have hjmem : j ∈ (s.erase w).erase m := (List.mem_erase_of_ne hjm).mpr ((List.mem_erase_of_ne hjne).mpr hjs)
  set others := (s.erase w).erase m with hothers
  have hsub : ∀ c ∈ others, c ∈ s := fun c hc => List.mem_of_mem_erase (List.mem_of_mem_erase hc)
  rcases hover with hle | ⟨y, hy, hym, hylt, hjy⟩
  · -- the raising copies first, then the one above them
    set raising := others.filter fun c => Same c.core w.core ∧ c.low = j.low with hraising
    have hne : raising ≠ [] := List.ne_nil_of_mem (List.mem_filter.mpr ⟨hjmem, decide_eq_true ⟨hjw, rfl⟩⟩)
    obtain ⟨a, ha⟩ := loaded_isSome Same hne
    have hkind : ∀ c ∈ raising, c ∈ s ∧ Same c.core w.core ∧ c.low = j.low := by
      intro c hc
      obtain ⟨hco, hcw⟩ := List.mem_filter.mp hc
      exact ⟨hsub c hco, of_decide_eq_true hcw⟩
    obtain ⟨b, hb, hbcore, hbhigh, hblow⟩ := loaded_from hsymm htrans ha
    have halow : a.low = j.low := by
      rcases hblow with hlow | ⟨y, hy, -, -, hlow⟩
      · exact hlow.trans (hkind b hb).2.2
      · exact hlow.trans (hkind y hy).2.2
    have hahigh : a.high ≤ j.high := by
      have := hmax b (hkind b hb).1 (hkind b hb).2.1
      have := (hkind b hb).2.2
      omega
    have haj : a.Le j := by
      unfold Le
      omega
    have ham : a.Le m := haj.trans hle
    have hnot : ¬ Same a.core m.core := by
      intro hsame
      rw [hbcore] at hsame
      exact hmw (htrans _ _ _ (hsymm _ _ hsame) (hkind b hb).2.1)
    have hstart : loaded Same (raising ++ [m]) = some m := by
      rw [loaded_concat, ha, Option.elim_some, merge_of_le ham, if_neg hnot]
    refine not_forgotten hsymm htrans (raising ++ [m]) (others.filter fun c => !decide (Same c.core w.core ∧ c.low = j.low))
      hsafe hw ⟨hjs, hjw, hjlow, hmax⟩ ?_ hstart hmw ?_
    · refine List.Perm.trans ?_ hperm.symm
      refine List.perm_append_comm.trans (List.Perm.cons w ?_)
      rw [List.append_assoc, List.singleton_append]
      refine List.perm_middle.trans (List.Perm.cons m ?_)
      exact List.filter_append_perm _ _
    · intro c hc hcw
      obtain ⟨hco, hnot⟩ := List.mem_filter.mp hc
      rw [Bool.not_eq_true', decide_eq_false_iff_not] at hnot
      have := hmax c (hsub c hco) hcw
      have : c.low ≠ j.low := fun h => hnot ⟨hcw, h⟩
      omega
  · -- the unrelated copy raised first, then the raising copies
    have hyw : y ≠ w := by
      intro h
      rw [h] at hym
      exact hmw (htrans _ _ _ (hsymm _ _ hym) hww)
    have hyne : y ≠ m := fun h => absurd hylt (by rw [h]; exact lt_irrefl _)
    have hyj : j ≠ y := fun h => hmw (htrans _ _ _ (hsymm _ _ hym) (by rw [← h]; exact hjw))
    have hymem : y ∈ others := (List.mem_erase_of_ne hyne).mpr ((List.mem_erase_of_ne hyw).mpr hy)
    have hjmem' : j ∈ others.erase y := (List.mem_erase_of_ne hyj).mpr hjmem
    set raising := (others.erase y).filter fun c => Same c.core w.core ∧ c.low = j.low with hraising
    have hkind : ∀ c ∈ raising, c ∈ s ∧ Same c.core w.core ∧ c.low = j.low := by
      intro c hc
      obtain ⟨hco, hcw⟩ := List.mem_filter.mp hc
      exact ⟨hsub c (List.mem_of_mem_erase hco), of_decide_eq_true hcw⟩
    have hmerge : merge Same y m = ⟨m.high, max y.low m.low, m.core⟩ := by
      rw [merge_of_le (Or.inl hylt), if_pos hym]
    obtain ⟨a, ha, hacore, -⟩ := foldl_keeps Same (w := ⟨m.high, y.low, m.core⟩) raising (a := merge Same y m)
      (by rw [hmerge]) (by rw [hmerge]; exact le_max_left _ _) (by
        intro c hc
        have hc' := hkind c hc
        have := hmax c hc'.1 hc'.2.1
        unfold Le
        dsimp only
        omega)
    refine not_forgotten hsymm htrans (y :: m :: raising) ((others.erase y).filter fun c => !decide (Same c.core w.core ∧ c.low = j.low))
      hsafe hw ⟨hjs, hjw, hjlow, hmax⟩ ?_ ha ?_ ?_
    · refine List.Perm.trans ?_ hperm.symm
      refine List.perm_append_comm.trans (List.Perm.cons w ?_)
      refine (List.Perm.swap m y _).trans (List.Perm.cons m ?_)
      exact (List.Perm.cons y (List.filter_append_perm _ _)).trans (List.perm_cons_erase hymem).symm
    · rw [hacore, hmerge]
      exact hmw
    · intro c hc hcw
      obtain ⟨hco, hnot⟩ := List.mem_filter.mp hc
      rw [Bool.not_eq_true', decide_eq_false_iff_not] at hnot
      have := hmax c (hsub c (List.mem_of_mem_erase hco)) hcw
      have : c.low ≠ j.low := fun h => hnot ⟨hcw, h⟩
      omega

/-- **The merge is safe exactly when no top copy is usurped and no raise is overtaken.** -/
theorem safe_iff (s : List (Copy κ)) : Safe Same s ↔ ¬ Usurped Same s ∧ ¬ Overtaken Same s :=
  ⟨fun h => ⟨not_usurped hsymm htrans h, not_overtaken hsymm htrans h⟩, fun h => safe_of_not hsymm htrans h.1 h.2⟩

end RankedMerge
