import Mathlib.Data.List.Nodup
import Mathlib.Data.List.Perm.Basic

/-!
# Tables of keyed slots

A table is a list of entries that are found by a key and replaced in place.  The lemmas say which
entries survive a replacement, an erasure or an addition, and that the keys stay distinct.
-/

namespace Table

variable {α κ : Type} {l : List α} {i : Nat} {e x : α}

/-- Replacing a slot loses at most its entry. -/
theorem mem_set_of_mem (x : α) (he : e ∈ l) : l[i]? = some e ∨ e ∈ l.set i x := by
  obtain ⟨j, hj, rfl⟩ := List.getElem_of_mem he
  by_cases hij : i = j
  · exact Or.inl (by rw [hij, List.getElem?_eq_getElem hj])
  · refine Or.inr (List.mem_iff_getElem.mpr ⟨j, by simpa using hj, ?_⟩)
    rw [List.getElem_set_ne hij]

/-- Erasing a slot loses at most its entry. -/
theorem mem_eraseIdx_of_mem (he : e ∈ l) : l[i]? = some e ∨ e ∈ l.eraseIdx i := by
  obtain ⟨j, hj, rfl⟩ := List.getElem_of_mem he
  by_cases hij : j = i
  · exact Or.inl (by rw [← hij, List.getElem?_eq_getElem hj])
  · exact Or.inr (List.mem_eraseIdx_iff_getElem?.mpr ⟨j, hij, List.getElem?_eq_getElem hj⟩)

variable {p : α → Bool}

theorem getElem?_of_findIdx? (h : l.findIdx? p = some i) : ∃ e, l[i]? = some e ∧ p e = true := by
  obtain ⟨hi, hp, -⟩ := List.findIdx?_eq_some_iff_getElem.mp h
  exact ⟨l[i], List.getElem?_eq_getElem hi, hp⟩

theorem findIdx?_set (hi : i < l.length) (hx : p x = true) (hbefore : ∀ j y, j < i → l[j]? = some y → p y = false) :
    (l.set i x).findIdx? p = some i := by
  refine List.findIdx?_eq_some_iff_getElem.mpr ⟨by rwa [List.length_set], by rwa [List.getElem_set_self], fun j hj => ?_⟩
  rw [List.getElem_set_ne (Nat.ne_of_gt hj), Bool.not_eq_true]
  exact hbefore j _ hj (List.getElem?_eq_getElem (Nat.lt_trans hj hi))

/-- What comes before the entry that is found. -/
theorem before_findIdx? (h : l.findIdx? p = some i) : ∀ j y, j < i → l[j]? = some y → p y = false := by
  obtain ⟨_, -, hbefore⟩ := List.findIdx?_eq_some_iff_getElem.mp h
  intro j y hj hy
  obtain ⟨hlt, rfl⟩ := List.getElem?_eq_some_iff.mp hy
  exact Bool.not_eq_true _ ▸ hbefore j hj

variable {f : α → α}

theorem modify_eq_set (h : l[i]? = some e) : l.modify i f = l.set i (f e) := by
  obtain ⟨hlt, rfl⟩ := List.getElem?_eq_some_iff.mp h
  apply List.ext_getElem?
  intro j
  by_cases hij : i = j
  · subst hij
    simp [hlt]
  · simp [hij]

variable {n : Nat}

/-- Past a prefix that holds every match there is none. -/
theorem drop_not_match (h : ∀ i e, l[i]? = some e → p e = true → i < n) : ∀ e ∈ l.drop n, p e = false := by
  intro e he
  obtain ⟨j, hj⟩ := List.mem_iff_getElem?.mp he
  rw [List.getElem?_drop] at hj
  by_contra hp
  have := h (n + j) e hj (by simpa using hp)
  omega

/-- A search of a prefix that holds every match is a search of the table. -/
theorem findIdx?_take (h : ∀ i e, l[i]? = some e → p e = true → i < n) : (l.take n).findIdx? p = l.findIdx? p := by
  have hdrop : (l.drop n).findIdx? p = none := List.findIdx?_eq_none_iff.mpr (drop_not_match h)
  conv_rhs => rw [← List.take_append_drop n l, List.findIdx?_append, hdrop]
  simp

theorem find?_take (h : ∀ i e, l[i]? = some e → p e = true → i < n) : (l.take n).find? p = l.find? p := by
  have hdrop : (l.drop n).find? p = none := List.find?_eq_none.mpr fun e he => by simp [drop_not_match h e he]
  conv_rhs => rw [← List.take_append_drop n l, List.find?_append, hdrop]
  simp

/-- The first entry that meets `p` is changed by `f`, as a search through mutable slots does it. -/
def modifyFirst (p : α → Bool) (f : α → α) (l : List α) : List α :=
  match l.findIdx? p with
  | some i => l.modify i f
  | none => l

theorem modifyFirst_cases (p : α → Bool) (f : α → α) (l : List α) :
    (∃ i e, l[i]? = some e ∧ l.find? p = some e ∧ p e = true ∧ modifyFirst p f l = l.set i (f e)) ∨
      ((∀ e ∈ l, p e = false) ∧ modifyFirst p f l = l) := by
  unfold modifyFirst
  cases h : l.findIdx? p with
  | some i =>
    obtain ⟨e, hi, hp⟩ := getElem?_of_findIdx? h
    obtain ⟨-, hidx⟩ := List.findIdx?_eq_some_iff_findIdx_eq.mp h
    exact Or.inl ⟨i, e, hi, by rw [List.find?_eq_getElem?_findIdx, hidx, hi], hp, modify_eq_set hi⟩
  | none => exact Or.inr ⟨List.findIdx?_eq_none_iff.mp h, rfl⟩

theorem modifyFirst_eq_self (h : ∀ e ∈ l, p e = false) : modifyFirst p f l = l := by
  unfold modifyFirst
  rw [List.findIdx?_eq_none_iff.mpr h]

theorem length_modifyFirst (p : α → Bool) (f : α → α) (l : List α) : (modifyFirst p f l).length = l.length := by
  unfold modifyFirst
  split
  · rw [List.length_modify]
  · rfl

theorem modifyFirst_cons (p : α → Bool) (f : α → α) (x : α) (l : List α) :
    modifyFirst p f (x :: l) = if p x then f x :: l else x :: modifyFirst p f l := by
  unfold modifyFirst
  rw [List.findIdx?_cons]
  cases hx : p x with
  | true => rfl
  | false =>
    simp only [Bool.false_eq_true, if_false]
    cases l.findIdx? p <;> rfl

/-- The entry that a change of the first match leaves is the first match still. -/
theorem find?_modifyFirst (hf : ∀ e, p e = true → p (f e) = true) (l : List α) : (modifyFirst p f l).find? p = (l.find? p).map f := by
  induction l with
  | nil => rfl
  | cons x l ih =>
    rw [modifyFirst_cons]
    cases hx : p x with
    | true => simp [hx, hf x hx]
    | false => simp [hx, ih]

/-- A change that spares an entry, and makes no new match, spares it as the first match. -/
theorem find?_modifyFirst_of_not {q : α → Bool} (hq : ∀ x, q (f x) = q x) (hfind : l.find? q = some e) (hp : p e = false) :
    (modifyFirst p f l).find? q = some e := by
  induction l with
  | nil => simp at hfind
  | cons x l ih =>
    rw [modifyFirst_cons]
    rw [List.find?_cons] at hfind
    cases hx : q x with
    | true =>
      rw [hx] at hfind
      cases hfind
      simp [hp, hx]
    | false =>
      rw [hx] at hfind
      cases hpx : p x with
      | true => simpa [hq, hx] using hfind
      | false => simpa [hx] using ih hfind

/-- A change of an entry that another search does not look for. -/
theorem find?_modifyFirst_other {q : α → Bool} (hq : ∀ x, q (f x) = q x) (hpq : ∀ x, p x = true → q x = false) (l : List α) :
    (modifyFirst p f l).find? q = l.find? q := by
  induction l with
  | nil => rfl
  | cons x l ih =>
    rw [modifyFirst_cons]
    cases hpx : p x with
    | true => simp [hq, hpq x hpx]
    | false => simp [List.find?_cons, ih]

/-- An entry that is put into a table without a match is the first match. -/
theorem find?_set_new (hnone : ∀ y ∈ l, p y = false) (hi : i < l.length) (hx : p x = true) : (l.set i x).find? p = some x := by
  induction l generalizing i with
  | nil => simp at hi
  | cons y l ih =>
    cases i with
    | zero => simp [hx]
    | succ i =>
      have hy := hnone y List.mem_cons_self
      rw [List.set_cons_succ, List.find?_cons, hy]
      exact ih (fun z hz => hnone z (List.mem_cons_of_mem _ hz)) (by simpa using hi)

/-- A slot that matches neither before nor after leaves the search as it was. -/
theorem find?_set_of_not (hi : l[i]? = some e) (he : p e = false) (hx : p x = false) : (l.set i x).find? p = l.find? p := by
  induction l generalizing i with
  | nil => rfl
  | cons y l ih =>
    cases i with
    | zero =>
      cases hi
      simp [he, hx]
    | succ i => rw [List.set_cons_succ, List.find?_cons, List.find?_cons, ih (by simpa using hi)]

/-- A change of the only match, wherever it was put. -/
theorem modifyFirst_set_new (hnone : ∀ y ∈ l, p y = false) (hi : i < l.length) (hx : p x = true) :
    modifyFirst p f (l.set i x) = l.set i (f x) := by
  induction l generalizing i with
  | nil => simp at hi
  | cons y l ih =>
    cases i with
    | zero => rw [List.set_cons_zero, modifyFirst_cons, if_pos hx, List.set_cons_zero]
    | succ i =>
      have hy : ¬ p y = true := by simp [hnone y List.mem_cons_self]
      have hrest := ih (fun z hz => hnone z (List.mem_cons_of_mem _ hz)) (by simpa using hi)
      rw [List.set_cons_succ, modifyFirst_cons, if_neg hy, hrest, List.set_cons_succ]

/-- The slot takes the last entry, and the table loses one. -/
def swapRemove (l : List α) (i : Nat) : List α :=
  match l.getLast? with
  | none => l
  | some x => (l.set i x).dropLast

theorem mem_of_mem_swapRemove (h : e ∈ swapRemove l i) : e ∈ l := by
  unfold swapRemove at h
  split at h
  · exact h
  · rename_i x hx
    rcases List.mem_or_eq_of_mem_set (List.dropLast_subset _ h) with h | rfl
    · exact h
    · exact List.mem_of_getLast? hx

/-- A symmetric relation between the slots, after one slot was written. -/
theorem pairwise_set_iff {R : α → α → Prop} (hsymm : ∀ x y, R x y → R y x) (h : l.Pairwise R) (hi : l[i]? = some e) :
    (l.set i x).Pairwise R ↔ ∀ j y, j ≠ i → l[j]? = some y → R x y := by
  obtain ⟨hlt, -⟩ := List.getElem?_eq_some_iff.mp hi
  rw [List.pairwise_iff_getElem] at h ⊢
  constructor
  · intro h' j y hji hj
    obtain ⟨hjl, rfl⟩ := List.getElem?_eq_some_iff.mp hj
    rcases Nat.lt_or_gt_of_ne hji with hlt' | hgt
    · have := h' j i (by simpa using hjl) (by simpa using hlt) hlt'
      rw [List.getElem_set_self, List.getElem_set_ne (by omega)] at this
      exact hsymm _ _ this
    · have := h' i j (by simpa using hlt) (by simpa using hjl) hgt
      rwa [List.getElem_set_self, List.getElem_set_ne (by omega)] at this
  · intro h' j k hj hk hjk
    rw [List.length_set] at hj hk
    rw [List.getElem_set, List.getElem_set]
    split
    · rename_i hij
      subst hij
      rw [if_neg (by omega)]
      exact h' k _ (by omega) (List.getElem?_eq_getElem hk)
    · split
      · rename_i hij
        subst hij
        exact hsymm _ _ (h' j _ (by omega) (List.getElem?_eq_getElem hj))
      · exact h j k hj hk hjk

variable {key : α → κ}

/-- Replacing an entry by one with its key changes no key. -/
theorem map_set_same (hi : l[i]? = some e) (hk : key x = key e) : (l.set i x).map key = l.map key := by
  obtain ⟨hlt, rfl⟩ := List.getElem?_eq_some_iff.mp hi
  apply List.ext_getElem?
  intro j
  by_cases hij : i = j
  · subst hij
    simp [hk, hlt]
  · simp [hij]

/-- Where the keys are distinct, a replaced entry is gone. -/
theorem mem_set_of_nodup {y : α} (h : (l.map key).Nodup) (hi : l[i]? = some e) (hy : y ∈ l.set i x) :
    y = x ∨ (y ∈ l ∧ key y ≠ key e) := by
  obtain ⟨j, hj⟩ := List.mem_iff_getElem?.mp hy
  by_cases hij : i = j
  · subst hij
    rw [List.getElem?_set_self (List.getElem?_eq_some_iff.mp hi).1] at hj
    exact Or.inl (Option.some.inj hj).symm
  · rw [List.getElem?_set_ne hij] at hj
    refine Or.inr ⟨List.mem_of_getElem? hj, fun hkey => hij ?_⟩
    have hmap : (l.map key)[i]? = (l.map key)[j]? := by
      rw [List.getElem?_map, List.getElem?_map, hi, hj, Option.map_some, Option.map_some, hkey]
    exact (List.getElem?_inj (by rw [List.length_map]; exact (List.getElem?_eq_some_iff.mp hi).1) h).mp hmap

theorem nodup_set_new (h : (l.map key).Nodup) (hnew : ∀ y ∈ l, key y ≠ key x) :
    ((l.set i x).map key).Nodup := by
  rw [List.map_set]
  refine h.set fun hmem => ?_
  obtain ⟨y, hy, hk⟩ := List.mem_map.mp hmem
  exact hnew y hy hk

theorem nodup_eraseIdx (h : (l.map key).Nodup) : ((l.eraseIdx i).map key).Nodup :=
  h.sublist ((List.eraseIdx_sublist l i).map key)

theorem nodup_append_new (h : (l.map key).Nodup) (hnew : ∀ y ∈ l, key y ≠ key x) :
    ((l ++ [x]).map key).Nodup := by
  rw [List.map_append, List.map_singleton]
  refine h.append (List.nodup_singleton _) ?_
  rw [List.disjoint_singleton]
  intro hmem
  obtain ⟨y, hy, hk⟩ := List.mem_map.mp hmem
  exact hnew y hy hk

theorem length_swapRemove (hi : i < l.length) : (swapRemove l i).length = l.length - 1 := by
  unfold swapRemove
  cases hl : l.getLast? with
  | none => simp [List.getLast?_eq_none_iff.mp hl] at hi
  | some x => simp

/-- The slots before the one that was emptied. -/
theorem take_swapRemove (hi : i < l.length) : (swapRemove l i).take i = l.take i := by
  unfold swapRemove
  cases hl : l.getLast? with
  | none => rfl
  | some x =>
    dsimp only
    rw [List.dropLast_eq_take, List.take_take, List.length_set, Nat.min_eq_left (by omega), List.take_set_of_le (Nat.le_refl i)]

theorem length_swapRemove_le (l : List α) (i : Nat) : (swapRemove l i).length ≤ l.length := by
  unfold swapRemove
  split
  · exact Nat.le_refl _
  · rw [List.length_dropLast, List.length_set]
    exact Nat.sub_le _ _

theorem nodup_swapRemove (h : (l.map key).Nodup) : ((swapRemove l i).map key).Nodup := by
  unfold swapRemove
  split
  · exact h
  · rename_i x hx
    obtain ⟨init, rfl⟩ := List.getLast?_eq_some_iff.mp hx
    rw [List.map_append, List.nodup_append] at h
    obtain ⟨hinit, -, hdisjoint⟩ := h
    by_cases hi : i < init.length
    · rw [List.set_append_left i x hi, List.dropLast_concat]
      exact nodup_set_new hinit fun y hy => hdisjoint _ (List.mem_map_of_mem hy) _ (List.mem_map_of_mem List.mem_cons_self)
    · rw [List.set_append_right i x (Nat.not_lt.mp hi)]
      cases hk : i - init.length with
      | zero =>
        rw [List.set_cons_zero, List.dropLast_concat]
        exact hinit
      | succ k =>
        rw [List.set_cons_succ, List.set_nil, List.dropLast_concat]
        exact hinit

/-- A change that keeps the keys. -/
theorem map_modifyFirst (hf : ∀ e, key (f e) = key e) : (modifyFirst p f l).map key = l.map key := by
  rcases modifyFirst_cases p f l with ⟨i, e, hi, -, -, heq⟩ | ⟨-, heq⟩
  · rw [heq]
    exact map_set_same hi (hf e)
  · rw [heq]

variable {l' : List α}

/-- A change of a match among the first entries. -/
theorem modifyFirst_append_of_any (h : l.any p = true) : modifyFirst p f (l ++ l') = modifyFirst p f l ++ l' := by
  induction l with
  | nil => cases h
  | cons y l ih =>
    rw [List.cons_append, modifyFirst_cons, modifyFirst_cons]
    cases hy : p y with
    | true => rfl
    | false =>
      rw [List.any_cons, hy, Bool.false_or] at h
      simp [ih h]

/-- A change in a prefix that holds every match is a change in the table. -/
theorem modifyFirst_take (h : ∀ i e, l[i]? = some e → p e = true → i < n) :
    modifyFirst p f (l.take n) ++ l.drop n = modifyFirst p f l := by
  cases hany : (l.take n).any p with
  | true =>
    conv_rhs => rw [← List.take_append_drop n l]
    exact (modifyFirst_append_of_any hany).symm
  | false =>
    have hnone : ∀ e ∈ l, p e = false := by
      intro e he
      rw [← List.take_append_drop n l, List.mem_append] at he
      exact he.elim (fun he => by simpa using List.any_eq_false.mp hany e he) (drop_not_match h e)
    rw [modifyFirst_eq_self fun e he => hnone e (List.mem_of_mem_take he), modifyFirst_eq_self hnone, List.take_append_drop]

/-- A change of the last entry, no earlier one matching. -/
theorem modifyFirst_append_last (hnone : ∀ y ∈ l, p y = false) (hx : p x = true) : modifyFirst p f (l ++ [x]) = l ++ [f x] := by
  induction l with
  | nil => rw [List.nil_append, modifyFirst_cons, if_pos hx, List.nil_append]
  | cons y l ih =>
    have hy : ¬ p y = true := by simp [hnone y List.mem_cons_self]
    rw [List.cons_append, modifyFirst_cons, if_neg hy, ih fun z hz => hnone z (List.mem_cons_of_mem _ hz),
      List.cons_append]

/-- Distinct keys make a search by key find the entry, wherever it stands. -/
theorem find?_eq_of_nodup (h : (l.map key).Nodup) (hp : ∀ y, p y = true ↔ key y = key e) (he : e ∈ l) : l.find? p = some e := by
  cases hf : l.find? p with
  | none =>
    have := List.find?_eq_none.mp hf e he
    exact absurd ((hp e).mpr rfl) this
  | some y =>
    have hk : key y = key e := (hp y).mp (List.find?_some hf)
    rw [List.inj_on_of_nodup_map h (List.mem_of_find?_eq_some hf) he hk]

/-- What is found under a key among the entries that meet a condition. -/
theorem find?_filter_key [BEq κ] [LawfulBEq κ] (h : (l.map key).Nodup) (q : α → Bool) (k : κ) :
    (l.filter q).find? (key · == k) = (l.find? (key · == k)).filter q := by
  cases hfind : l.find? (key · == k) with
  | none =>
    refine List.find?_eq_none.mpr fun x hx => ?_
    exact List.find?_eq_none.mp hfind x (List.mem_filter.mp hx).1
  | some e =>
    have hkey : key e = k := by simpa using List.find?_some hfind
    have he := List.mem_of_find?_eq_some hfind
    rw [Option.filter_some]
    split
    · rename_i hq
      exact find?_eq_of_nodup (h.sublist (List.filter_sublist.map key)) (fun y => by rw [beq_iff_eq, hkey])
        (List.mem_filter.mpr ⟨he, hq⟩)
    · rename_i hq
      refine List.find?_eq_none.mpr fun x hx hk => hq ?_
      obtain ⟨hmem, hx⟩ := List.mem_filter.mp hx
      rw [← List.inj_on_of_nodup_map h hmem he ((beq_iff_eq.mp hk).trans hkey.symm), hx]

theorem swapRemove_perm (hi : i < l.length) : (swapRemove l i).Perm (l.eraseIdx i) := by
  obtain ⟨l', x, rfl⟩ := List.eq_nil_or_concat' l |>.resolve_left (by rintro rfl; exact absurd hi (Nat.not_lt_zero i))
  unfold swapRemove
  simp only [List.getLast?_concat]
  by_cases hlt : i < l'.length
  · rw [List.set_append_left _ _ hlt, List.dropLast_concat, List.eraseIdx_append_of_lt_length hlt]
    exact (List.set_perm_cons_eraseIdx hlt x).trans (List.perm_append_singleton x _).symm
  · have heq : i = l'.length := by
      rw [List.length_append, List.length_singleton] at hi
      omega
    subst heq
    simp [List.eraseIdx_append_of_length_le]

/-- What is found under every key when the entry of one key is taken out. -/
theorem find?_swapRemove_key [DecidableEq κ] [BEq κ] [LawfulBEq κ] {k : κ} (h : (l.map key).Nodup) (hi : i < l.length) (hk : key l[i] = k)
    (k' : κ) : (swapRemove l i).find? (key · == k') = if k' = k then none else l.find? (key · == k') := by
  have hnodup : ((l.eraseIdx i).map key).Nodup := nodup_eraseIdx h
  have hmem : ∀ x, x ∈ swapRemove l i ↔ x ∈ l.eraseIdx i := fun x => (swapRemove_perm hi).mem_iff
  have hsplit : ∀ x ∈ l, key x ≠ k → x ∈ l.eraseIdx i := by
    intro x hx hne
    rcases mem_eraseIdx_of_mem (i := i) hx with hat | herase
    · rw [List.getElem?_eq_getElem hi] at hat
      exact absurd (by rw [← Option.some.inj hat, hk]) hne
    · exact herase
  split
  · rename_i hkk
    refine List.find?_eq_none.mpr fun x hx => ?_
    rw [hmem, List.mem_eraseIdx_iff_getElem] at hx
    obtain ⟨j, hj, hne, rfl⟩ := hx
    intro heq
    have hinj := List.nodup_iff_injective_get.mp h
    have : (⟨j, by simpa using hj⟩ : Fin (l.map key).length) = ⟨i, by simpa using hi⟩ := by
      apply hinj
      simp only [List.get_eq_getElem, List.getElem_map]
      rw [hk, beq_iff_eq.mp heq, hkk]
    exact hne (Fin.mk.inj this)
  · rename_i hkk
    cases hfind : l.find? (key · == k') with
    | none =>
      refine List.find?_eq_none.mpr fun x hx => ?_
      exact List.find?_eq_none.mp hfind x (mem_of_mem_swapRemove hx)
    | some e =>
      have hkey : key e = k' := by simpa using List.find?_some hfind
      refine find?_eq_of_nodup (nodup_swapRemove h) (fun y => by rw [beq_iff_eq, hkey]) ?_
      rw [hmem]
      exact hsplit e (List.mem_of_find?_eq_some hfind) fun heq => hkk (by rw [← hkey, heq])

/-- The key of a replaced entry is gone. -/
theorem key_gone (h : (l.map key).Nodup) (hi : l[i]? = some e) (hk : key x ≠ key e) :
    ∀ y ∈ l.set i x, key y ≠ key e := by
  intro y hy hye
  obtain ⟨j, hj, rfl⟩ := List.getElem_of_mem hy
  rw [List.length_set] at hj
  obtain ⟨hlt, rfl⟩ := List.getElem?_eq_some_iff.mp hi
  by_cases hij : i = j
  · subst hij
    rw [List.getElem_set_self] at hye
    exact hk hye
  · rw [List.getElem_set_ne hij] at hye
    have hj' : j < (l.map key).length := by simpa using hj
    have hi' : i < (l.map key).length := by simpa using hlt
    have hsame : (l.map key)[j] = (l.map key)[i] := by simpa using hye
    exact hij ((List.Nodup.getElem_inj_iff h).mp hsame).symm

/-! ## Slots that are live or free -/

/-- No two live slots have the same key. -/
def UniqueLive (live : α → Bool) (key : α → κ) (l : List α) : Prop :=
  ∀ (i j : Nat) (x y : α), l[i]? = some x → l[j]? = some y → live x = true → live y = true → key x = key y → i = j

namespace UniqueLive

variable {live : α → Bool}

theorem set (h : UniqueLive live key l)
    (hx : live x = true → ∀ j y, j ≠ i → l[j]? = some y → live y = true → key y ≠ key x) :
    UniqueLive live key (l.set i x) := by
  have hget : ∀ j y, (l.set i x)[j]? = some y → (j = i ∧ y = x) ∨ (j ≠ i ∧ l[j]? = some y) := by
    intro j y hj
    rw [List.getElem?_set] at hj
    split at hj
    · rename_i hij
      split at hj
      · cases hj
        exact Or.inl ⟨hij.symm, rfl⟩
      · cases hj
    · rename_i hij
      exact Or.inr ⟨fun h => hij h.symm, hj⟩
  intro j k y z hj hk hy hz hkey
  rcases hget j y hj with ⟨rfl, rfl⟩ | ⟨hji, hj'⟩ <;> rcases hget k z hk with ⟨rfl, rfl⟩ | ⟨hki, hk'⟩
  · rfl
  · exact absurd hkey.symm (hx hy k z hki hk' hz)
  · exact absurd hkey (hx hz j y hji hj' hy)
  · exact h j k y z hj' hk' hy hz hkey

/-- A slot that keeps its key and is not made live. -/
theorem set_same (h : UniqueLive live key l) (hi : l[i]? = some e) (hkey : key x = key e)
    (hlive : live x = true → live e = true) : UniqueLive live key (l.set i x) := by
  refine h.set fun hx j y hji hj hy hk => hji ?_
  exact h j i y e hj hi hy (hlive hx) (hk.trans hkey)

theorem left (h : UniqueLive live key (l ++ l')) : UniqueLive live key l := by
  intro i j x y hi hj
  have hget : ∀ {k z}, l[k]? = some z → (l ++ l')[k]? = some z := fun {k z} hk => by
    rw [List.getElem?_append_left (List.getElem?_eq_some_iff.mp hk).1, hk]
  exact h i j x y (hget hi) (hget hj)

theorem modifyFirst (h : UniqueLive live key l) {p : α → Bool} {f : α → α} (hkey : ∀ e, key (f e) = key e)
    (hlive : ∀ e, p e = true → live (f e) = true → live e = true) :
    UniqueLive live key (modifyFirst p f l) := by
  rcases modifyFirst_cases p f l with ⟨i, e, hi, -, hp, heq⟩ | ⟨-, heq⟩
  · rw [heq]
    exact h.set_same hi (hkey e) (hlive e hp)
  · rw [heq]
    exact h

theorem map (h : UniqueLive live key l) (hkey : ∀ e, key (f e) = key e) (hlive : ∀ e, live (f e) = true → live e = true) :
    UniqueLive live key (l.map f) := by
  intro i j x y hi hj hx hy hk
  rw [List.getElem?_map] at hi hj
  obtain ⟨x', hi', rfl⟩ := Option.map_eq_some_iff.mp hi
  obtain ⟨y', hj', rfl⟩ := Option.map_eq_some_iff.mp hj
  rw [hkey, hkey] at hk
  exact h i j x' y' hi' hj' (hlive x' hx) (hlive y' hy) hk

/-- Slots that may die but keep their keys. -/
theorem mapIdx (h : UniqueLive live key l) {f : Nat → α → α}
    (hf : ∀ i e, live (f i e) = true → live e = true ∧ key (f i e) = key e) : UniqueLive live key (l.mapIdx f) := by
  intro i j x y hi hj hx hy hk
  rw [List.getElem?_mapIdx] at hi hj
  obtain ⟨x', hi', rfl⟩ := Option.map_eq_some_iff.mp hi
  obtain ⟨y', hj', rfl⟩ := Option.map_eq_some_iff.mp hj
  obtain ⟨hxl, hxk⟩ := hf i x' hx
  obtain ⟨hyl, hyk⟩ := hf j y' hy
  rw [hxk, hyk] at hk
  exact h i j x' y' hi' hj' hxl hyl hk

/-- A live entry stands in one slot. -/
theorem slot_eq (h : UniqueLive live key l) {i j : Nat} (hi : l[i]? = some e) (hj : l[j]? = some e)
    (he : live e = true) : i = j :=
  h i j e e hi hj he he rfl

theorem eq_of_key (h : UniqueLive live key l) {y : α} (hx : x ∈ l) (hy : y ∈ l) (hxl : live x = true) (hyl : live y = true)
    (hkey : key x = key y) : x = y := by
  obtain ⟨i, hi⟩ := List.mem_iff_getElem?.mp hx
  obtain ⟨j, hj⟩ := List.mem_iff_getElem?.mp hy
  have hij := h i j x y hi hj hxl hyl hkey
  rw [hij, hj] at hi
  exact (Option.some.inj hi).symm

/-- A search by key finds the live entry that has it. -/
theorem find?_key [BEq κ] [LawfulBEq κ] (h : UniqueLive live key l) (he : e ∈ l) (hlive : live e = true) :
    (l.find? fun x => live x && key x == key e) = some e := by
  cases hf : l.find? fun x => live x && key x == key e with
  | none =>
    have := List.find?_eq_none.mp hf e he
    simp [hlive] at this
  | some y =>
    have hy := List.find?_some hf
    simp only [Bool.and_eq_true, beq_iff_eq] at hy
    rw [h.eq_of_key (List.mem_of_find?_eq_some hf) he hy.1 hlive hy.2]

/-- A search among live slots by key gives the same entry in every order of the slots. -/
theorem find?_perm (h : UniqueLive live key l) (hperm : l'.Perm l) (k : κ) (hp : ∀ e, p e = true → live e = true ∧ key e = k) :
    l'.find? p = l.find? p := by
  have huniq : ∀ x ∈ l, ∀ y ∈ l, p x = true → p y = true → x = y := fun x hx y hy hpx hpy =>
    h.eq_of_key hx hy (hp x hpx).1 (hp y hpy).1 ((hp x hpx).2.trans (hp y hpy).2.symm)
  cases hf : l.find? p with
  | none =>
    rw [List.find?_eq_none] at hf ⊢
    exact fun x hx => hf x (hperm.mem_iff.mp hx)
  | some x =>
    have hx := List.mem_of_find?_eq_some hf
    have hpx := List.find?_some hf
    cases hf' : l'.find? p with
    | none => exact absurd hpx (List.find?_eq_none.mp hf' x (hperm.mem_iff.mpr hx))
    | some y =>
      have hy := hperm.mem_iff.mp (List.mem_of_find?_eq_some hf')
      rw [huniq y hy x hx (List.find?_some hf') hpx]

end UniqueLive

end Table
