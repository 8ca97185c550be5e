import Mathlib.Data.List.Nodup

/-!
# Tables of slots

Values stand in the slots of an array, some of which are used.

* `live` — the used slots with their numbers.
* `live_mapIdx` — what a change of the slots in place makes of them.
* `live_set` — a free slot is taken.
-/

namespace Slots

variable {α : Type} (u : α → Bool)

/-- The used slots, whose numbers start at `k`. -/
def liveFrom : Nat → List α → List (α × Nat)
  | _, [] => []
  | k, e :: es => if u e then (e, k) :: liveFrom (k + 1) es else liveFrom (k + 1) es

/-- The used slots and their numbers. -/
def live (l : List α) : List (α × Nat) := liveFrom u 0 l

variable {u} {k i : Nat} {l : List α} {e x : α}

theorem liveFrom_eq_filter : liveFrom u k l = (l.zipIdx k).filter fun r => u r.1 := by
  induction l generalizing k with
  | nil => rfl
  | cons a l ih =>
    rw [liveFrom, List.zipIdx_cons, ih]
    cases ha : u a <;> simp [ha]

theorem mem_liveFrom : (e, i) ∈ liveFrom u k l ↔ k ≤ i ∧ l[i - k]? = some e ∧ u e = true := by
  induction l generalizing k with
  | nil => simp [liveFrom]
  | cons a l ih =>
    have hstep : ((e, i) ∈ liveFrom u (k + 1) l) ↔ k ≤ i ∧ i ≠ k ∧ (a :: l)[i - k]? = some e ∧ u e = true := by
      rw [ih]
      constructor
      · rintro ⟨hk, hget, hused⟩
        refine ⟨by omega, by omega, ?_, hused⟩
        rw [show i - k = i - (k + 1) + 1 by omega, List.getElem?_cons_succ]
        exact hget
      · rintro ⟨hk, hne, hget, hused⟩
        rw [show i - k = i - (k + 1) + 1 by omega, List.getElem?_cons_succ] at hget
        exact ⟨by omega, hget, hused⟩
    unfold liveFrom
    by_cases hi : i = k
    · subst hi
      rw [Nat.sub_self, List.getElem?_cons_zero]
      split
      · rename_i ha
        rw [List.mem_cons, hstep]
        constructor
        · rintro (heq | ⟨-, hne, -⟩)
          · cases heq
            exact ⟨Nat.le_refl _, rfl, ha⟩
          · exact absurd rfl hne
        · rintro ⟨-, heq, -⟩
          cases heq
          exact Or.inl rfl
      · rename_i ha
        rw [hstep]
        constructor
        · rintro ⟨-, hne, -⟩
          exact absurd rfl hne
        · rintro ⟨-, heq, hused⟩
          cases heq
          exact absurd hused ha
    · split
      · rw [List.mem_cons, hstep]
        constructor
        · rintro (heq | ⟨hk, -, hget⟩)
          · cases heq
            exact absurd rfl hi
          · exact ⟨hk, hget⟩
        · rintro ⟨hk, hget⟩
          exact Or.inr ⟨hk, hi, hget⟩
      · rw [hstep]
        constructor
        · rintro ⟨hk, -, hget⟩
          exact ⟨hk, hget⟩
        · rintro ⟨hk, hget⟩
          exact ⟨hk, hi, hget⟩

theorem mem_live : (e, i) ∈ live u l ↔ l[i]? = some e ∧ u e = true := by
  unfold live
  rw [mem_liveFrom]
  simp

theorem liveFrom_sorted : ((liveFrom u k l).map Prod.snd).Pairwise (· < ·) := by
  induction l generalizing k with
  | nil => exact List.Pairwise.nil
  | cons a l ih =>
    unfold liveFrom
    split
    · rw [List.map_cons, List.pairwise_cons]
      refine ⟨fun i hi => ?_, ih⟩
      obtain ⟨⟨e, i'⟩, hmem, rfl⟩ := List.mem_map.mp hi
      exact (mem_liveFrom.mp hmem).1
    · exact ih

/-- No two used slots have one number. -/
theorem live_nodup : ((live u l).map Prod.snd).Nodup := (liveFrom_sorted).imp Nat.ne_of_lt

theorem liveFrom_mapIdx {F : Nat → α → α} (hF : ∀ i e, u e = false → u (F i e) = false) :
    liveFrom u k (l.mapIdx fun i => F (k + i)) =
      (liveFrom u k l).filterMap fun r => if u (F r.2 r.1) then some (F r.2 r.1, r.2) else none := by
  induction l generalizing k with
  | nil => rfl
  | cons a l ih =>
    have htail := ih (k := k + 1)
    rw [List.mapIdx_cons, liveFrom, liveFrom, Nat.add_zero]
    have hshift : (l.mapIdx fun i => F (k + (i + 1))) = l.mapIdx fun i => F (k + 1 + i) := by
      congr 1
      funext i
      rw [Nat.add_comm i 1, Nat.add_assoc]
    rw [hshift, htail]
    cases ha : u a with
    | false =>
      rw [hF k a ha]
      rfl
    | true =>
      cases hchanged : u (F k a) with
      | false => simp [hchanged]
      | true => simp [hchanged]

/-- **Slots are changed in place**; some become free. -/
theorem live_mapIdx {F : Nat → α → α} (hF : ∀ i e, u e = false → u (F i e) = false) :
    live u (l.mapIdx F) = (live u l).filterMap fun r => if u (F r.2 r.1) then some (F r.2 r.1, r.2) else none := by
  have h := liveFrom_mapIdx (k := 0) (l := l) hF
  simp only [Nat.zero_add] at h
  exact h

theorem liveFrom_append (l l' : List α) : liveFrom u k (l ++ l') = liveFrom u k l ++ liveFrom u (k + l.length) l' := by
  induction l generalizing k with
  | nil => rfl
  | cons a l ih =>
    rw [List.cons_append, liveFrom, liveFrom, ih, List.length_cons, Nat.add_assoc, Nat.add_comm 1]
    split <;> rfl

/-- **A free slot is taken.** -/
theorem live_set (hi : l[i]? = some e) (hfree : u e = false) (hx : u x = true) :
    (live u (l.set i x)).Perm ((x, i) :: live u l) := by
  obtain ⟨hlt, rfl⟩ := List.getElem?_eq_some_iff.mp hi
  have hsplit : l = l.take i ++ l[i] :: l.drop (i + 1) := by
    rw [List.getElem_cons_drop, List.take_append_drop]
  have hlen : (l.take i).length = i := by
    rw [List.length_take]
    omega
  have hset : l.set i x = l.take i ++ x :: l.drop (i + 1) := List.set_eq_take_append_cons_drop.trans (if_pos hlt)
  unfold live
  rw [hset]
  conv_rhs => rw [hsplit]
  rw [liveFrom_append, liveFrom_append, liveFrom, liveFrom, hlen, if_pos hx, if_neg (by simp [hfree]), Nat.zero_add]
  exact List.perm_middle

/-- A question about the used slots. -/
theorem any_live (p : α → Bool) : l.any (fun e => u e && p e) = (live u l).any fun r => p r.1 := by
  rw [Bool.eq_iff_iff, List.any_eq_true, List.any_eq_true]
  constructor
  · rintro ⟨e, he, hp⟩
    obtain ⟨i, hi⟩ := List.getElem?_of_mem he
    rw [Bool.and_eq_true] at hp
    exact ⟨(e, i), mem_live.mpr ⟨hi, hp.1⟩, hp.2⟩
  · rintro ⟨⟨e, i⟩, he, hp⟩
    obtain ⟨hget, hused⟩ := mem_live.mp he
    exact ⟨e, List.mem_of_getElem? hget, by rw [hused, hp]; rfl⟩

theorem liveFrom_filter (p : α → Bool) : (liveFrom u k l).filter (fun r => p r.1) = liveFrom (fun e => u e && p e) k l := by
  induction l generalizing k with
  | nil => rfl
  | cons a l ih =>
    rw [liveFrom, liveFrom]
    cases ha : u a <;> cases hp : p a <;> simp [hp, ih]

/-- The values of the used slots. -/
theorem liveFrom_values : (liveFrom u k l).map Prod.fst = l.filter u := by
  induction l generalizing k with
  | nil => rfl
  | cons a l ih =>
    rw [liveFrom]
    cases ha : u a <;> simp [ha, ih]

/-- The first free slot has the first number that no used slot has. -/
theorem findIdx?_free : l.findIdx? (fun e => !u e) =
    (List.range l.length).find? fun i => (live u l).all fun r => r.2 != i := by
  have hfree : ∀ i (hi : i < l.length), ((live u l).all fun r => r.2 != i) = !u l[i] := by
    intro i hi
    rw [Bool.eq_iff_iff, List.all_eq_true]
    constructor
    · intro hall
      rw [Bool.not_eq_true']
      by_contra hused
      have hmem : (l[i], i) ∈ live u l := mem_live.mpr ⟨List.getElem?_eq_getElem hi, by simpa using hused⟩
      simpa using hall _ hmem
    · rintro hfree ⟨e, j⟩ hmem
      obtain ⟨hget, hused⟩ := mem_live.mp hmem
      rw [bne_iff_ne]
      rintro rfl
      rw [List.getElem?_eq_getElem hi] at hget
      rw [Option.some.inj hget, hused] at hfree
      cases hfree
  cases hfind : l.findIdx? fun e => !u e with
  | none =>
    symm
    rw [List.find?_range_eq_none]
    intro i hi
    rw [hfree i hi, List.findIdx?_eq_none_iff.mp hfind _ (List.getElem_mem hi)]
    rfl
  | some i =>
    symm
    obtain ⟨hi, hused, hbefore⟩ := List.findIdx?_eq_some_iff_getElem.mp hfind
    rw [List.find?_range_eq_some]
    refine ⟨(hfree i hi).trans hused, List.mem_range.mpr hi, fun j hj => ?_⟩
    rw [hfree j (by omega)]
    simpa using hbefore j hj

theorem mapIdx_const (f : α → α) (l : List α) : (l.mapIdx fun _ => f) = l.map f := by
  apply List.ext_getElem
  · simp
  · simp

theorem modify_eq_mapIdx (f : α → α) (i : Nat) (l : List α) : l.modify i f = l.mapIdx fun j e => if j = i then f e else e := by
  apply List.ext_getElem
  · simp
  · intro j h h'
    rw [List.getElem_modify, List.getElem_mapIdx]
    simp only [eq_comm (a := i)]

end Slots
