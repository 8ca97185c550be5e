import Mathlib.Data.List.Basic

/-!
# Listings in pages

A server answers a start key with some of its records from there on, in ascending order of their keys,
and with a flag that says whether there are more; a client goes on behind the last record until the
flag says that there are none.

* `select` — the server's loop over unordered keys, for a page of at most `limit`.
* `IsPage`, `IsPage.take` — what a page must say, and that cutting it short keeps it a page.
* `enumerate_listing` — the client comes to an end with every record exactly once, in ascending order.
-/

namespace Paging

/-! ## One page -/

section Page

variable {ρ : Type} (key : ρ → Nat)

/-- A page of the records that meet `all`, from `floor` on. -/
structure IsPage (all : ρ → Prop) (floor : Nat) (records : List ρ) (complete : Bool) : Prop where
  ascending : records.Pairwise fun a b => key a < key b
  sound : ∀ r ∈ records, all r ∧ floor ≤ key r
  covers : ∀ r, all r → floor ≤ key r → r ∈ records ∨ complete = false ∧ ∀ u ∈ records, key u < key r
  remains : complete = false → ∃ r, all r ∧ floor ≤ key r ∧ ∀ u ∈ records, key u < key r

variable {key} {all : ρ → Prop} {floor : Nat} {records : List ρ} {complete : Bool}

/-- **A page cut short is a page**, if the flag says so. -/
theorem IsPage.take (h : IsPage key all floor records complete) (n : Nat) :
    IsPage key all floor (records.take n) (complete && decide (records.length ≤ n)) where
  ascending := h.ascending.sublist (List.take_sublist n records)
  sound r hr := h.sound r (List.mem_of_mem_take hr)
  covers r hr hfloor := by
    by_cases hn : records.length ≤ n
    · rw [List.take_of_length_le hn, decide_eq_true hn, Bool.and_true]
      exact h.covers r hr hfloor
    · rw [decide_eq_false hn, Bool.and_false]
      have hsplit := h.ascending
      rw [← List.take_append_drop n records, List.pairwise_append] at hsplit
      rcases h.covers r hr hfloor with hmem | ⟨-, hbehind⟩
      · rw [← List.take_append_drop n records, List.mem_append] at hmem
        rcases hmem with hmem | hmem
        · exact Or.inl hmem
        · exact Or.inr ⟨rfl, fun u hu => hsplit.2.2 u hu r hmem⟩
      · exact Or.inr ⟨rfl, fun u hu => hbehind u (List.mem_of_mem_take hu)⟩
  remains hcomplete := by
    by_cases hn : records.length ≤ n
    · rw [decide_eq_true hn, Bool.and_true] at hcomplete
      rw [List.take_of_length_le hn]
      exact h.remains hcomplete
    · have hsplit := h.ascending
      rw [← List.take_append_drop n records, List.pairwise_append] at hsplit
      have hin : n < records.length := Nat.not_le.mp hn
      have hnext : records[n] ∈ records.drop n := by
        rw [List.drop_eq_getElem_cons hin]
        exact List.mem_cons_self
      obtain ⟨hall, hfloor⟩ := h.sound _ (List.mem_of_mem_drop hnext)
      exact ⟨_, hall, hfloor, fun u hu => hsplit.2.2 u hu _ hnext⟩

theorem IsPage.map {σ : Type} {key' : σ → Nat} (h : IsPage key all floor records complete) (f : ρ → σ)
    (hkey : ∀ r, all r → key' (f r) = key r) :
    IsPage key' (fun s => ∃ r, all r ∧ s = f r) floor (records.map f) complete where
  ascending := by
    rw [List.pairwise_map]
    refine h.ascending.imp_of_mem fun {a b} ha hb hab => ?_
    rw [hkey a (h.sound a ha).1, hkey b (h.sound b hb).1]
    exact hab
  sound s hs := by
    obtain ⟨r, hr, rfl⟩ := List.mem_map.mp hs
    obtain ⟨hall, hfloor⟩ := h.sound r hr
    exact ⟨⟨r, hall, rfl⟩, by rwa [hkey r hall]⟩
  covers s hs hfloor := by
    obtain ⟨r, hall, rfl⟩ := hs
    rw [hkey r hall] at hfloor
    rcases h.covers r hall hfloor with hmem | ⟨hcomplete, hbehind⟩
    · exact Or.inl (List.mem_map_of_mem hmem)
    · refine Or.inr ⟨hcomplete, fun u hu => ?_⟩
      obtain ⟨v, hv, rfl⟩ := List.mem_map.mp hu
      rw [hkey v (h.sound v hv).1, hkey r hall]
      exact hbehind v hv
  remains hcomplete := by
    obtain ⟨r, hall, hfloor, hbehind⟩ := h.remains hcomplete
    refine ⟨f r, ⟨r, hall, rfl⟩, by rwa [hkey r hall], fun u hu => ?_⟩
    obtain ⟨v, hv, rfl⟩ := List.mem_map.mp hu
    rw [hkey v (h.sound v hv).1, hkey r hall]
    exact hbehind v hv

end Page

/-! ## The server -/

/-- The smallest key from `floor` on, `bound` if there is none. -/
def next (bound : Nat) (keys : List Nat) (floor : Nat) : Nat :=
  keys.foldl (fun next v => if floor ≤ v ∧ v < next then v else next) bound

/-- At most `limit` keys from `floor` on in ascending order, and whether these are all. -/
def select (bound : Nat) (keys : List Nat) : Nat → Nat → List Nat × Bool
  | 0, floor => ([], decide (bound ≤ next bound keys floor))
  | limit + 1, floor =>
    if next bound keys floor < bound then
      (next bound keys floor :: (select bound keys limit (next bound keys floor + 1)).1,
        (select bound keys limit (next bound keys floor + 1)).2)
    else ([], true)

variable {bound floor : Nat} {keys : List Nat}

theorem next_le (keys : List Nat) (bound : Nat) : next bound keys floor ≤ bound ∧
    ∀ v ∈ keys, floor ≤ v → next bound keys floor ≤ v := by
  induction keys generalizing bound with
  | nil => exact ⟨Nat.le_refl bound, fun v hv => absurd hv List.not_mem_nil⟩
  | cons k rest ih =>
    rw [next, List.foldl_cons]
    change next _ rest floor ≤ _ ∧ ∀ v ∈ k :: rest, floor ≤ v → next _ rest floor ≤ v
    by_cases hk : floor ≤ k ∧ k < bound
    · rw [if_pos hk]
      obtain ⟨hbound, hmem⟩ := ih k
      refine ⟨Nat.le_trans hbound (Nat.le_of_lt hk.2), fun v hv hfloor => ?_⟩
      rcases List.mem_cons.mp hv with rfl | hv
      · exact hbound
      · exact hmem v hv hfloor
    · rw [if_neg hk]
      obtain ⟨hbound, hmem⟩ := ih bound
      refine ⟨hbound, fun v hv hfloor => ?_⟩
      rcases List.mem_cons.mp hv with rfl | hv
      · omega
      · exact hmem v hv hfloor

theorem next_mem (keys : List Nat) (bound : Nat) (h : next bound keys floor < bound) :
    next bound keys floor ∈ keys ∧ floor ≤ next bound keys floor := by
  induction keys generalizing bound with
  | nil => exact absurd h (Nat.lt_irrefl bound)
  | cons k rest ih =>
    rw [next, List.foldl_cons] at h ⊢
    change next _ rest floor < bound at h
    change next _ rest floor ∈ k :: rest ∧ floor ≤ next _ rest floor
    by_cases hk : floor ≤ k ∧ k < bound
    · rw [if_pos hk] at h ⊢
      by_cases hrest : next k rest floor < k
      · obtain ⟨hmem, hfloor⟩ := ih k hrest
        exact ⟨List.mem_cons_of_mem k hmem, hfloor⟩
      · have hsame : next k rest floor = k := Nat.le_antisymm (next_le rest k).1 (Nat.not_lt.mp hrest)
        rw [hsame]
        exact ⟨List.mem_cons_self, hk.1⟩
    · rw [if_neg hk] at h ⊢
      obtain ⟨hmem, hfloor⟩ := ih bound h
      exact ⟨List.mem_cons_of_mem k hmem, hfloor⟩

theorem select_none (h : ¬ next bound keys floor < bound) (limit : Nat) : select bound keys limit floor = ([], true) := by
  cases limit with
  | zero => rw [select, decide_eq_true (Nat.not_lt.mp h)]
  | succ limit => rw [select, if_neg h]

theorem select_full (h : next bound keys floor < bound) : select bound keys 0 floor = ([], false) := by
  rw [select, decide_eq_false (Nat.not_le.mpr h)]

theorem select_more (h : next bound keys floor < bound) (limit : Nat) :
    select bound keys (limit + 1) floor =
      (next bound keys floor :: (select bound keys limit (next bound keys floor + 1)).1,
        (select bound keys limit (next bound keys floor + 1)).2) := by
  rw [select, if_pos h]

/-- **What is selected is a page.** -/
theorem select_isPage (hkeys : ∀ v ∈ keys, v < bound) (limit floor : Nat) :
    IsPage id (· ∈ keys) floor (select bound keys limit floor).1 (select bound keys limit floor).2 := by
  have hmin : ∀ v ∈ keys, floor ≤ v → next bound keys floor ≤ v := (next_le keys bound).2
  have hnone : ¬ next bound keys floor < bound → ∀ v ∈ keys, ¬ floor ≤ v := fun h v hv hfloor =>
    h (Nat.lt_of_le_of_lt (hmin v hv hfloor) (hkeys v hv))
  induction limit generalizing floor with
  | zero =>
    rw [select]
    by_cases hlt : next bound keys floor < bound
    · obtain ⟨hmem, hfloor⟩ := next_mem keys bound hlt
      rw [decide_eq_false (Nat.not_le.mpr hlt)]
      exact ⟨List.Pairwise.nil, fun r hr => absurd hr List.not_mem_nil,
        fun r hr hge => Or.inr ⟨rfl, fun u hu => absurd hu List.not_mem_nil⟩,
        fun _ => ⟨_, hmem, hfloor, fun u hu => absurd hu List.not_mem_nil⟩⟩
    · rw [decide_eq_true (Nat.not_lt.mp hlt)]
      exact ⟨List.Pairwise.nil, fun r hr => absurd hr List.not_mem_nil, fun r hr hge => absurd hge (hnone hlt r hr),
        fun h => Bool.noConfusion h⟩
  | succ limit ih =>
    rw [select]
    by_cases hlt : next bound keys floor < bound
    · obtain ⟨hmem, hfloor⟩ := next_mem keys bound hlt
      rw [if_pos hlt]
      have hrest := ih (next bound keys floor + 1) (next_le keys bound).2
        (fun h v hv hge => h (Nat.lt_of_le_of_lt ((next_le keys bound).2 v hv hge) (hkeys v hv)))
      refine ⟨List.pairwise_cons.mpr ⟨fun v hv => ?_, hrest.ascending⟩, fun r hr => ?_, fun r hr hge => ?_, fun h => ?_⟩
      · exact (hrest.sound v hv).2
      · rcases List.mem_cons.mp hr with rfl | hr
        · exact ⟨hmem, hfloor⟩
        · obtain ⟨hin, hge⟩ := hrest.sound r hr
          exact ⟨hin, Nat.le_trans hfloor (Nat.le_of_succ_le hge)⟩
      · rcases Nat.lt_or_eq_of_le (hmin r hr hge) with hbehind | heq
        · rcases hrest.covers r hr hbehind with hin | ⟨hcomplete, hlast⟩
          · exact Or.inl (List.mem_cons_of_mem _ hin)
          · refine Or.inr ⟨hcomplete, fun u hu => ?_⟩
            rcases List.mem_cons.mp hu with rfl | hu
            · exact hbehind
            · exact hlast u hu
        · exact Or.inl (heq ▸ List.mem_cons_self)
      · obtain ⟨r, hin, hge, hlast⟩ := hrest.remains h
        refine ⟨r, hin, Nat.le_trans hfloor (Nat.le_of_succ_le hge), fun u hu => ?_⟩
        rcases List.mem_cons.mp hu with rfl | hu
        · exact hge
        · exact hlast u hu
    · rw [if_neg hlt]
      exact ⟨List.Pairwise.nil, fun r hr => absurd hr List.not_mem_nil, fun r hr hge => absurd hge (hnone hlt r hr),
        fun h => Bool.noConfusion h⟩

theorem select_ne_nil {limit : Nat} (hlimit : 0 < limit) (h : (select bound keys limit floor).2 = false) :
    (select bound keys limit floor).1 ≠ [] := by
  obtain ⟨n, rfl⟩ : ∃ n, limit = n + 1 := ⟨limit - 1, by omega⟩
  rw [select] at h ⊢
  split
  · exact List.cons_ne_nil _ _
  · rename_i hlt
    rw [if_neg hlt] at h
    exact Bool.noConfusion h

/-! ## The client -/

section Client

variable {ρ : Type} (key : ρ → Nat) (bound : Nat) (respond : Nat → List ρ × Bool)

/-- At most `fuel` requests, each behind the last record received; `none` if the listing is not complete then, or
    cannot go on. -/
def enumerate : Nat → Nat → Option (List ρ)
  | 0, _ => none
  | fuel + 1, start =>
    if (respond start).2 then some (respond start).1
    else
      match (respond start).1.getLast? with
      | none => none
      | some last => if key last + 1 < bound then (enumerate fuel (key last + 1)).map ((respond start).1 ++ ·) else none

/-- Every record from `floor` on exactly once, in ascending order. -/
structure IsListing (all : ρ → Prop) (floor : Nat) (result : List ρ) : Prop where
  ascending : result.Pairwise fun a b => key a < key b
  mem_iff : ∀ r, r ∈ result ↔ all r ∧ floor ≤ key r

variable {key bound respond} {all : ρ → Prop}

theorem enumerate_mono {fuel : Nat} {floor : Nat} {result : List ρ} (h : enumerate key bound respond fuel floor = some result)
    (k : Nat) : enumerate key bound respond (fuel + k) floor = some result := by
  induction fuel generalizing floor result with
  | zero => cases h
  | succ fuel ih =>
    rw [show fuel + 1 + k = fuel + k + 1 by omega]
    rw [enumerate] at h ⊢
    split
    · rename_i hcomplete
      rwa [if_pos hcomplete] at h
    · rename_i hcomplete
      rw [if_neg hcomplete] at h
      cases hlast : (respond floor).1.getLast? with
      | none =>
        rw [hlast] at h
        cases h
      | some last =>
        rw [hlast] at h
        dsimp only at h ⊢
        split
        · rename_i hnext
          rw [if_pos hnext] at h
          obtain ⟨rest, hrest, rfl⟩ := Option.map_eq_some_iff.mp h
          rw [ih hrest]
          rfl
        · rename_i hnext
          rw [if_neg hnext] at h
          cases h

theorem enumerate_unique {fuel fuel' : Nat} {floor : Nat} {result result' : List ρ}
    (h : enumerate key bound respond fuel floor = some result) (h' : enumerate key bound respond fuel' floor = some result') :
    result = result' := by
  have hlong := enumerate_mono h fuel'
  rw [Nat.add_comm, enumerate_mono h' fuel] at hlong
  exact (Option.some.inj hlong).symm

/-- **The listing comes to an end, and it is complete.** -/
theorem enumerate_listing (hbound : ∀ r, all r → key r < bound)
    (hpage : ∀ start, start < bound → IsPage key all start (respond start).1 (respond start).2)
    (hprogress : ∀ start, (respond start).2 = false → (respond start).1 ≠ []) (fuel : Nat) {floor : Nat}
    (hfloor : floor < bound) (hfuel : bound - floor ≤ fuel) :
    ∃ result, enumerate key bound respond fuel floor = some result ∧ IsListing key all floor result := by
  induction fuel generalizing floor with
  | zero => omega
  | succ fuel ih =>
    have h := hpage floor hfloor
    rw [enumerate]
    cases hcomplete : (respond floor).2 with
    | true =>
      refine ⟨_, if_pos rfl, h.ascending, fun r => ⟨h.sound r, fun hr => ?_⟩⟩
      rcases h.covers r hr.1 hr.2 with hin | ⟨hfalse, -⟩
      · exact hin
      · rw [hcomplete] at hfalse
        cases hfalse
    | false =>
      have hne := hprogress floor hcomplete
      obtain ⟨hlast, hlow⟩ := h.sound _ (List.getLast_mem hne)
      obtain ⟨r, hr, -, hbehind⟩ := h.remains hcomplete
      have hnext : key ((respond floor).1.getLast hne) + 1 < bound :=
        Nat.lt_of_le_of_lt (hbehind _ (List.getLast_mem hne)) (hbound r hr)
      have hbelow : ∀ u ∈ (respond floor).1, key u ≤ key ((respond floor).1.getLast hne) := by
        intro u hu
        have hsplit := h.ascending
        rw [← List.dropLast_append_getLast hne, List.pairwise_append] at hsplit
        rw [← List.dropLast_append_getLast hne, List.mem_append] at hu
        rcases hu with hu | hu
        · exact Nat.le_of_lt (hsplit.2.2 u hu _ List.mem_cons_self)
        · exact Nat.le_of_eq (congrArg key (List.mem_singleton.mp hu))
      obtain ⟨rest, hrest, hlisting⟩ := ih hnext (by omega)
      rw [if_neg Bool.false_ne_true, List.getLast?_eq_getLast_of_ne_nil hne]
      dsimp only
      rw [if_pos hnext, hrest]
      refine ⟨_, rfl, List.pairwise_append.mpr ⟨h.ascending, hlisting.ascending, fun a ha b hb => ?_⟩, fun u => ?_⟩
      · have := ((hlisting.mem_iff b).mp hb).2
        have := hbelow a ha
        omega
      · rw [List.mem_append, hlisting.mem_iff]
        constructor
        · rintro (hu | ⟨hu, hge⟩)
          · exact h.sound u hu
          · exact ⟨hu, by omega⟩
        · rintro ⟨hu, hge⟩
          by_cases hin : u ∈ (respond floor).1
          · exact Or.inl hin
          · rcases h.covers u hu hge with hin' | ⟨-, hbehind'⟩
            · exact absurd hin' hin
            · exact Or.inr ⟨hu, hbehind' _ (List.getLast_mem hne)⟩

end Client

end Paging
