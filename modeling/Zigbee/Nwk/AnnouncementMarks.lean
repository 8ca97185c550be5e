import Zigbee.Nwk.ChildTable

/-!
# Announcement marks

The marks of the children that a parent announcement still has to name, while children come, go and poll.

* `NwkLayer.arrive`, `readmitted`, `authorizeChild` — what a granted admission does to the table.
* `Kept` — no mark appears, and one goes with its child or when the child has been heard.
* `takeChunk_outstanding` — a chunk is the first of the children that are outstanding.
-/

namespace Zigbee.Nwk

/-! ## Admissions -/

namespace NwkLayer

/-- A device that associates, or rejoins without being known, gets an entry. -/
def arrive (s : NwkLayer) (ieee : IeeeAddress) (address : ShortAddress) (deviceType : NeighborDeviceType) (secured : Bool) : NwkLayer :=
  { s with
    neighbors := (s.neighbors.addOrUpdate (.admitted ieee address deviceType secured)).1 }

/-- A known device that rejoins keeps its entry. -/
def readmitted (s : NwkLayer) (ieee : IeeeAddress) (deviceType : NeighborDeviceType) (secured : Bool) : NwkLayer :=
  { s with
    neighbors := s.neighbors.modifyByIeee ieee fun e =>
      { e with
        deviceType
        relationship := if secured then .child else .unauthenticatedChild
        age := 0
        keepaliveConfirmed := secured } }

def authorizeChild (s : NwkLayer) (address : ShortAddress) : NwkLayer :=
  { s with
    neighbors := s.neighbors.modifyByShort address fun e =>
      if e.relationship == .unauthenticatedChild then { e with relationship := .child, age := 0, keepaliveConfirmed := true } else e }

end NwkLayer

/-! ## Marks -/

/-- The entry is still to be announced. -/
def NeighborEntry.marked (e : NeighborEntry) : Bool := e.active && e.parentAnncePending

/-- The children that are still to be announced, in the order of their slots. -/
def outstanding (entries : List NeighborEntry) : List IeeeAddress := (entries.filter (·.marked)).map (·.ieeeAddress)

/-- The children whose marks have gone. -/
def excusedBy (entries entries' : List NeighborEntry) : List IeeeAddress :=
  (entries.zip entries').filterMap fun x => if x.1.marked && !x.2.marked then some x.1.ieeeAddress else none

/-- No mark appears, none changes its child, and one goes with its child or when the child has been heard. -/
structure Kept (e e' : NeighborEntry) : Prop where
  mark : e'.marked = true → e.marked = true ∧ e'.ieeeAddress = e.ieeeAddress
  gone : e.marked = true → e'.marked = true ∨ (e'.isEndDeviceChild = true → e'.ieeeAddress = e.ieeeAddress → e'.keepaliveConfirmed = true)

theorem Kept.refl (e : NeighborEntry) : Kept e e := ⟨fun h => ⟨h, rfl⟩, Or.inl⟩

theorem Kept.drop (e : NeighborEntry) : Kept e e.drop := ⟨fun h => (nomatch h), fun _ => Or.inr fun h => (nomatch h)⟩

/-- The excused and the outstanding ones are those that were outstanding. -/
theorem outstanding_perm {entries entries' : List NeighborEntry} (h : List.Forall₂ Kept entries entries') :
    (outstanding entries).Perm (excusedBy entries entries' ++ outstanding entries') := by
  induction h with
  | nil => exact List.Perm.refl _
  | @cons e e' entries entries' hkept _ ih =>
    unfold outstanding excusedBy at ih ⊢
    rw [List.zip_cons_cons, List.filterMap_cons, List.filter_cons, List.filter_cons]
    cases he : e.marked with
    | false =>
      have he' : e'.marked = false := by
        by_contra hmark
        obtain ⟨hmarked, -⟩ := hkept.mark (by simpa using hmark)
        rw [he] at hmarked
        cases hmarked
      simpa [he, he'] using ih
    | true =>
      cases he' : e'.marked with
      | false => simpa [he, he'] using ih
      | true =>
        have hieee := (hkept.mark he').2
        simp only [Bool.not_true, Bool.and_false, Bool.false_eq_true, if_false, if_true, List.map_cons, hieee]
        exact (ih.cons e.ieeeAddress).trans List.perm_middle.symm

theorem forall₂_modifyFirst {R : NeighborEntry → NeighborEntry → Prop} (hrefl : ∀ e, R e e) {p : NeighborEntry → Bool}
    {f : NeighborEntry → NeighborEntry} (hf : ∀ e, p e = true → R e (f e)) (l : List NeighborEntry) :
    List.Forall₂ R l (Table.modifyFirst p f l) := by
  induction l with
  | nil => exact List.Forall₂.nil
  | cons e l ih =>
    rw [Table.modifyFirst_cons]
    split
    · rename_i hp
      exact List.Forall₂.cons (hf e hp) (List.forall₂_same.mpr fun e _ => hrefl e)
    · exact List.Forall₂.cons (hrefl e) ih

/-! ### Every call of the environment keeps marks -/

open NeighborEntry

theorem kept_keepalive (source : Option IeeeAddress) (e : NeighborEntry) : Kept e (e.refresh source) := by
  unfold refresh
  split
  · exact ⟨fun h => by simp [marked] at h, fun _ => Or.inr fun _ _ => rfl⟩
  · exact .refl e

variable {e e' : NeighborEntry}

/-- A change that spares the mark, the address and whether the slot is in use. -/
theorem Kept.of_mark (hactive : e'.active = e.active) (hmark : e'.parentAnncePending = e.parentAnncePending)
    (hieee : e'.ieeeAddress = e.ieeeAddress) : Kept e e' := by
  have hsame : e'.marked = e.marked := by rw [marked, hactive, hmark, marked]
  exact ⟨fun h => ⟨hsame ▸ h, hieee⟩, fun h => Or.inl (hsame.trans h)⟩

/-- A new entry that is no confirmed child's loses the mark of its slot. -/
theorem Kept.of_new (hmark : e'.parentAnncePending = false) (hchild : e'.isEndDeviceChild = true → e'.keepaliveConfirmed = true) :
    Kept e e' :=
  ⟨fun h => by simp [marked, hmark] at h, fun _ => Or.inr fun h _ => hchild h⟩

variable {l' : List NeighborEntry}

namespace NeighborTable

variable (t : NeighborTable)

theorem modifySearched_kept (p : NeighborEntry → Bool) {f : NeighborEntry → NeighborEntry} (hf : ∀ e, Kept e (f e)) :
    List.Forall₂ Kept t.entries (t.modifySearched p f).entries := by
  conv_lhs => rw [← List.take_append_drop t.count t.entries]
  exact List.rel_append (forall₂_modifyFirst .refl (fun e _ => hf e) _) (List.forall₂_same.mpr fun e _ => .refl e)

/-- Tables of one length that are related slot by slot. -/
theorem forall₂_of_slots {l : List NeighborEntry} (hlen : l'.length = l.length)
    (h : ∀ (i : Nat) e e', l[i]? = some e → l'[i]? = some e' → Kept e e') : List.Forall₂ Kept l l' :=
  List.forall₂_iff_get.mpr ⟨hlen.symm, fun i hi hi' => h i _ _ (List.getElem?_eq_getElem hi) (List.getElem?_eq_getElem hi')⟩

/-- A new entry takes a slot, and other entries may be dropped. -/
theorem set_kept {l : List NeighborEntry} (hlen : l'.length = l.length) {index : Nat} {live : NeighborEntry} (hlive : ∀ e, Kept e live)
    (hrest : ∀ (i : Nat) e e', l[i]? = some e → l'[i]? = some e' → Kept e e') : List.Forall₂ Kept l (l'.set index live) := by
  refine forall₂_of_slots (by rw [List.length_set, hlen]) fun i e e' he he' => ?_
  rw [List.getElem?_set] at he'
  split at he'
  · split at he'
    · cases he'
      exact hlive e
    · cases he'
  · exact hrest i e e' he he'

/-- **A new entry brings no mark, and is no child that has not been heard.** -/
theorem addOrUpdate_kept {entry : NeighborEntry} (hmark : entry.parentAnncePending = false)
    (hchild : ({ entry with active := true } : NeighborEntry).isEndDeviceChild = true → entry.keepaliveConfirmed = true) :
    List.Forall₂ Kept t.entries (t.addOrUpdate entry).1.entries := by
  have hlive : ∀ e, Kept e { entry with active := true } := fun e => .of_new hmark hchild
  have hsame : ∀ (i : Nat) (e e' : NeighborEntry), t.entries[i]? = some e → t.entries[i]? = some e' → Kept e e' := by
    intro i e e' he he'
    rw [he] at he'
    cases he'
    exact .refl e
  unfold addOrUpdate
  dsimp only
  split
  · refine set_kept List.length_mapIdx hlive fun i e e' he he' => ?_
    rw [List.getElem?_mapIdx, he, Option.map_some] at he'
    cases he'
    split
    · exact .drop e
    · exact .refl e
  · split
    · exact set_kept rfl hlive hsame
    · split
      · exact set_kept rfl hlive hsame
      · exact List.forall₂_same.mpr fun e _ => .refl e

end NeighborTable

/-! ### Evictions -/

/-- The slot is as it was, or it has been freed. -/
def Evicted (e e' : NeighborEntry) : Prop := e' = e ∨ e' = e.drop

theorem Evicted.kept (h : Evicted e e') : Kept e e' := by
  rcases h with rfl | rfl
  · exact .refl _
  · exact .drop _

theorem Evicted.trans {e'' : NeighborEntry} (h : Evicted e e') (h' : Evicted e' e'') : Evicted e e'' := by
  rcases h with rfl | rfl
  · exact h'
  · rcases h' with rfl | rfl
    · exact Or.inr rfl
    · exact Or.inr rfl

/-- Slots have been freed at most, and the router is the same. -/
structure NwkLayer.Evicts (s s' : NwkLayer) : Prop where
  canRoute : s'.canRoute = s.canRoute
  entries : List.Forall₂ Evicted s.neighbors.entries s'.neighbors.entries

namespace NwkLayer

variable {s s' s'' : NwkLayer}

theorem Evicts.refl (s : NwkLayer) : s.Evicts s := ⟨rfl, List.forall₂_same.mpr fun _ _ => Or.inl rfl⟩

theorem forall₂_evicted_trans {l l'' : List NeighborEntry} (h : List.Forall₂ Evicted l l') (h' : List.Forall₂ Evicted l' l'') :
    List.Forall₂ Evicted l l'' := by
  induction h generalizing l'' with
  | nil => exact h'
  | cons he _ ih =>
    cases h' with
    | cons he' hrest' => exact List.Forall₂.cons (he.trans he') (ih hrest')

theorem Evicts.trans (h : s.Evicts s') (h' : s'.Evicts s'') : s.Evicts s'' :=
  ⟨h'.canRoute.trans h.canRoute, forall₂_evicted_trans h.entries h'.entries⟩

theorem evictChild_evicts (s : NwkLayer) (short : ShortAddress) (ieee : IeeeAddress) : s.Evicts (s.evictChild short ieee) :=
  ⟨rfl, forall₂_modifyFirst (fun _ => Or.inl rfl) (fun _ _ => Or.inr rfl) s.neighbors.entries⟩

theorem applyOne_evicts (s : NwkLayer × ParentAnnceOutcome) (ieee : IeeeAddress) : s.1.Evicts (applyOne s ieee).1 := by
  unfold applyOne
  split
  · split
    · split
      · exact .refl s.1
      · exact evictChild_evicts s.1 _ _
    · exact .refl s.1
  · exact .refl s.1

theorem applyParentAnnce_evicts (s : NwkLayer) (announced : List IeeeAddress) : s.Evicts (s.applyParentAnnce announced).1 := by
  have hfold : ∀ s' : NwkLayer × ParentAnnceOutcome, s'.1.Evicts (announced.foldl applyOne s').1 := by
    induction announced with
    | nil => exact fun s' => .refl s'.1
    | cons a announced ih => exact fun s' => (applyOne_evicts s' a).trans (ih _)
  unfold applyParentAnnce
  split
  · exact .refl s
  · exact hfold (s, ⟨[], []⟩)

theorem removeChildrenByIeee_evicts (s : NwkLayer) (ieees : List IeeeAddress) : s.Evicts (s.removeChildrenByIeee ieees) := by
  have hone : ∀ (s : NwkLayer) a, s.Evicts (removeOne s a) := by
    intro s a
    unfold removeOne
    split
    · split
      · exact evictChild_evicts s _ _
      · exact .refl s
    · exact .refl s
  have hfold : ∀ s : NwkLayer, s.Evicts (ieees.foldl removeOne s) := by
    induction ieees with
    | nil => exact .refl
    | cons a ieees ih => exact fun s => (hone s a).trans (ih _)
  unfold removeChildrenByIeee
  split
  · exact .refl s
  · exact hfold s

end NwkLayer

/-! ### Taking a chunk -/

theorem takeChunk_outstanding (n : Nat) (entries : List NeighborEntry) :
    (NwkLayer.takeChunk n entries).1 ++ outstanding (NwkLayer.takeChunk n entries).2 = outstanding entries ∧
      (NwkLayer.takeChunk n entries).1.length = min n (outstanding entries).length := by
  have hmark : ∀ e : NeighborEntry, (e.active && e.parentAnncePending) = e.marked := fun _ => rfl
  induction entries generalizing n with
  | nil => cases n <;> simp [NwkLayer.takeChunk, outstanding]
  | cons e entries ih =>
    unfold outstanding at ih ⊢
    cases n with
    | zero =>
      rw [NwkLayer.takeChunk, hmark]
      split
      · simp
      · rename_i he
        obtain ⟨hchunk, hlen⟩ := ih 0
        simp only [List.filter_cons, he, Bool.false_eq_true, if_false]
        exact ⟨hchunk, hlen⟩
    | succ n =>
      rw [NwkLayer.takeChunk, hmark]
      split
      · rename_i he
        obtain ⟨hchunk, hlen⟩ := ih n
        have hcleared : ({ e with parentAnncePending := false } : NeighborEntry).marked = false := by
          simp [marked]
        simp only [List.filter_cons, he, hcleared, Bool.false_eq_true, if_false, if_true, List.map_cons, List.cons_append,
          List.length_cons]
        refine ⟨congrArg (e.ieeeAddress :: ·) hchunk, ?_⟩
        rw [hlen]
        omega
      · rename_i he
        obtain ⟨hchunk, hlen⟩ := ih (n + 1)
        simp only [List.filter_cons, he, Bool.false_eq_true, if_false]
        exact ⟨hchunk, hlen⟩

variable {s : NwkLayer}

theorem takeParentAnnceChunk_outstanding (hroute : s.canRoute = true) (n : Nat) :
    (s.takeParentAnnceChunk n).2 ++ outstanding (s.takeParentAnnceChunk n).1.neighbors.entries = outstanding s.neighbors.entries ∧
      (s.takeParentAnnceChunk n).2.length = min n (outstanding s.neighbors.entries).length := by
  unfold NwkLayer.takeParentAnnceChunk
  rw [if_neg (by simp [hroute])]
  exact takeChunk_outstanding n s.neighbors.entries

theorem hasParentAnncePending_iff : s.hasParentAnncePending = true ↔ outstanding s.neighbors.entries ≠ [] := by
  rw [NwkLayer.hasParentAnncePending, List.any_eq_true, outstanding, ne_eq, List.map_eq_nil_iff, List.filter_eq_nil_iff]
  simp [marked]

/-- Construction marks the end-device children. -/
theorem markParentAnncePending_outstanding (hroute : s.canRoute = true) :
    outstanding s.markParentAnncePending.1.neighbors.entries = s.authenticatedChildIeees ∧
      s.markParentAnncePending.2 = s.authenticatedChildIeees.length := by
  unfold NwkLayer.markParentAnncePending NwkLayer.authenticatedChildIeees
  rw [hroute, if_neg (by decide), if_neg (by decide)]
  refine ⟨?_, by rw [List.length_map, ← List.countP_eq_length_filter]⟩
  dsimp only
  rw [outstanding, NeighborTable.entries_mapActive]
  induction s.neighbors.entries with
  | nil => rfl
  | cons e entries ih =>
    rw [List.map_cons, List.filter_cons, List.filter_cons]
    have hmark : (if e.active then ({ e with parentAnncePending := e.isEndDeviceChild } : NeighborEntry) else e).marked = e.isEndDeviceChild := by
      cases hactive : e.active with
      | true => simp [marked]
      | false => simp [marked, isEndDeviceChild, hactive]
    rw [hmark]
    split
    · rw [List.map_cons, List.map_cons, ih]
      split <;> rfl
    · exact ih

end Zigbee.Nwk
