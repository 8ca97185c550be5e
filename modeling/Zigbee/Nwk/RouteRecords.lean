import Zigbee.Nwk.SourceRouting

/-!
# Route Records into a full table

A record stores the route to its source first, and then one to each of its relays.  Each of these may
take the slot of the oldest entry, and of entries of one age the last: that may be a slot which the same
record has just filled, when the other slots are fresh too.

* `SourceRouteTable.WellFormed` — the slots of the table, and no destination in two active ones.
* `SourceRouteTable.Keeps` — the condition on the table before a record under which the route to the
  source outlives the relays.
* `route_record_usable` — after a record the source is found with the recorded relays exactly when the
  table met that condition, and no destination has two active entries.
* `SourceRouteTable.HasRoom` — the condition under which all the routes of the record outlive each other.
* `route_record_round_trip` — under that condition, and no other, the data frames to the source and to each
  relay go back over the recorded relays.
-/

namespace Zigbee.Nwk

open Run Table Bytes SourceRouteEntry

/-! ## Slots -/

/-- The slot is free, or its route has been idle for a second at least. -/
def SourceRouteEntry.spare (e : SourceRouteEntry) : Bool := !e.active || e.age != 0

/-- A route to the destination that was stored or used within this second. -/
def SourceRouteEntry.freshFor (e : SourceRouteEntry) (destination : ShortAddress) : Bool :=
  e.isFor destination && e.age == 0

variable {e : SourceRouteEntry} {x : ShortAddress}

open SourceRouteEntry

theorem SourceRouteEntry.isFor_iff : e.isFor x = true ↔ e.active = true ∧ e.destination = x := by
  simp [isFor]

theorem SourceRouteEntry.isFor_ne {y : ShortAddress} (hxy : x ≠ y) (h : e.isFor x = true) : e.isFor y = false := by
  simp [isFor, (isFor_iff.mp h).2, hxy]

theorem SourceRouteEntry.spare_of_isFor (h : e.isFor x = true) (hfresh : e.freshFor x = false) : e.spare = true := by
  obtain ⟨hactive, -⟩ := isFor_iff.mp h
  simpa [freshFor, spare, h, hactive] using hfresh

theorem SourceRouteEntry.not_spare_of_freshFor (h : e.freshFor x = true) : e.spare = false := by
  simp only [freshFor, Bool.and_eq_true, beq_iff_eq] at h
  simp [spare, (isFor_iff.mp h.1).1, h.2]

/-- What an insertion writes into the slot that it takes. -/
def storedRoute (destination : ShortAddress) (relays : List ShortAddress) : SourceRouteEntry :=
  ⟨destination, relays.take MAX_SOURCE_ROUTE_RELAYS, 0, true⟩

@[simp] theorem storedRoute_isFor (x : ShortAddress) (relays : List ShortAddress) : (storedRoute x relays).isFor x = true := by
  simp [isFor, storedRoute]

theorem storedRoute_not_isFor {y : ShortAddress} (hxy : x ≠ y) (relays : List ShortAddress) :
    (storedRoute x relays).isFor y = false := by
  simp [isFor, storedRoute, hxy]

@[simp] theorem storedRoute_spare (x : ShortAddress) (relays : List ShortAddress) : (storedRoute x relays).spare = false := rfl

/-- The last of the entries is taken before the others: none of them is free, and none is older. -/
def lastIsOldest (others : List SourceRouteEntry) (last : SourceRouteEntry) : Bool :=
  others.all fun e => e.active && (!last.active || decide (e.age ≤ last.age))

variable {routes : List (ShortAddress × List ShortAddress)}

namespace SourceRouteTable

variable {t : SourceRouteTable} {others : List SourceRouteEntry} {last : SourceRouteEntry} {x y : ShortAddress}
  {relays : List ShortAddress}

def UniqueActive (t : SourceRouteTable) : Prop := UniqueLive (·.active) (·.destination) t

/-- All the slots of a router's table, and no two active entries for one destination. -/
structure WellFormed (t : SourceRouteTable) : Prop where
  slots : t.length = MAX_SOURCE_ROUTES true
  unique : t.UniqueActive

/-- The route to this source is put into the last slot. -/
def lastTaken (t : SourceRouteTable) (src : ShortAddress) : Bool :=
  t.getLast?.any fun last =>
    !t.dropLast.any (·.isFor src) && (last.isFor src || lastIsOldest t.dropLast last)

/-- The route to the source is not in the last slot, or the other slots that are free or idle are enough
    for the relays that these slots hold no fresh route to. -/
def Keeps (t : SourceRouteTable) (src : ShortAddress) (relays : List ShortAddress) : Prop :=
  t.lastTaken src = true →
    relays.countP (fun r => !t.dropLast.any (·.freshFor r)) ≤ t.dropLast.countP (·.spare)

instance : DecidablePred fun relays => t.Keeps x relays := fun relays =>
  inferInstanceAs (Decidable (t.lastTaken x = true →
    relays.countP (fun r => !t.dropLast.any (·.freshFor r)) ≤ t.dropLast.countP (·.spare)))

/-- The last slot and the other slots that are free or idle are enough for the destinations that these
    other slots hold no fresh route to. -/
def HasRoom (t : SourceRouteTable) (dests : List ShortAddress) : Prop :=
  dests.countP (fun d => !t.dropLast.any (·.freshFor d)) ≤ t.dropLast.countP (·.spare) + 1

instance : DecidablePred t.HasRoom := fun dests =>
  inferInstanceAs (Decidable (dests.countP (fun d => !t.dropLast.any (·.freshFor d)) ≤ t.dropLast.countP (·.spare) + 1))

/-! ## One insertion -/

/-- The slot that an insertion takes: the last one when it is the oldest, otherwise a spare one. -/
theorem slot_concat (others : List SourceRouteEntry) (last : SourceRouteEntry) :
    (lastIsOldest others last = true ∧ slot (others ++ [last]) = some others.length) ∨
      (lastIsOldest others last = false ∧
        ∃ i e, slot (others ++ [last]) = some i ∧ others[i]? = some e ∧ e.spare = true) := by
  cases hfree : others.findIdx? (!·.active) with
  | some i =>
    obtain ⟨e, hi, he⟩ := getElem?_of_findIdx? hfree
    refine Or.inr ⟨List.all_eq_false.mpr ⟨e, List.mem_of_getElem? hi, ?_⟩, i, e, ?_, hi, ?_⟩
    · simp only [Bool.not_eq_true'] at he
      simp [he]
    · rw [slot, List.findIdx?_append, hfree]
      rfl
    · rw [spare, he, Bool.true_or]
  | none =>
    have hactive : ∀ e ∈ others, e.active = true := fun e he => by
      simpa using List.findIdx?_eq_none_iff.mp hfree e he
    have hindex : (others ++ [last]).zipIdx = others.zipIdx ++ [(last, others.length)] := by
      rw [List.zipIdx_append]
      simp
    cases hlast : last.active with
    | false =>
      refine Or.inl ⟨List.all_eq_true.mpr fun e he => by simp [hactive e he, hlast], ?_⟩
      rw [slot, List.findIdx?_append, hfree]
      simp [hlast]
    | true =>
      have hall : others.zipIdx.filter (·.1.active) = others.zipIdx := by
        refine List.filter_eq_self.mpr fun p hp => hactive p.1 ?_
        exact List.fst_mem_of_mem_zipIdx hp
      have hslot : slot (others ++ [last]) =
          (maxByKey (fun p => p.1.age.toNat) (others.zipIdx ++ [(last, others.length)])).map (·.2) := by
        rw [slot, List.findIdx?_append, hfree, hindex, List.filter_append, hall]
        simp [hlast]
      rw [maxByKey_concat] at hslot
      cases hmax : maxByKey (fun p : SourceRouteEntry × Nat => p.1.age.toNat) others.zipIdx with
      | none =>
        rw [hmax] at hslot
        refine Or.inl ⟨?_, hslot⟩
        have hnil : others.zipIdx = [] := maxByKey_eq_none.mp hmax
        rw [List.zipIdx_eq_nil_iff.mp hnil]
        rfl
      | some p =>
        obtain ⟨e, i⟩ := p
        rw [hmax] at hslot
        have hi : others[i]? = some e := List.mem_zipIdx_iff_getElem?.mp (maxByKey_mem hmax)
        by_cases hle : e.age.toNat ≤ last.age.toNat
        · refine Or.inl ⟨List.all_eq_true.mpr fun y hy => ?_, ?_⟩
          · obtain ⟨j, hj⟩ := List.mem_iff_getElem?.mp hy
            have hge := maxByKey_max hmax (y, j) (List.mem_zipIdx_iff_getElem?.mpr hj)
            have hyle : y.age ≤ last.age := UInt16.le_iff_toNat_le.mpr (hge.trans hle)
            simp [hactive y hy, hyle]
          · rw [hslot]
            dsimp only
            rw [if_pos hle, Option.map_some]
        · refine Or.inr ⟨List.all_eq_false.mpr ⟨e, List.mem_of_getElem? hi, ?_⟩, i, e, ?_, hi, ?_⟩
          · have : ¬ e.age ≤ last.age := fun h => hle (UInt16.le_iff_toNat_le.mp h)
            simp [hlast, this]
          · rw [hslot]
            dsimp only
            rw [if_neg hle, Option.map_some]
          · have hne : e.age ≠ 0 := by
              intro h0
              rw [h0] at hle
              exact hle (Nat.zero_le _)
            simp [spare, hne]

theorem lastTaken_concat (others : List SourceRouteEntry) (last : SourceRouteEntry) (x : ShortAddress) :
    lastTaken (others ++ [last]) x = (!others.any (·.isFor x) && (last.isFor x || lastIsOldest others last)) := by
  simp [lastTaken]

/-- An insertion writes the route into the last slot, or into another one that its destination has, or
    that is spare. -/
theorem insert_concat (others : List SourceRouteEntry) (last : SourceRouteEntry) (x : ShortAddress)
    (relays : List ShortAddress) :
    (lastTaken (others ++ [last]) x = true ∧ insert (others ++ [last]) x relays = others ++ [storedRoute x relays]) ∨
      (lastTaken (others ++ [last]) x = false ∧ ∃ i e, others[i]? = some e ∧
        (e.isFor x = true ∨ (e.spare = true ∧ others.any (·.isFor x) = false)) ∧
        insert (others ++ [last]) x relays = others.set i (storedRoute x relays) ++ [last]) := by
  let f : SourceRouteEntry → SourceRouteEntry := fun e =>
    { e with relayList := relays.take MAX_SOURCE_ROUTE_RELAYS, age := 0 }
  have hf : ∀ e : SourceRouteEntry, e.isFor x = true → f e = storedRoute x relays := by
    intro e he
    obtain ⟨hactive, hdest⟩ := isFor_iff.mp he
    simp [f, storedRoute, hactive, hdest]
  rw [lastTaken_concat, insert, List.any_append]
  cases hothers : others.any (·.isFor x) with
  | true =>
    obtain ⟨z, hz, hzx⟩ := List.any_eq_true.mp hothers
    rcases modifyFirst_cases (·.isFor x) f others with ⟨i, e, hi, -, he, heq⟩ | ⟨hno, -⟩
    · refine Or.inr ⟨rfl, i, e, hi, Or.inl he, ?_⟩
      rw [if_pos (by simp), ← hf e he, ← heq]
      exact modifyFirst_append_of_any hothers
    · exact absurd hzx (by simp [hno z hz])
  | false =>
    have hno : ∀ e ∈ others, e.isFor x = false := fun e he => by simpa using List.any_eq_false.mp hothers e he
    cases hlast : last.isFor x with
    | true =>
      refine Or.inl ⟨rfl, ?_⟩
      rw [if_pos (by simp [hlast]), modifyFirst_append_last hno hlast, ← hf last hlast]
    | false =>
      rw [if_neg (by simp [hlast])]
      rcases slot_concat others last with ⟨hold, hslot⟩ | ⟨hold, i, e, hslot, hi, he⟩
      · refine Or.inl ⟨by simp [hold], ?_⟩
        rw [hslot]
        simp [storedRoute]
      · refine Or.inr ⟨by simp [hold], i, e, hi, Or.inr ⟨he, rfl⟩, ?_⟩
        rw [hslot]
        exact List.set_append_left i _ (List.getElem?_eq_some_iff.mp hi).1

theorem UniqueActive.insert (h : t.UniqueActive) (x : ShortAddress) (relays : List ShortAddress) :
    (t.insert x relays).UniqueActive := by
  unfold SourceRouteTable.insert
  split
  · exact UniqueLive.modifyFirst h (fun _ => rfl) (fun _ _ hr => hr)
  · rename_i hnone
    split
    · exact h
    · refine UniqueLive.set h fun _ j y _ hj hy hk => hnone ?_
      exact List.any_eq_true.mpr ⟨y, List.mem_of_getElem? hj, isFor_iff.mpr ⟨hy, hk⟩⟩

/-- The active entry for a destination is the one that a search finds. -/
theorem UniqueActive.find? (h : t.UniqueActive) (he : e ∈ t) (hx : e.isFor x = true) : List.find? (·.isFor x) t = some e := by
  obtain ⟨hactive, rfl⟩ := isFor_iff.mp hx
  exact UniqueLive.find?_key h he hactive

theorem UniqueActive.left (h : UniqueActive (others ++ [last])) : UniqueActive others :=
  UniqueLive.left h

theorem UniqueActive.insertAll (h : t.UniqueActive) (routes : List (ShortAddress × List ShortAddress)) :
    (t.insertAll routes).UniqueActive := by
  induction routes generalizing t with
  | nil => exact h
  | cons route routes ih => exact ih (h.insert route.1 route.2)

/-! ## The route to the source, while the relays are stored -/

theorem mem_insert (h : e ∈ t.insert x relays) : e ∈ t ∨ e.isFor x = true := by
  rcases List.eq_nil_or_concat t with rfl | ⟨others, last, rfl⟩
  · exact Or.inl h
  · rw [List.concat_eq_append] at h ⊢
    rcases insert_concat others last x relays with ⟨-, heq⟩ | ⟨-, i, -, -, -, heq⟩
    · rw [heq, List.mem_append, List.mem_singleton] at h
      rcases h with h | rfl
      · exact Or.inl (List.mem_append_left _ h)
      · exact Or.inr (storedRoute_isFor x relays)
    · rw [heq, List.mem_append] at h
      rcases h with h | h
      · rcases List.mem_or_eq_of_mem_set h with h | rfl
        · exact Or.inl (List.mem_append_left _ h)
        · exact Or.inr (storedRoute_isFor x relays)
      · exact Or.inl (List.mem_append_right _ h)

theorem lookup_eq_none : t.lookup y = none ↔ ∀ e ∈ t, e.isFor y = false := by
  rw [lookup, Option.map_eq_none_iff, List.find?_eq_none]
  simp

/-- A route that is lost is not stored again with the relays. -/
theorem lookup_insertAll_none (h : t.lookup y = none) (hy : y ∉ routes.map Prod.fst) : (t.insertAll routes).lookup y = none := by
  induction routes generalizing t with
  | nil => exact h
  | cons route routes ih =>
    rw [List.map_cons, List.mem_cons, not_or] at hy
    refine ih (lookup_eq_none.mpr fun e he => ?_) hy.2
    rcases mem_insert he with he | he
    · exact lookup_eq_none.mp h e he
    · exact isFor_ne (Ne.symm hy.1) he

/-- A route in a slot other than the last is evicted by no insertion of the same second. -/
theorem lookup_insertAll_of_others (hunique : UniqueActive (others ++ [last])) (he : e ∈ others) (hx : e.isFor x = true)
    (hspare : e.spare = false) (hroutes : x ∉ routes.map Prod.fst) :
    (insertAll (others ++ [last]) routes).lookup x = some e.relayList := by
  induction routes generalizing others last with
  | nil =>
    rw [lookup, insertAll, List.foldl_nil, hunique.find? (List.mem_append_left _ he) hx, Option.map_some]
  | cons route routes ih =>
    rw [List.map_cons, List.mem_cons, not_or] at hroutes
    have hstep := hunique.insert route.1 route.2
    rw [insertAll, List.foldl_cons, ← insertAll]
    rcases insert_concat others last route.1 route.2 with ⟨-, heq⟩ | ⟨-, i, old, hi, hold, heq⟩
    · rw [heq] at hstep ⊢
      exact ih hstep he hroutes.2
    · rw [heq] at hstep ⊢
      refine ih hstep ?_ hroutes.2
      -- The slot that is written holds another destination, or a spare entry.
      rcases mem_set_of_mem (storedRoute route.1 route.2) he with hat | hmem
      · cases hi.symm.trans hat
        rcases hold with hfor | ⟨hold, -⟩
        · rw [isFor_ne (Ne.symm hroutes.1) hfor] at hx
          cases hx
        · rw [hspare] at hold
          cases hold
      · exact hmem

/-- Behind a fresh entry the last slot is the oldest when no other one is spare. -/
theorem lastIsOldest_iff (hspare : last.spare = false) : lastIsOldest others last = true ↔ others.countP (·.spare) = 0 := by
  simp only [spare, Bool.or_eq_false_iff, Bool.not_eq_false', bne_eq_false_iff_eq] at hspare
  have hzero : ∀ age : UInt16, age ≤ 0 ↔ age = 0 := by
    intro age
    rw [UInt16.le_iff_toNat_le, ← UInt16.toNat_inj]
    exact Nat.le_zero
  rw [lastIsOldest, List.all_eq_true, List.countP_eq_zero]
  refine forall₂_congr fun e _ => ?_
  simp [spare, hspare.1, hspare.2, hzero]

/-- A write over an entry that is not fresh for `y`, by a route to another destination. -/
theorem any_freshFor_set {i : Nat} (hi : others[i]? = some e) (he : e.freshFor y = false) (hxy : x ≠ y) (relays : List ShortAddress) :
    (others.set i (storedRoute x relays)).any (·.freshFor y) = others.any (·.freshFor y) := by
  have hnew : (storedRoute x relays).freshFor y = false := by
    rw [freshFor, storedRoute_not_isFor hxy, Bool.false_and]
  rw [Bool.eq_iff_iff, List.any_eq_true, List.any_eq_true]
  constructor
  · rintro ⟨z, hz, hzy⟩
    rcases List.mem_or_eq_of_mem_set hz with hz | rfl
    · exact ⟨z, hz, hzy⟩
    · rw [hnew] at hzy
      cases hzy
  · rintro ⟨z, hz, hzy⟩
    rcases mem_set_of_mem (storedRoute x relays) hz with hat | hz
    · cases hi.symm.trans hat
      rw [he] at hzy
      cases hzy
    · exact ⟨z, hz, hzy⟩

/-- An insertion that leaves the last slot alone takes a spare slot, unless its destination has a fresh
    route; the routes to the other destinations are as fresh as before. -/
theorem counts_of_set (hunique : UniqueActive others) {i : Nat} {old : SourceRouteEntry} (hi : others[i]? = some old)
    (hold : old.isFor x = true ∨ (old.spare = true ∧ others.any (·.isFor x) = false)) {dests : List ShortAddress}
    (hnew : x ∉ dests) (relays : List ShortAddress) :
    (x :: dests).countP (fun y => !others.any (·.freshFor y)) + (others.set i (storedRoute x relays)).countP (·.spare) =
      dests.countP (fun y => !(others.set i (storedRoute x relays)).any (·.freshFor y)) + others.countP (·.spare) := by
  have hlt := (List.getElem?_eq_some_iff.mp hi).1
  have hget := (List.getElem?_eq_some_iff.mp hi).2
  have hcount : dests.countP (fun y => !(others.set i (storedRoute x relays)).any (·.freshFor y)) =
      dests.countP (fun y => !others.any (·.freshFor y)) := by
    refine List.countP_congr fun y hy => ?_
    have hxy : x ≠ y := by
      rintro rfl
      exact hnew hy
    have hstale : old.freshFor y = false := by
      rcases hold with hfor | ⟨hspare, -⟩
      · rw [freshFor, isFor_ne hxy hfor, Bool.false_and]
      · cases hfresh : old.freshFor y with
        | false => rfl
        | true =>
          have := not_spare_of_freshFor hfresh
          rw [hspare] at this
          cases this
    rw [any_freshFor_set hi hstale hxy]
  have hspares : (others.set i (storedRoute x relays)).countP (·.spare) =
      others.countP (·.spare) - (if old.spare then 1 else 0) := by
    rw [List.countP_set hlt, hget, storedRoute_spare]
    simp
  rw [hcount, hspares]
  cases hfresh : others.any (·.freshFor x) with
  | true =>
    obtain ⟨e, he, hex⟩ := List.any_eq_true.mp hfresh
    have hfor : e.isFor x = true := (Bool.and_eq_true_iff.mp hex).1
    have hkept : old.spare = false := by
      rcases hold with hold | ⟨-, hnone⟩
      · have hsame := (hunique.find? (List.mem_of_getElem? hi) hold).symm.trans (hunique.find? he hfor)
        rw [Option.some.inj hsame]
        exact not_spare_of_freshFor hex
      · exact absurd hfor (List.any_eq_false.mp hnone e he)
    rw [List.countP_cons_of_neg (by simp [hfresh]), hkept]
    simp
  | false =>
    have hused : old.spare = true := by
      rcases hold with hold | ⟨hold, -⟩
      · refine spare_of_isFor hold ?_
        simpa using List.any_eq_false.mp hfresh old (List.mem_of_getElem? hi)
      · exact hold
    have hpos : 0 < others.countP (·.spare) := List.countP_pos_iff.mpr ⟨old, List.mem_of_getElem? hi, hused⟩
    rw [List.countP_cons_of_pos (by simp [hfresh]), hused, if_pos rfl]
    omega

/-- What goes into the last slot is fresh nowhere else. -/
theorem stale_of_lastTaken (h : lastTaken (others ++ [last]) x = true) : others.any (·.freshFor x) = false := by
  rw [lastTaken_concat, Bool.and_eq_true, Bool.not_eq_true'] at h
  refine List.any_eq_false.mpr fun e he => ?_
  have := List.any_eq_false.mp h.1 e he
  simp [freshFor, this]

/-- **A route in the last slot outlives the relays exactly when the spare slots are enough for the relays
    without a fresh route.**  Each of these takes one spare slot, and the next one takes the last slot. -/
theorem lookup_insertAll_of_last (hunique : UniqueActive (others ++ [last])) (hlast : last.isFor x = true)
    (hspare : last.spare = false) (hnodup : (x :: routes.map Prod.fst).Nodup) :
    (insertAll (others ++ [last]) routes).lookup x =
      if (routes.map Prod.fst).countP (fun r => !others.any (·.freshFor r)) ≤ others.countP (·.spare) then
        some last.relayList
      else none := by
  induction routes generalizing others with
  | nil =>
    rw [lookup, insertAll, List.foldl_nil, hunique.find? (List.mem_append_right _ List.mem_cons_self) hlast, if_pos]
    · rfl
    · exact Nat.zero_le _
  | cons route routes ih =>
    rw [List.map_cons] at hnodup
    obtain ⟨hx, htail⟩ := List.nodup_cons.mp hnodup
    obtain ⟨hnew, hrest⟩ := List.nodup_cons.mp htail
    rw [List.mem_cons, not_or] at hx
    obtain ⟨r, path⟩ := route
    have hxr : x ≠ r := hx.1
    have hstep := hunique.insert r path
    rw [insertAll, List.foldl_cons, ← insertAll, List.map_cons]
    dsimp only at hnew ⊢
    rcases insert_concat others last r path with ⟨htaken, heq⟩ | ⟨-, i, old, hi, hold, heq⟩
    · -- No slot is spare: the relay takes the place of the source.
      have hstale := stale_of_lastTaken htaken
      rw [lastTaken_concat, isFor_ne hxr hlast, Bool.false_or, Bool.and_eq_true, Bool.not_eq_true',
        lastIsOldest_iff hspare] at htaken
      obtain ⟨-, hzero⟩ := htaken
      rw [List.countP_cons_of_pos (by simp [hstale]), hzero, if_neg (by omega), heq]
      refine lookup_insertAll_none (lookup_eq_none.mpr fun e he => ?_) hx.2
      rcases List.mem_append.mp he with he | he
      · cases hfor : e.isFor x with
        | false => rfl
        | true =>
          have hsame := (hunique.find? (List.mem_append_left _ he) hfor).symm.trans
            (hunique.find? (List.mem_append_right _ List.mem_cons_self) hlast)
          obtain ⟨j, hj⟩ := List.mem_iff_getElem?.mp he
          have hjlt := (List.getElem?_eq_some_iff.mp hj).1
          have hjl : (others ++ [last])[j]? = some last := by
            rw [List.getElem?_append_left hjlt, hj, Option.some.inj hsame]
          have := hunique.slot_eq hjl (List.getElem?_concat_length ..) (isFor_iff.mp hlast).1
          omega
      · rw [List.mem_singleton.mp he, storedRoute_not_isFor (Ne.symm hxr)]
    · rw [heq] at hstep ⊢
      have hcounts := counts_of_set hunique.left hi hold hnew path
      rw [ih hstep (List.nodup_cons.mpr ⟨hx.2, hrest⟩)]
      exact if_congr (by omega) rfl rfl

/-- **Which routes outlive each other.**  All the routes that are stored one after another are still there
    exactly when the slots but the last that are spare, and the last one, are enough for the destinations
    without a fresh route in these slots. -/
theorem lookup_insertAll_iff (hunique : UniqueActive (others ++ [last])) (hnodup : (routes.map Prod.fst).Nodup)
    (hlen : ∀ route ∈ routes, route.2.length ≤ MAX_SOURCE_ROUTE_RELAYS) :
    (∀ route ∈ routes, (insertAll (others ++ [last]) routes).lookup route.1 = some route.2) ↔
      (routes.map Prod.fst).countP (fun r => !others.any (·.freshFor r)) ≤ others.countP (·.spare) + 1 := by
  induction routes generalizing others last with
  | nil => simp
  | cons route routes ih =>
    obtain ⟨r, path⟩ := route
    rw [List.map_cons] at hnodup ⊢
    obtain ⟨hnew, hrest⟩ := List.nodup_cons.mp hnodup
    have hstored : (storedRoute r path).relayList = path := List.take_of_length_le (hlen _ List.mem_cons_self)
    have hstep := hunique.insert r path
    rw [List.forall_mem_cons, insertAll, List.foldl_cons, ← insertAll]
    dsimp only
    rcases insert_concat others last r path with ⟨htaken, heq⟩ | ⟨-, i, old, hi, hold, heq⟩
    · -- In the last slot the route is safe exactly if the spare slots are enough for the rest.
      rw [heq] at hstep ⊢
      rw [lookup_insertAll_of_last hstep (storedRoute_isFor r path) rfl (List.nodup_cons.mpr ⟨hnew, hrest⟩), hstored,
        ih hstep hrest fun route h => hlen route (List.mem_cons_of_mem _ h),
        List.countP_cons_of_pos (by simp [stale_of_lastTaken htaken])]
      constructor
      · rintro ⟨hfound, -⟩
        split at hfound
        · omega
        · cases hfound
      · intro hle
        rw [if_pos (by omega)]
        exact ⟨rfl, by omega⟩
    · rw [heq] at hstep ⊢
      have hmem : storedRoute r path ∈ others.set i (storedRoute r path) :=
        List.mem_set (List.getElem?_eq_some_iff.mp hi).1 _
      have hcounts := counts_of_set hunique.left hi hold hnew path
      rw [lookup_insertAll_of_others hstep hmem (storedRoute_isFor r path) rfl hnew, hstored,
        ih hstep hrest fun route h => hlen route (List.mem_cons_of_mem _ h)]
      simp only [true_and]
      omega

theorem length_insert (t : SourceRouteTable) (x : ShortAddress) (relays : List ShortAddress) :
    List.length (t.insert x relays) = List.length t := by
  unfold SourceRouteTable.insert
  split
  · exact length_modifyFirst _ _ t
  · split
    · rfl
    · exact List.length_set

theorem lookup_insertAll_hasRoom (hunique : t.UniqueActive) (hslots : t ≠ []) (hnodup : (routes.map Prod.fst).Nodup)
    (hlen : ∀ route ∈ routes, route.2.length ≤ MAX_SOURCE_ROUTE_RELAYS) :
    (∀ route ∈ routes, (t.insertAll routes).lookup route.1 = some route.2) ↔ t.HasRoom (routes.map Prod.fst) := by
  obtain rfl | ⟨others, last, rfl⟩ := List.eq_nil_or_concat' t
  · exact absurd rfl hslots
  · rw [HasRoom, List.dropLast_concat]
    exact lookup_insertAll_iff hunique hnodup hlen

/-- **The route to the source outlives the storing of the record exactly under `Keeps`.** -/
theorem lookup_insertAll_record (hunique : t.UniqueActive) (hslots : t ≠ []) {src : ShortAddress}
    (hlen : relays.length ≤ MAX_SOURCE_ROUTE_RELAYS) (hnodup : (src :: relays).Nodup) :
    (t.insertAll ((src, relays) :: relaySuffixes relays)).lookup src =
      if t.Keeps src relays then some relays else none := by
  have hdests := map_fst_relaySuffixes relays
  have hstored : (storedRoute src relays).relayList = relays := List.take_of_length_le hlen
  have hstep := hunique.insert src relays
  obtain rfl | ⟨others, last, rfl⟩ := List.eq_nil_or_concat' t
  · exact absurd rfl hslots
  rw [insertAll, List.foldl_cons, ← insertAll]
  dsimp only
  rcases insert_concat others last src relays with ⟨htaken, heq⟩ | ⟨htaken, i, old, hi, -, heq⟩
  · rw [heq] at hstep ⊢
    rw [lookup_insertAll_of_last hstep (storedRoute_isFor src relays) rfl (hdests.symm ▸ hnodup), hdests, hstored]
    refine if_congr ?_ rfl rfl
    rw [Keeps, List.dropLast_concat]
    exact ⟨fun h _ => h, fun h => h htaken⟩
  · rw [heq] at hstep ⊢
    have hmem : storedRoute src relays ∈ others.set i (storedRoute src relays) :=
      List.mem_set (List.getElem?_eq_some_iff.mp hi).1 _
    rw [lookup_insertAll_of_others hstep hmem (storedRoute_isFor src relays) rfl, hstored, if_pos]
    · rw [Keeps, htaken]
      exact fun h => absurd h Bool.false_ne_true
    · rw [hdests]
      exact (List.nodup_cons.mp hnodup).1

end SourceRouteTable

/-! ## The life of a table -/

/-- `SourceRouteTable::age_by`. -/
def SourceRouteTable.ageBy (t : SourceRouteTable) (elapsedSecs : UInt16) : SourceRouteTable :=
  t.map fun e => if e.active then { e with age := saturatingAdd16 e.age elapsedSecs } else e

/-- `SourceRouteTable::age_and_expire`. -/
def SourceRouteTable.ageAndExpire (t : SourceRouteTable) (elapsedSecs maxAge : UInt16) : SourceRouteTable :=
  t.map fun e =>
    if e.active then
      let age := saturatingAdd16 e.age elapsedSecs
      { e with age, active := decide (age ≤ maxAge) }
    else e

/-- The operations on the source route table. -/
inductive SourceRouteOp
  | insert (destination : ShortAddress) (relayList : List ShortAddress)
  | remove (destination : ShortAddress)
  | noteUsed (destination : ShortAddress)
  | ageBy (elapsedSecs : UInt16)
  | ageAndExpire (elapsedSecs maxAge : UInt16)

def SourceRouteOp.step (t : SourceRouteTable) : SourceRouteOp → SourceRouteTable
  | .insert destination relayList => t.insert destination relayList
  | .remove destination => t.remove destination
  | .noteUsed destination => t.noteUsed destination
  | .ageBy elapsedSecs => t.ageBy elapsedSecs
  | .ageAndExpire elapsedSecs maxAge => t.ageAndExpire elapsedSecs maxAge

namespace SourceRouteTable

variable {t : SourceRouteTable}

theorem new_wellFormed : (new true).WellFormed where
  slots := List.length_replicate
  unique := by
    intro i j x y hi hj hx
    rw [List.eq_of_mem_replicate (List.mem_of_getElem? hi)] at hx
    cases hx

/-- A table whose entries keep their destinations, and are not made active. -/
theorem WellFormed.map (h : t.WellFormed) {f : SourceRouteEntry → SourceRouteEntry}
    (hkey : ∀ e, (f e).destination = e.destination) (hactive : ∀ e, (f e).active = true → e.active = true) :
    WellFormed (List.map f t) where
  slots := (List.length_map _).trans h.slots
  unique := UniqueLive.map h.unique hkey hactive

theorem WellFormed.modifyFirst (h : t.WellFormed) {p : SourceRouteEntry → Bool} {f : SourceRouteEntry → SourceRouteEntry}
    (hkey : ∀ e, (f e).destination = e.destination) (hactive : ∀ e, (f e).active = true → e.active = true) :
    WellFormed (Table.modifyFirst p f t) where
  slots := (length_modifyFirst _ _ t).trans h.slots
  unique := UniqueLive.modifyFirst h.unique hkey fun e _ => hactive e

theorem WellFormed.step (h : t.WellFormed) (op : SourceRouteOp) : (op.step t).WellFormed := by
  cases op with
  | insert destination relayList => exact ⟨(length_insert t destination relayList).trans h.slots, h.unique.insert destination relayList⟩
  | remove destination => exact h.modifyFirst (fun _ => rfl) fun _ hr => by cases hr
  | noteUsed destination => exact h.modifyFirst (fun _ => rfl) fun _ hr => hr
  | ageBy elapsedSecs =>
    refine h.map (fun e => ?_) fun e he => ?_
    · split <;> rfl
    · split at he <;> exact he
  | ageAndExpire elapsedSecs maxAge =>
    refine h.map (fun e => ?_) fun e he => ?_
    · split <;> rfl
    · split at he
      · assumption
      · exact he

/-- **The table is well formed in every state of a run.** -/
theorem run_wellFormed (ops : List SourceRouteOp) : (run SourceRouteOp.step (new true) ops).WellFormed :=
  run_invariant (fun _ op h => h.step op) new_wellFormed ops

theorem WellFormed.insertAll (h : t.WellFormed) (routes : List (ShortAddress × List ShortAddress)) :
    (t.insertAll routes).WellFormed := by
  induction routes generalizing t with
  | nil => exact h
  | cons route routes ih => exact ih (h.step (.insert route.1 route.2))

theorem WellFormed.ne_nil (h : t.WellFormed) : t ≠ [] := by
  rintro rfl
  cases h.slots

end SourceRouteTable

/-! ## The record -/

variable {s : NwkLayer}

/-- What a record of a routing device stores, whatever follows its relays. -/
theorem handleRouteRecord_stores {payload : List UInt8} (src : ShortAddress) (hroute : s.canRoute = true)
    (hwhole : 1 + (u8At payload 0).toNat * 2 ≤ payload.length) (hcount : (u8At payload 0).toNat ≤ MAX_SOURCE_ROUTE_RELAYS) :
    (s.handleRouteRecord src payload).sourceRouteTable =
      s.sourceRouteTable.insertAll ((src, routeRecordRelays payload) :: relaySuffixes (routeRecordRelays payload)) := by
  have hne : payload.isEmpty = false := by
    cases payload with
    | nil => simp at hwhole
    | cons => rfl
  unfold NwkLayer.handleRouteRecord
  rw [if_neg (by simp [hroute]), if_neg (by simp [hne]), if_neg (by omega), if_neg (by omega)]
  exact (foldl_storeRoute (s.storeRoute src (routeRecordRelays payload)) _).1

theorem handleRouteRecord_wellFormed (h : s.sourceRouteTable.WellFormed) (src : ShortAddress) (payload : List UInt8) :
    (s.handleRouteRecord src payload).sourceRouteTable.WellFormed := by
  unfold NwkLayer.handleRouteRecord
  split
  · exact h
  · split
    · exact h
    · split
      · exact h
      · split
        · exact h
        · rw [(foldl_storeRoute ..).1]
          exact (h.step (.insert ..)).insertAll _

/-- **A processed Route Record leaves its source reachable exactly when the table could keep its route.**
    After a whole record over at most `MAX_SOURCE_ROUTE_RELAYS` distinct relays, the table of a routing
    device has the recorded relays for the source if and only if the source was not put into the last
    slot, or enough other slots were free or idle for the relays without a fresh route; and no
    destination has two active entries in either case. -/
theorem route_record_usable {s : NwkLayer} {src : ShortAddress} {payload : List UInt8} (hroute : s.canRoute = true)
    (htable : s.sourceRouteTable.WellFormed) (hwhole : 1 + (u8At payload 0).toNat * 2 ≤ payload.length)
    (hcount : (u8At payload 0).toNat ≤ MAX_SOURCE_ROUTE_RELAYS) (hnodup : (src :: routeRecordRelays payload).Nodup) :
    let s' := s.handleRouteRecord src payload
    ((s'.sourceRouteTable.lookup src = some (routeRecordRelays payload) ∧ s'.sourceRouteTable.UniqueActive) ↔
        s.sourceRouteTable.Keeps src (routeRecordRelays payload)) ∧
      s'.sourceRouteTable.UniqueActive := by
  intro s'
  have hlen : (routeRecordRelays payload).length ≤ MAX_SOURCE_ROUTE_RELAYS := by
    rw [routeRecordRelays, List.length_map, List.length_range]
    exact hcount
  have htable' : s'.sourceRouteTable = _ := handleRouteRecord_stores src hroute hwhole hcount
  have hunique : s'.sourceRouteTable.UniqueActive := htable' ▸ htable.unique.insertAll _
  have hlookup := SourceRouteTable.lookup_insertAll_record htable.unique htable.ne_nil hlen hnodup
  rw [← htable'] at hlookup
  refine ⟨⟨fun h => ?_, fun h => ⟨?_, hunique⟩⟩, hunique⟩
  · by_contra hno
    rw [hlookup, if_neg hno] at h
    cases h.1
  · rw [hlookup, if_pos h]

/-- A coordinator that has just had records from this many neighbours. -/
def concentratorAfter (n : Nat) : NwkLayer :=
  run (fun s i => s.handleRouteRecord (UInt16.ofNat (0x1000 + i)) (recordBody [])) (plainRouter 0) (List.range n)

theorem concentratorAfter_wellFormed (n : Nat) : (concentratorAfter n).sourceRouteTable.WellFormed :=
  run_invariant (I := fun s : NwkLayer => s.sourceRouteTable.WellFormed) (fun _ _ h => handleRouteRecord_wellFormed h _ _)
    SourceRouteTable.new_wellFormed _

/-- What time does to the source routes of a router. -/
def NwkLayer.ageSourceRoutes (s : NwkLayer) (elapsedSecs : UInt16) : NwkLayer :=
  { s with sourceRouteTable := s.sourceRouteTable.ageAndExpire elapsedSecs ROUTE_EXPIRY_SECS }

theorem ageSourceRoutes_wellFormed (h : s.sourceRouteTable.WellFormed) (elapsedSecs : UInt16) :
    (s.ageSourceRoutes elapsedSecs).sourceRouteTable.WellFormed :=
  h.step (.ageAndExpire elapsedSecs ROUTE_EXPIRY_SECS)

/-- A second after records from 32 neighbours. -/
def agedConcentrator : NwkLayer := (concentratorAfter 32).ageSourceRoutes 1

theorem agedConcentrator_wellFormed : agedConcentrator.sourceRouteTable.WellFormed :=
  ageSourceRoutes_wellFormed (concentratorAfter_wellFormed 32) 1

def crowdedConcentrator : NwkLayer := concentratorAfter 32

/-- The next record, over one relay, stores the route to its source in the last slot and then the route
    to its relay in the same slot. -/
theorem relay_evicts_source :
    crowdedConcentrator.canRoute = true ∧ crowdedConcentrator.sourceRouteTable.WellFormed ∧
      (5 :: routeRecordRelays (recordBody [7]) : List ShortAddress).Nodup ∧
      (crowdedConcentrator.handleRouteRecord 5 (recordBody [7])).sourceRouteTable.lookup 5 = none ∧
      (crowdedConcentrator.handleRouteRecord 5 (recordBody [7])).sourceRouteTable.lookup 7 = some [] :=
  ⟨by decide +kernel, concentratorAfter_wellFormed 32, by decide, by decide +kernel, by decide +kernel⟩

/-- A record over two relays into a full table that has been idle for a second is usable. -/
theorem two_relays_usable :
    (agedConcentrator.sourceRouteTable.all (·.active)) = true ∧
      (agedConcentrator.handleRouteRecord 5 (recordBody [7, 8])).sourceRouteTable.lookup 5 = some [7, 8] := by
  have hnodup : (5 :: routeRecordRelays (recordBody [7, 8]) : List ShortAddress).Nodup := by decide
  have h := route_record_usable (s := agedConcentrator) (by decide +kernel) agedConcentrator_wellFormed (by decide)
    (by decide) hnodup
  exact ⟨by decide +kernel, (h.1.mpr (by decide +kernel)).1⟩

/-! ## Round trips -/

/-- What the concentrator does with a stored route: its data requests carry the relays, go to the last
    relay recorded first, and from there down the list to the destination.  A route without relays is left
    to the routing table. -/
structure RoundTrips (s : NwkLayer) (dst : ShortAddress) (path : List ShortAddress) : Prop where
  lookup : s.sourceRouteTable.lookup dst = some path
  direct : path = [] → ∀ radius payload securityEnable discover r,
    Sends (fun f _ => f.IsCommand ∨ f.IsDataFor dst none) s
      (s.nldeDataRequest dst radius payload securityEnable discover r).1
  relayed : path ≠ [] → ∃ sr firstRelay, sr.relayList = path ∧ s.HandsOver dst sr firstRelay ∧
    sourceRouteWalk dst (path.length + 1) sr firstRelay = some (path.reverse ++ [dst])

/-- A stored route without loops round trips. -/
theorem roundTrips_of_lookup {dst : ShortAddress} {path : List ShortAddress} (hconcentrator : s.concentratorActive = true)
    (hlookup : s.sourceRouteTable.lookup dst = some path) (hlen : path.length ≤ MAX_SOURCE_ROUTE_RELAYS) (hdst : dst ∉ path) :
    RoundTrips s dst path := by
  have hmax : MAX_SOURCE_ROUTE_RELAYS = 8 := rfl
  have hsubframe : s.sourceRouteSubframe dst =
      if path.isEmpty then none else some ⟨UInt8.ofNat path.length, UInt8.ofNat (path.length - 1), path⟩ := by
    rw [NwkLayer.sourceRouteSubframe, if_pos hconcentrator, hlookup]
  refine ⟨hlookup, ?_, fun hne => ?_⟩
  · rintro rfl radius payload securityEnable discover r
    have hsends := nldeDataRequest_sends s dst radius payload securityEnable discover r
    rw [hsubframe] at hsends
    exact hsends
  · have hlast : path.length - 1 < path.length := Nat.sub_lt (List.length_pos_iff.mpr hne) Nat.one_pos
    have hindex : (UInt8.ofNat (path.length - 1)).toNat = path.length - 1 := by
      rw [UInt8.toNat_ofNat']
      omega
    rw [if_neg (by simp [hne])] at hsubframe
    refine ⟨_, path[path.length - 1], rfl, handsOver_of_subframe hsubframe ?_, ?_⟩
    · dsimp only
      rw [hindex, List.getElem?_eq_getElem hlast]
    · have hwalk := sourceRouteWalk_spec hdst (by omega) (UInt8.ofNat path.length) (path.length - 1) hlast
      rw [show path.length - 1 + 2 = path.length + 1 by omega, show path.length - 1 + 1 = path.length by omega,
        List.take_length] at hwalk
      exact hwalk

/-- **Route Record and source route round trip.**  A record that travels from a device over distinct relays
    gives the concentrator a way back to the device and to every relay — each data frame for one of them is
    handed to the relay recorded last and visits the recorded relays in reverse order — exactly when its
    table had room for these routes. -/
theorem route_record_round_trip {f f' : NwkFrame} {relays : List ShortAddress} {s : NwkLayer}
    (hsource : f.payload = NwkCommandId.routeRecord :: recordBody [])
    (htravels : RecordTravels f relays f') (hnodup : (f.header.srcAddr :: relays).Nodup)
    (hroute : s.canRoute = true) (hconcentrator : s.concentratorActive = true) (htable : s.sourceRouteTable.WellFormed) :
    let s' := s.handleRouteRecord f'.header.srcAddr (f'.payload.drop 1)
    (∀ route ∈ (f.header.srcAddr, relays) :: relaySuffixes relays, RoundTrips s' route.1 route.2) ↔
      s.sourceRouteTable.HasRoom (f.header.srcAddr :: relays) := by
  intro s'
  obtain ⟨hlen, hpayload, hsrc⟩ := htravels.spec (Nat.zero_le _) hsource
  rw [List.nil_append] at hlen hpayload
  have hs' : s' = s.handleRouteRecord f.header.srcAddr (recordBody relays) := by
    change s.handleRouteRecord f'.header.srcAddr (f'.payload.drop 1) = _
    rw [hsrc, hpayload]
    rfl
  obtain ⟨hstored, hactive⟩ := handleRouteRecord_spec hroute hlen
  rw [← hs'] at hstored hactive
  have hfst : ((f.header.srcAddr, relays) :: relaySuffixes relays).map Prod.fst = f.header.srcAddr :: relays := by
    rw [List.map_cons, map_fst_relaySuffixes]
  -- Each path of the record is part of the list of relays, without its own destination.
  have hpath : ∀ route ∈ (f.header.srcAddr, relays) :: relaySuffixes relays, route.2 <:+ relays ∧ route.1 ∉ route.2 := by
    intro route hmem
    obtain ⟨hnew, hrelays⟩ := List.nodup_cons.mp hnodup
    rcases List.mem_cons.mp hmem with rfl | hmem
    · exact ⟨List.suffix_refl relays, hnew⟩
    · exact mem_relaySuffixes hrelays hmem
  have hroom := SourceRouteTable.lookup_insertAll_hasRoom htable.unique htable.ne_nil (hfst.symm ▸ hnodup)
    fun route hmem => (hpath route hmem).1.length_le.trans hlen
  rw [← hstored, hfst] at hroom
  rw [← hroom]
  refine forall₂_congr fun route hmem => ⟨fun h => h.lookup, fun h => ?_⟩
  exact roundTrips_of_lookup (hactive.trans hconcentrator) h ((hpath route hmem).1.length_le.trans hlen) (hpath route hmem).2

/-- One slot is free after 31 neighbours: the route to the next source takes it, and the route to the relay
    of its record takes it again. -/
theorem relay_evicts_last_free :
    let s := concentratorAfter 31
    s.canRoute = true ∧ s.concentratorActive = true ∧ s.sourceRouteTable.WellFormed ∧
      s.sourceRouteTable.any (!·.active) = true ∧ RecordTravels (plainRecord 10 []) [7] (plainRecord 9 [7]) ∧
      (s.handleRouteRecord 5 (recordBody [7])).sourceRouteTable.lookup 5 = none ∧
      ¬ RoundTrips (s.handleRouteRecord 5 (recordBody [7])) 5 [7] := by
  have hlost : ((concentratorAfter 31).handleRouteRecord 5 (recordBody [7])).sourceRouteTable.lookup 5 = none := by
    decide +kernel
  refine ⟨by decide +kernel, by decide +kernel, concentratorAfter_wellFormed 31, by decide +kernel, ?_, hlost, fun h => ?_⟩
  · exact .relayed (show ((plainRouter 7).relayRouteRecord (plainRecord 10 []).header (plainRecord 10 []).payload
      (plainRelay 0)).1.air = _ ++ [plainRecord 9 [7]] by decide +kernel) (.arrived _)
  · have hfound := h.lookup
    rw [hlost] at hfound
    cases hfound

def plainData : DataReading :=
  ⟨.error .routeError, false, ⟨true, .unroutable, 0⟩, ⟨true, .unroutable, 0⟩, true, false, false, .confirmed, none, 0, fun _ => false⟩

/-- With a full table that has been idle for a second the way back to device 5 leads over 8 and 7, and the
    way back to relay 7 over 8; a request for 5 goes to 8. -/
theorem two_relays_back :
    let s' := agedConcentrator.handleRouteRecord 5 (recordBody [7, 8])
    RoundTrips s' 5 [7, 8] ∧ RoundTrips s' 7 [8] ∧ RoundTrips s' 8 [] ∧
      (s'.nldeDataRequest 5 30 [1, 2, 3] false false plainData).2 = .ok 0 ∧
      (s'.nldeDataRequest 5 30 [1, 2, 3] false false plainData).1.hops = [8] := by
  have h := (route_record_round_trip (s := agedConcentrator) rfl record_over_two_relays (by decide +kernel)
    (by decide +kernel) (by decide +kernel) agedConcentrator_wellFormed).mpr (by decide +kernel)
  exact ⟨h (5, [7, 8]) (by simp [plainRecord]), h (7, [8]) (by simp [relaySuffixes]), h (8, []) (by simp [relaySuffixes]),
    by decide +kernel, by decide +kernel⟩

end Zigbee.Nwk
