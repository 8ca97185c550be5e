import Zigbee.Nwk.Layer

/-!
# The children of a parent

Model of the operations of `NwkLayer` (`zigbee-nwk/src/lib.rs`) on its end-device children for a parent
announcement: which of them are announced, which give way to another parent, and the eviction of one.

* `takeParentAnnceChunk` — the children that are named next.
* `applyParentAnnce_spec`, `removeChildrenByIeee_spec` — what a message takes from the table.
-/

namespace Zigbee.Nwk

open NeighborTable

/-- The entries that an announcement is about. -/
def NeighborEntry.isEndDeviceChild (e : NeighborEntry) : Bool :=
  e.active && e.relationship == .child && e.deviceType == .endDevice

structure ParentAnnceOutcome where
  kept : List IeeeAddress
  dropped : List ShortAddress

/-- `heapless::Vec::push` whose error is ignored. -/
def push {α : Type} (l : List α) (a : α) : List α := if l.length < MAX_NEIGHBORS true then l ++ [a] else l

namespace NwkLayer

def evictChild (s : NwkLayer) (short : ShortAddress) (ieee : IeeeAddress) : NwkLayer :=
  { s with
    indirect := s.indirect.removeAll short
    routing := s.routing.remove short
    security := s.security.clearFrameCountersForSource ieee
    neighbors := s.neighbors.remove short }

def authenticatedChildIeees (s : NwkLayer) : List IeeeAddress :=
  if !s.canRoute then [] else (s.neighbors.entries.filter (·.isEndDeviceChild)).map (·.ieeeAddress)

def markParentAnncePending (s : NwkLayer) : NwkLayer × Nat :=
  if !s.canRoute then (s, 0)
  else
    ({ s with neighbors := s.neighbors.mapActive fun e => { e with parentAnncePending := e.isEndDeviceChild } },
      s.neighbors.entries.countP (·.isEndDeviceChild))

def hasParentAnncePending (s : NwkLayer) : Bool := s.neighbors.entries.any fun e => e.active && e.parentAnncePending

/-- The next `n` children that are still to be announced, and the entries without their flags. -/
def takeChunk : Nat → List NeighborEntry → List IeeeAddress × List NeighborEntry
  | _, [] => ([], [])
  | 0, e :: rest =>
    if e.active && e.parentAnncePending then ([], e :: rest)
    else
      let (chunk, rest) := takeChunk 0 rest
      (chunk, e :: rest)
  | n + 1, e :: rest =>
    if e.active && e.parentAnncePending then
      let (chunk, rest) := takeChunk n rest
      (e.ieeeAddress :: chunk, { e with parentAnncePending := false } :: rest)
    else
      let (chunk, rest) := takeChunk (n + 1) rest
      (chunk, e :: rest)

theorem length_takeChunk (n : Nat) (entries : List NeighborEntry) : (takeChunk n entries).2.length = entries.length := by
  fun_induction takeChunk n entries <;> simp_all

def takeParentAnnceChunk (s : NwkLayer) (n : Nat) : NwkLayer × List IeeeAddress :=
  if !s.canRoute then (s, [])
  else
    let taken := takeChunk n s.neighbors.entries
    ({ s with neighbors := { s.neighbors with entries := taken.2, size_eq := by rw [length_takeChunk, s.neighbors.size_eq] } },
      taken.1)

def clearParentAnncePending (s : NwkLayer) : NwkLayer :=
  { s with neighbors := s.neighbors.mapActive fun e => { e with parentAnncePending := false } }

/-- One announced child. -/
def applyOne (s : NwkLayer × ParentAnnceOutcome) (ieee : IeeeAddress) : NwkLayer × ParentAnnceOutcome :=
  match s.1.neighbors.findByIeee ieee with
  | some e =>
    if e.isEndDeviceChild then
      if e.keepaliveConfirmed then (s.1, { s.2 with kept := push s.2.kept ieee })
      else (s.1.evictChild e.networkAddress ieee, { s.2 with dropped := push s.2.dropped e.networkAddress })
    else s
  | none => s

def applyParentAnnce (s : NwkLayer) (announced : List IeeeAddress) : NwkLayer × ParentAnnceOutcome :=
  if !s.canRoute then (s, ⟨[], []⟩) else announced.foldl applyOne (s, ⟨[], []⟩)

/-- One child that the responder keeps. -/
def removeOne (s : NwkLayer) (ieee : IeeeAddress) : NwkLayer :=
  match s.neighbors.findByIeee ieee with
  | some e => if e.isEndDeviceChild then s.evictChild e.networkAddress ieee else s
  | none => s

def removeChildrenByIeee (s : NwkLayer) (ieees : List IeeeAddress) : NwkLayer :=
  if !s.canRoute then s else ieees.foldl removeOne s

/-- A Data Poll, or with `source` a secured frame, of a child. -/
def refreshChildKeepalive (s : NwkLayer) (address : ShortAddress) (source : Option IeeeAddress) : NwkLayer :=
  if !s.canRoute then s
  else
    { s with
      neighbors := s.neighbors.modifyByShort address fun e =>
        if e.isEndDeviceChild && source.all (e.ieeeAddress == ·) then
          { e with age := 0, keepaliveConfirmed := true, parentAnncePending := false }
        else e }

end NwkLayer

/-! ## What a message takes from the table -/

variable {e : NeighborEntry}

open NeighborEntry

namespace NeighborTable

/-- **Every end-device child with the address is the first active entry, among those that are searched, under
    that address, and under its short address where it is to be evicted.** -/
def Located (t : NeighborTable) (evicts : NeighborEntry → Bool) (a : IeeeAddress) : Prop :=
  ∀ (i : Nat) (e : NeighborEntry), t.entries[i]? = some e → e.isEndDeviceChild = true → e.ieeeAddress = a →
    i < t.count ∧ ∀ (j : Nat) (x : NeighborEntry), t.entries[j]? = some x → x.active = true →
      x.ieeeAddress = a ∨ evicts e = true ∧ x.networkAddress = e.networkAddress → i ≤ j

/-- The entries that meet `p` are dropped. -/
def evictWhere (t : NeighborTable) (p : NeighborEntry → Bool) : NeighborTable where
  entries := t.entries.map fun e => if p e then e.drop else e
  count := t.count
  size_eq := by rw [List.length_map, t.size_eq]

variable {t : NeighborTable} {a : IeeeAddress} {p q evicts : NeighborEntry → Bool}

theorem evictWhere_none (h : ∀ e ∈ t.entries, p e = false) : t.evictWhere p = t := by
  refine NeighborTable.ext ?_ rfl
  unfold evictWhere
  dsimp only
  rw [List.map_congr_left (g := id) fun e he => by rw [h e he]; rfl, List.map_id]

theorem evictWhere_evictWhere (hq : ∀ e : NeighborEntry, q e.drop = false) :
    (t.evictWhere p).evictWhere q = t.evictWhere fun e => p e || q e := by
  refine NeighborTable.ext ?_ rfl
  unfold evictWhere
  dsimp only
  rw [List.map_map]
  refine List.map_congr_left fun e _ => ?_
  rw [Function.comp_apply]
  by_cases hp : p e = true
  · simp [hq, hp]
  · simp [hp]

theorem mem_evictWhere (he : e ∈ t.entries) (hp : p e = false) : e ∈ (t.evictWhere p).entries :=
  List.mem_map.mpr ⟨e, he, by rw [hp]; rfl⟩

theorem of_mem_evictWhere (he : e ∈ (t.evictWhere p).entries) (hactive : e.active = true) : e ∈ t.entries ∧ p e = false := by
  obtain ⟨x, hx, heq⟩ := List.mem_map.mp he
  cases hp : p x with
  | true =>
    rw [hp, if_pos rfl] at heq
    subst heq
    cases hactive
  | false =>
    rw [hp, if_neg (by decide)] at heq
    subst heq
    exact ⟨hx, hp⟩

theorem Located.evictWhere (h : t.Located evicts a) (p : NeighborEntry → Bool) : (t.evictWhere p).Located evicts a := by
  have hslot : ∀ (i : Nat) (e : NeighborEntry), (t.evictWhere p).entries[i]? = some e → e.active = true →
      t.entries[i]? = some e := by
    intro i e hi hactive
    change (t.entries.map _)[i]? = some e at hi
    rw [List.getElem?_map] at hi
    obtain ⟨x, hx, heq⟩ := Option.map_eq_some_iff.mp hi
    split at heq
    · subst heq
      cases hactive
    · rw [hx, heq]
  intro i e hi hchild hieee
  have hactive : e.active = true := by
    simp only [isEndDeviceChild, Bool.and_eq_true] at hchild
    exact hchild.1.1
  obtain ⟨hcount, hfirst⟩ := h i e (hslot i e hi hactive) hchild hieee
  exact ⟨hcount, fun j x hj hx => hfirst j x (hslot j x hj hx) hx⟩

theorem active_of_child (h : e.isEndDeviceChild = true) : e.active = true := by
  simp only [isEndDeviceChild, Bool.and_eq_true] at h
  exact h.1.1

/-- The search finds the one end-device child with the address, and so does the search for its short address where
    it is to be evicted. -/
theorem Located.cases (h : t.Located evicts a) :
    (∃ (i : Nat) (e : NeighborEntry), t.entries[i]? = some e ∧ t.findByIeee a = some e ∧ e.isEndDeviceChild = true ∧ e.ieeeAddress = a ∧
        (evicts e = true → t.entries.findIdx? (fun x => x.active && x.networkAddress == e.networkAddress) = some i) ∧
        ∀ (j : Nat) x, t.entries[j]? = some x → x.isEndDeviceChild = true → x.ieeeAddress = a → j = i) ∨
      (∀ e, t.findByIeee a = some e → e.isEndDeviceChild = false) ∧
        ∀ x ∈ t.entries, x.isEndDeviceChild = true → x.ieeeAddress ≠ a := by
  by_cases hex : ∃ (i : Nat) (e : NeighborEntry), t.entries[i]? = some e ∧ e.isEndDeviceChild = true ∧ e.ieeeAddress = a
  · obtain ⟨i, e, hi, hchild, hieee⟩ := hex
    obtain ⟨hcount, hfirst⟩ := h i e hi hchild hieee
    obtain ⟨hlt, hget⟩ := List.getElem?_eq_some_iff.mp hi
    have hactive := active_of_child hchild
    refine Or.inl ⟨i, e, hi, ?_, hchild, hieee, fun hevicts => ?_, fun j x hj hx hxa => ?_⟩
    · refine List.find?_eq_some_iff_getElem.mpr ⟨by simp [hactive, hieee], i, by rw [searched, List.length_take]; omega, ?_, ?_⟩
      · unfold searched
        rw [List.getElem_take, hget]
      · intro j hj
        unfold searched
        rw [List.getElem_take]
        by_contra hmatch
        simp only [Bool.not_eq_true', Bool.not_eq_false, Bool.and_eq_true, beq_iff_eq] at hmatch
        have := hfirst j t.entries[j] (List.getElem?_eq_getElem (by omega)) hmatch.1 (.inl hmatch.2)
        omega
    · refine List.findIdx?_eq_some_iff_getElem.mpr ⟨hlt, by rw [hget]; simp [hactive], fun j hj hmatch => ?_⟩
      simp only [Bool.and_eq_true, beq_iff_eq] at hmatch
      have := hfirst j t.entries[j] (List.getElem?_eq_getElem (by omega)) hmatch.1 (.inr ⟨hevicts, hmatch.2⟩)
      omega
    · have hle := hfirst j x hj (active_of_child hx) (.inl hxa)
      have hge := (h j x hj hx hxa).2 i e hi hactive (.inl hieee)
      omega
  · refine Or.inr ⟨fun e he => ?_, fun x hx hchild hieee => ?_⟩
    · have hmem := List.mem_of_mem_take (List.mem_of_find?_eq_some he)
      have hp := List.find?_some he
      simp only [Bool.and_eq_true, beq_iff_eq] at hp
      obtain ⟨i, hi⟩ := List.mem_iff_getElem?.mp hmem
      by_contra hchild
      exact hex ⟨i, e, hi, by simpa using hchild, hp.2⟩
    · obtain ⟨i, hi⟩ := List.mem_iff_getElem?.mp hx
      exact hex ⟨i, x, hi, hchild, hieee⟩

/-- A removal that hits the one entry with the property. -/
theorem remove_eq_evictWhere {i : Nat} (hi : t.entries[i]? = some e)
    (hidx : t.entries.findIdx? (fun x => x.active && x.networkAddress == e.networkAddress) = some i) (hp : p e = true)
    (honly : ∀ (j : Nat) x, t.entries[j]? = some x → p x = true → j = i) : t.remove e.networkAddress = t.evictWhere p := by
  refine NeighborTable.ext ?_ rfl
  unfold remove modifyAny evictWhere Table.modifyFirst
  dsimp only
  rw [hidx]
  refine List.ext_getElem? fun j => ?_
  rw [List.getElem?_map, List.getElem?_modify]
  by_cases hij : i = j
  · subst hij
    rw [hi]
    simp [hp]
  · cases hj : t.entries[j]? with
    | none => simp
    | some x =>
      have hx : p x = false := by
        by_contra hx
        exact hij (honly j x hj (by simpa using hx)).symm
      simp [hij, hx]

end NeighborTable

variable {announced : List IeeeAddress}

namespace NwkLayer

/-- Two layers that route alike under one address. -/
def Alike (s s' : NwkLayer) : Prop := s'.canRoute = s.canRoute ∧ s'.nib.networkAddress = s.nib.networkAddress

/-- An end-device child with one of the addresses. -/
def named (announced : List IeeeAddress) (e : NeighborEntry) : Bool := e.isEndDeviceChild && announced.contains e.ieeeAddress

theorem named_drop (announced : List IeeeAddress) (e : NeighborEntry) : named announced e.drop = false := rfl

/-- This device is actively parenting a child with the address. -/
def confirms (s : NwkLayer) (a : IeeeAddress) : Bool :=
  s.neighbors.entries.any fun e => named [a] e && e.keepaliveConfirmed

variable {s : NwkLayer} {o : ParentAnnceOutcome} {a : IeeeAddress}

theorem named_single : named [a] e = true ↔ e.isEndDeviceChild = true ∧ e.ieeeAddress = a := by
  simp [named]

theorem named_cons : named (a :: announced) e = (named [a] e || named announced e) := by
  unfold named
  cases e.isEndDeviceChild <;> simp

theorem evictChild_eq {i : Nat} {p : NeighborEntry → Bool} (hi : s.neighbors.entries[i]? = some e)
    (hidx : s.neighbors.entries.findIdx? (fun x => x.active && x.networkAddress == e.networkAddress) = some i) (hp : p e = true)
    (honly : ∀ (j : Nat) x, s.neighbors.entries[j]? = some x → p x = true → j = i) :
    (s.evictChild e.networkAddress a).neighbors = s.neighbors.evictWhere p ∧ Alike s (s.evictChild e.networkAddress a) :=
  ⟨remove_eq_evictWhere hi hidx hp honly, rfl, rfl⟩

theorem removeOne_spec (h : s.neighbors.Located (fun _ => true) a) :
    (s.removeOne a).neighbors = s.neighbors.evictWhere (named [a]) ∧ Alike s (s.removeOne a) := by
  unfold removeOne
  rcases h.cases with ⟨i, e, hi, hfind, hchild, hieee, hidx, honly⟩ | ⟨hnone, habsent⟩
  · rw [hfind]
    dsimp only
    rw [if_pos hchild]
    exact evictChild_eq hi (hidx rfl) (named_single.mpr ⟨hchild, hieee⟩) fun j x hj hx =>
      honly j x hj (named_single.mp hx).1 (named_single.mp hx).2
  · have hsame : s.neighbors.evictWhere (named [a]) = s.neighbors :=
      evictWhere_none fun e he => by
        by_contra hn
        obtain ⟨hchild, hieee⟩ := named_single.mp (by simpa using hn)
        exact habsent e he hchild hieee
    rw [hsame]
    cases hfind : s.neighbors.findByIeee a with
    | none => exact ⟨rfl, rfl, rfl⟩
    | some e =>
      dsimp only
      rw [if_neg (by rw [hnone e hfind]; decide)]
      exact ⟨rfl, rfl, rfl⟩

/-- **A response takes the children that it names, and nothing else.** -/
theorem removeChildrenByIeee_spec (hroute : s.canRoute = true) (ieees : List IeeeAddress)
    (h : ∀ a ∈ ieees, s.neighbors.Located (fun _ => true) a) :
    (s.removeChildrenByIeee ieees).neighbors = s.neighbors.evictWhere (named ieees) ∧ Alike s (s.removeChildrenByIeee ieees) := by
  unfold removeChildrenByIeee
  rw [hroute, if_neg (by decide)]
  clear hroute
  induction ieees generalizing s with
  | nil =>
    refine ⟨(evictWhere_none fun e _ => ?_).symm, rfl, rfl⟩
    unfold named
    rw [List.contains_nil, Bool.and_false]
  | cons a ieees ih =>
    obtain ⟨hone, hroute, haddress⟩ := removeOne_spec (h a List.mem_cons_self)
    have hrest := ih (s := s.removeOne a) fun b hb => by
      rw [hone]
      exact (h b (List.mem_cons_of_mem a hb)).evictWhere _
    obtain ⟨htable, hroute', haddress'⟩ := hrest
    refine ⟨?_, hroute'.trans hroute, haddress'.trans haddress⟩
    rw [List.foldl_cons, htable, hone, evictWhere_evictWhere (named_drop ieees)]
    congr 1
    funext e
    exact named_cons.symm

/-- An announced child that nothing confirms. -/
def yielded (announced : List IeeeAddress) (e : NeighborEntry) : Bool := named announced e && !e.keepaliveConfirmed

theorem confirms_evictWhere {b : IeeeAddress} {s' : NwkLayer} (h : s'.neighbors = s.neighbors.evictWhere (yielded announced)) :
    s'.confirms b = s.confirms b := by
  unfold confirms
  rw [h, Bool.eq_iff_iff, List.any_eq_true, List.any_eq_true]
  constructor
  · rintro ⟨e, he, hconfirmed⟩
    rw [Bool.and_eq_true] at hconfirmed
    have hactive := active_of_child (named_single.mp hconfirmed.1).1
    exact ⟨e, (of_mem_evictWhere he hactive).1, by rw [Bool.and_eq_true]; exact hconfirmed⟩
  · rintro ⟨e, he, hconfirmed⟩
    rw [Bool.and_eq_true] at hconfirmed
    exact ⟨e, mem_evictWhere he (by simp [yielded, hconfirmed.2]), by rw [Bool.and_eq_true]; exact hconfirmed⟩

theorem applyOne_spec (h : s.neighbors.Located (!·.keepaliveConfirmed) a) :
    (applyOne (s, o) a).1.neighbors = s.neighbors.evictWhere (yielded [a]) ∧
      Alike s (applyOne (s, o) a).1 ∧
      (applyOne (s, o) a).2.kept = if s.confirms a then push o.kept a else o.kept := by
  unfold applyOne
  rcases h.cases with ⟨i, e, hi, hfind, hchild, hieee, hidx, honly⟩ | ⟨hnone, habsent⟩
  · have hnamed : named [a] e = true := named_single.mpr ⟨hchild, hieee⟩
    have hsame : ∀ x ∈ s.neighbors.entries, named [a] x = true → x = e := fun x hx hn => by
      obtain ⟨j, hj⟩ := List.mem_iff_getElem?.mp hx
      obtain rfl := honly j x hj (named_single.mp hn).1 (named_single.mp hn).2
      rw [hi] at hj
      exact (Option.some.inj hj).symm
    have hconfirms : s.confirms a = e.keepaliveConfirmed := by
      unfold confirms
      rw [Bool.eq_iff_iff, List.any_eq_true]
      constructor
      · rintro ⟨x, hx, hboth⟩
        rw [Bool.and_eq_true] at hboth
        rw [← hsame x hx hboth.1]
        exact hboth.2
      · intro hconfirmed
        exact ⟨e, List.mem_of_getElem? hi, by rw [hnamed, hconfirmed]; rfl⟩
    rw [hfind]
    dsimp only
    rw [if_pos hchild, hconfirms]
    cases hconfirmed : e.keepaliveConfirmed with
    | true =>
      refine ⟨(evictWhere_none fun x hx => ?_).symm, ⟨rfl, rfl⟩, rfl⟩
      unfold yielded
      cases hn : named [a] x with
      | true => rw [hsame x hx hn, hconfirmed]; rfl
      | false => rfl
    | false =>
      obtain ⟨htable, halike⟩ := evictChild_eq (p := yielded [a]) (a := a) hi (hidx (by rw [hconfirmed]; rfl)) (by simp [yielded, hnamed, hconfirmed])
        fun j x hj hx => by
          unfold yielded at hx
          rw [Bool.and_eq_true] at hx
          exact honly j x hj (named_single.mp hx.1).1 (named_single.mp hx.1).2
      exact ⟨htable, halike, rfl⟩
  · have hnone' : ∀ x ∈ s.neighbors.entries, named [a] x = false := fun x hx => by
      by_contra hn
      obtain ⟨hchild, hieee⟩ := named_single.mp (by simpa using hn)
      exact habsent x hx hchild hieee
    have hconfirms : s.confirms a = false := by
      unfold confirms
      exact List.any_eq_false.mpr fun x hx => by rw [hnone' x hx, Bool.false_and]; decide
    have hsame : s.neighbors.evictWhere (yielded [a]) = s.neighbors :=
      evictWhere_none fun x hx => by rw [yielded, hnone' x hx]; rfl
    rw [hsame, hconfirms]
    cases hfind : s.neighbors.findByIeee a with
    | none => exact ⟨rfl, ⟨rfl, rfl⟩, rfl⟩
    | some e =>
      dsimp only
      rw [if_neg (by rw [hnone e hfind]; decide)]
      exact ⟨rfl, ⟨rfl, rfl⟩, rfl⟩

theorem yielded_drop (announced : List IeeeAddress) (e : NeighborEntry) : yielded announced e.drop = false := rfl

theorem yielded_cons : yielded (a :: announced) e = (yielded [a] e || yielded announced e) := by
  unfold yielded
  rw [named_cons]
  cases named [a] e <;> cases named announced e <;> cases e.keepaliveConfirmed <;> rfl

theorem foldl_applyOne_spec (announced : List IeeeAddress) (h : ∀ a ∈ announced, s.neighbors.Located (!·.keepaliveConfirmed) a)
    (hroom : o.kept.length + announced.length ≤ MAX_NEIGHBORS true) :
    (announced.foldl applyOne (s, o)).1.neighbors = s.neighbors.evictWhere (yielded announced) ∧
      Alike s (announced.foldl applyOne (s, o)).1 ∧
      (announced.foldl applyOne (s, o)).2.kept = o.kept ++ announced.filter s.confirms := by
  induction announced generalizing s o with
  | nil =>
    refine ⟨(evictWhere_none fun e _ => ?_).symm, ⟨rfl, rfl⟩, (List.append_nil _).symm⟩
    unfold yielded named
    rw [List.contains_nil, Bool.and_false, Bool.false_and]
  | cons a announced ih =>
    rw [List.length_cons] at hroom
    obtain ⟨hone, ⟨hroute, haddress⟩, hkept⟩ := applyOne_spec (o := o) (h a List.mem_cons_self)
    have hpush : (applyOne (s, o) a).2.kept = o.kept ++ [a].filter s.confirms := by
      rw [hkept, List.filter_cons, List.filter_nil]
      cases s.confirms a with
      | true =>
        have hfree : o.kept.length < MAX_NEIGHBORS true := by omega
        exact if_pos hfree
      | false => exact (List.append_nil _).symm
    have hlen : (applyOne (s, o) a).2.kept.length ≤ o.kept.length + 1 := by
      rw [hpush, List.length_append]
      exact Nat.add_le_add_left (List.length_filter_le _ _) _
    obtain ⟨htable, ⟨hroute', haddress'⟩, hkept'⟩ := ih (s := (applyOne (s, o) a).1)
      (o := (applyOne (s, o) a).2)
      (fun b hb => by rw [hone]; exact (h b (List.mem_cons_of_mem a hb)).evictWhere _) (by omega)
    rw [List.foldl_cons]
    refine ⟨?_, ⟨hroute'.trans hroute, haddress'.trans haddress⟩, ?_⟩
    · rw [htable, hone, evictWhere_evictWhere (yielded_drop announced)]
      congr 1
      funext e
      exact yielded_cons.symm
    · rw [hkept', hpush, List.append_assoc]
      congr 1
      rw [show a :: announced = [a] ++ announced from rfl, List.filter_append]
      congr 1
      exact List.filter_congr fun b _ => confirms_evictWhere hone

/-- **An announcement takes the children that it names and that nothing confirms, and keeps the confirmed ones.** -/
theorem applyParentAnnce_spec (hroute : s.canRoute = true) (hlen : announced.length ≤ MAX_NEIGHBORS true)
    (h : ∀ a ∈ announced, s.neighbors.Located (!·.keepaliveConfirmed) a) :
    (s.applyParentAnnce announced).1.neighbors = s.neighbors.evictWhere (yielded announced) ∧
      Alike s (s.applyParentAnnce announced).1 ∧
      (s.applyParentAnnce announced).2.kept = announced.filter s.confirms := by
  unfold applyParentAnnce
  rw [hroute, if_neg (by decide)]
  exact foldl_applyOne_spec announced h (by rw [List.length_nil]; omega)

end NwkLayer

/-! ## Announcement flags -/

/-- The entry without its announcement flag. -/
def NeighborEntry.unmarked (e : NeighborEntry) : NeighborEntry := { e with parentAnncePending := false }

/-- The entry without what a keepalive changes. -/
def NeighborEntry.bare (e : NeighborEntry) : NeighborEntry :=
  { e with age := 0, keepaliveConfirmed := false, parentAnncePending := false }

/-- The layers differ at most in the announcement flags of their entries. -/
structure NwkLayer.Quiet (s s' : NwkLayer) : Prop where
  alike : NwkLayer.Alike s s'
  count : s'.neighbors.count = s.neighbors.count
  entries : s'.neighbors.entries.map unmarked = s.neighbors.entries.map unmarked

namespace NwkLayer

variable {s s' s'' : NwkLayer}

theorem Quiet.refl (s : NwkLayer) : s.Quiet s := ⟨⟨rfl, rfl⟩, rfl, rfl⟩

theorem Quiet.trans (h : s.Quiet s') (h' : s'.Quiet s'') : s.Quiet s'' :=
  ⟨⟨h'.alike.1.trans h.alike.1, h'.alike.2.trans h.alike.2⟩, h'.count.trans h.count, h'.entries.trans h.entries⟩

theorem mapActive_quiet (s : NwkLayer) {f : NeighborEntry → NeighborEntry} (hf : ∀ e, (f e).unmarked = e.unmarked) :
    s.Quiet { s with neighbors := s.neighbors.mapActive f } := by
  refine ⟨⟨rfl, rfl⟩, rfl, ?_⟩
  rw [entries_mapActive, List.map_map]
  refine List.map_congr_left fun e _ => ?_
  rw [Function.comp_apply]
  split
  · exact hf e
  · rfl

theorem markParentAnncePending_quiet (s : NwkLayer) : s.Quiet s.markParentAnncePending.1 := by
  unfold markParentAnncePending
  split
  · exact .refl s
  · exact mapActive_quiet s fun _ => rfl

theorem clearParentAnncePending_quiet (s : NwkLayer) : s.Quiet s.clearParentAnncePending := mapActive_quiet s fun _ => rfl

theorem takeChunk_unmarked (n : Nat) (entries : List NeighborEntry) :
    (takeChunk n entries).2.map unmarked = entries.map unmarked := by
  induction entries generalizing n with
  | nil => cases n <;> rfl
  | cons e entries ih =>
    cases n with
    | zero =>
      rw [takeChunk]
      split
      · rfl
      · exact congrArg (e.unmarked :: ·) (ih 0)
    | succ n =>
      rw [takeChunk]
      split
      · exact congrArg (e.unmarked :: ·) (ih n)
      · exact congrArg (e.unmarked :: ·) (ih (n + 1))

theorem takeParentAnnceChunk_quiet (s : NwkLayer) (n : Nat) : s.Quiet (s.takeParentAnnceChunk n).1 := by
  unfold takeParentAnnceChunk
  split
  · exact .refl s
  · exact ⟨⟨rfl, rfl⟩, rfl, takeChunk_unmarked _ _⟩

end NwkLayer

theorem NeighborTable.findByShort_bare {t t' : NeighborTable} (hcount : t'.count = t.count)
    (hbare : t'.entries.map bare = t.entries.map bare) (a : ShortAddress) :
    (t'.findByShort a).map bare = (t.findByShort a).map bare := by
  have hmap : ∀ u : NeighborTable, (u.findByShort a).map bare =
      ((u.entries.map bare).take u.count).find? fun e => e.active && e.networkAddress == a := by
    intro u
    rw [← List.map_take, List.find?_map]
    rfl
  rw [hmap t', hmap t, hbare, hcount]

theorem NeighborTable.any_evictWhere {t : NeighborTable} {p q : NeighborEntry → Bool} (hq : ∀ e, q e = true → e.active = true)
    (h : t.entries.any q = false) : (t.evictWhere p).entries.any q = false := by
  refine List.any_eq_false.mpr fun e he hqe => ?_
  exact List.any_eq_false.mp h e (of_mem_evictWhere he (hq e hqe)).1 hqe

/-- What a keepalive makes of the entry that it is for. -/
def NeighborEntry.refresh (source : Option IeeeAddress) (e : NeighborEntry) : NeighborEntry :=
  if e.isEndDeviceChild && source.all (e.ieeeAddress == ·) then
    { e with age := 0, keepaliveConfirmed := true, parentAnncePending := false }
  else e

theorem NeighborEntry.refresh_bare (source : Option IeeeAddress) (e : NeighborEntry) : (e.refresh source).bare = e.bare := by
  unfold refresh
  split <;> rfl

theorem NeighborEntry.refresh_confirmed (source : Option IeeeAddress) {c : IeeeAddress}
    (h : (NwkLayer.named [c] e && e.keepaliveConfirmed) = true) :
    (NwkLayer.named [c] (e.refresh source) && (e.refresh source).keepaliveConfirmed) = true := by
  unfold refresh
  split
  · rw [Bool.and_eq_true] at h
    exact Bool.and_eq_true_iff.mpr ⟨h.1, rfl⟩
  · exact h

namespace NwkLayer

variable {s : NwkLayer} {address : ShortAddress} {source : Option IeeeAddress} {c : IeeeAddress}

/-- A keepalive changes one slot, or nothing. -/
theorem refreshChildKeepalive_cases (s : NwkLayer) (address : ShortAddress) (source : Option IeeeAddress) :
    s.refreshChildKeepalive address source = s ∨
      ∃ i e, s.neighbors.entries[i]? = some e ∧ s.neighbors.findByShort address = some e ∧
        s.refreshChildKeepalive address source = { s with neighbors := s.neighbors.setSlot i (e.refresh source) } := by
  unfold refreshChildKeepalive
  split
  · exact Or.inl rfl
  · have hrefresh : (fun e : NeighborEntry => if e.isEndDeviceChild && source.all (e.ieeeAddress == ·) then
        { e with age := 0, keepaliveConfirmed := true, parentAnncePending := false } else e) = refresh source := rfl
    rw [hrefresh]
    rcases Table.modifyFirst_cases (fun e : NeighborEntry => e.active && e.networkAddress == address)
        (refresh source) s.neighbors.searched with ⟨i, e, hi, hfind, -, hset⟩ | ⟨-, hsame⟩
    · obtain ⟨hlt, -⟩ := List.getElem?_eq_some_iff.mp hi
      have htable : s.neighbors.modifyByShort address (refresh source) =
          s.neighbors.setSlot i (e.refresh source) := by
        refine NeighborTable.ext ?_ rfl
        change Table.modifyFirst _ _ s.neighbors.searched ++ _ = _
        rw [hset, ← List.set_append_left i _ hlt, searched, List.take_append_drop]
        rfl
      refine Or.inr ⟨i, e, ?_, hfind, by rw [htable]⟩
      unfold searched at hi
      rw [List.getElem?_take] at hi
      split at hi
      · exact hi
      · cases hi
    · have htable : s.neighbors.modifyByShort address (refresh source) = s.neighbors := by
        refine NeighborTable.ext ?_ rfl
        change Table.modifyFirst _ _ s.neighbors.searched ++ _ = _
        rw [hsame, searched, List.take_append_drop]
      exact Or.inl (by rw [htable])

end NwkLayer

end Zigbee.Nwk
