import Zigbee.Nwk.Routing

/-!
# Which route a new one displaces

* `RouteEntry.kind` — a routing-table entry is free, out of use, idle, a tombstone, or in use.
* `reclaimSlot_spec` — the slot that is reclaimed holds the entry to give up, and none is reclaimed
  exactly when every entry is in use.
* `insertion_policy` — an insertion for a destination without an entry changes at most that slot;
  any other changes an entry of its own destination.
-/

namespace Zigbee.Nwk

open RoutingTable

/-- What an entry means to an insertion for another destination. -/
inductive EntryKind where
  | free
  /-- A failed or unfinished discovery, or a validation. -/
  | unused
  /-- A normal route that nothing has used for `ROUTE_EVICTION_MIN_AGE_SECS`. -/
  | idle
  /-- A many-to-one route that has failed. -/
  | tombstone
  /-- An `Active` many-to-one route, or an `Active` route used a moment ago. -/
  | inUse
  deriving DecidableEq, Repr

/-- The order in which entries are given up. -/
def EntryKind.order : EntryKind → Nat
  | .free => 0
  | .unused => 1
  | .idle => 2
  | .tombstone => 3
  | .inUse => 4

/-- Within the kind, the oldest goes first. -/
def EntryKind.byAge : EntryKind → Bool
  | .unused | .idle => true
  | _ => false

def RouteEntry.kind (r : RouteEntry) : EntryKind :=
  if r.active then
    if r.status = .active then
      if r.manyToOne ∨ r.age < ROUTE_EVICTION_MIN_AGE_SECS then .inUse else .idle
    else .unused
  else if r.manyToOne then .tombstone else .free

/-- The entry in slot `i` is the one to give up. -/
structure GivesUp (routes : List RouteEntry) (i : Nat) (victim : RouteEntry) : Prop where
  held : routes[i]? = some victim
  notInUse : victim.kind ≠ .inUse
  preferred : ∀ r ∈ routes, victim.kind.order ≤ r.kind.order
  oldest : victim.kind.byAge = true → ∀ r ∈ routes, r.kind = victim.kind → r.age ≤ victim.age

namespace RoutingTable

variable {t : RoutingTable} {routes : List RouteEntry} {p : RouteEntry → Bool} {i : Nat}

/-! ## The searches -/

theorem isFree_eq (r : RouteEntry) : (!r.active && !r.manyToOne) = (r.kind == .free) := by
  unfold RouteEntry.kind
  split_ifs with hlive hstatus huse <;> simp [*]

theorem isUnused_eq (r : RouteEntry) : (r.active && r.status != .active) = (r.kind == .unused) := by
  unfold RouteEntry.kind
  split_ifs with hlive hstatus huse <;> simp [*]

theorem isIdle_eq (r : RouteEntry) :
    (r.active && r.status == .active && !r.manyToOne && decide (ROUTE_EVICTION_MIN_AGE_SECS ≤ r.age)) =
      (r.kind == .idle) := by
  unfold RouteEntry.kind
  split_ifs with hlive hstatus huse
  · rcases huse with hm | hage
    · simp [hm]
    · have : ¬ ROUTE_EVICTION_MIN_AGE_SECS ≤ r.age := UInt16.not_le.mpr hage
      simp [this]
  · obtain ⟨hm, hage⟩ := not_or.mp huse
    simp [hlive, hstatus, hm, UInt16.not_lt.mp hage]
  · simp only [beq_eq_false_iff_ne.mpr hstatus, Bool.and_false, Bool.false_and]
    rfl
  all_goals simp [hlive]

theorem inactive_kind {r : RouteEntry} : (!r.active) = true ↔ r.kind = .free ∨ r.kind = .tombstone := by
  unfold RouteEntry.kind
  split_ifs with hlive hstatus huse <;> simp [*]

/-- The oldest entry is in its slot, meets the condition, and no other that meets it is older. -/
theorem oldest_some (h : oldest routes p = some i) :
    ∃ e, routes[i]? = some e ∧ p e = true ∧ ∀ r ∈ routes, p r = true → r.age ≤ e.age := by
  obtain ⟨⟨e, j⟩, hmax, rfl⟩ := Option.map_eq_some_iff.mp h
  obtain ⟨hmem, hage⟩ := maxByKey_spec hmax
  obtain ⟨hslot, hp⟩ := List.mem_filter.mp hmem
  refine ⟨e, List.mem_zipIdx_iff_getElem?.mp hslot, hp, fun r hr hpr => ?_⟩
  obtain ⟨k, hk⟩ := List.mem_iff_getElem?.mp hr
  exact UInt16.le_iff_toNat_le.mpr (hage (r, k) (List.mem_filter.mpr ⟨List.mem_zipIdx_iff_getElem?.mpr hk, hpr⟩))

theorem oldest_none (h : oldest routes p = none) : ∀ r ∈ routes, p r = false := by
  intro r hr
  obtain ⟨k, hk⟩ := List.mem_iff_getElem?.mp hr
  by_contra hp
  have hempty := maxByKey_eq_none.mp (Option.map_eq_none_iff.mp h)
  have hmem : (r, k) ∈ routes.zipIdx.filter fun x => p x.1 :=
    List.mem_filter.mpr ⟨List.mem_zipIdx_iff_getElem?.mpr hk, by simpa using hp⟩
  rw [hempty] at hmem
  cases hmem

/-- The four searches, in the words of the kinds of entries. -/
theorem reclaimSlot_eq (t : RoutingTable) :
    t.reclaimSlot =
      ((t.routes.findIdx? (·.kind == .free)).or (oldest t.routes (·.kind == .unused))).or
      ((oldest t.routes (·.kind == .idle)).or (t.routes.findIdx? (!·.active))) := by
  simp only [reclaimSlot, isFree_eq, isUnused_eq, isIdle_eq]

/-! ## The slot -/

/-- An entry of a kind of which the table holds none that goes before. -/
theorem givesUp_of_kind {e : RouteEntry} {k : EntryKind} (hi : routes[i]? = some e) (hk : e.kind = k)
    (huse : k ≠ .inUse) (hbefore : ∀ r ∈ routes, k.order ≤ r.kind.order)
    (hage : k.byAge = true → ∀ r ∈ routes, r.kind = k → r.age ≤ e.age) : GivesUp routes i e := by
  subst hk
  exact ⟨hi, huse, hbefore, hage⟩

/-- The slot that is reclaimed is the one to give up, and none is reclaimed only when every entry is
    in use. -/
theorem reclaimSlot_spec (t : RoutingTable) :
    match t.reclaimSlot with
    | none => ∀ r ∈ t.routes, r.kind = .inUse
    | some i => ∃ victim, GivesUp t.routes i victim := by
  rw [reclaimSlot_eq]
  cases hfree : t.routes.findIdx? (·.kind == .free) with
  | some i =>
    obtain ⟨e, hi, he⟩ := Table.getElem?_of_findIdx? hfree
    exact ⟨e, givesUp_of_kind hi (beq_iff_eq.mp he) (by decide) (fun r _ => Nat.zero_le _)
      (by simp [EntryKind.byAge])⟩
  | none =>
    have hnofree : ∀ r ∈ t.routes, r.kind ≠ .free := by simpa using hfree
    cases hunused : oldest t.routes (·.kind == .unused) with
    | some i =>
      obtain ⟨e, hi, he, hage⟩ := oldest_some hunused
      refine ⟨e, givesUp_of_kind hi (beq_iff_eq.mp he) (by decide) (fun r hr => ?_) fun _ r hr hk => ?_⟩
      · have := hnofree r hr
        cases hk : r.kind <;> simp_all [EntryKind.order]
      · exact hage r hr (beq_iff_eq.mpr hk)
    | none =>
      have hnounused : ∀ r ∈ t.routes, r.kind ≠ .unused := by simpa using oldest_none hunused
      cases hidle : oldest t.routes (·.kind == .idle) with
      | some i =>
        obtain ⟨e, hi, he, hage⟩ := oldest_some hidle
        refine ⟨e, givesUp_of_kind hi (beq_iff_eq.mp he) (by decide) (fun r hr => ?_) fun _ r hr hk => ?_⟩
        · have := hnofree r hr
          have := hnounused r hr
          cases hk : r.kind <;> simp_all [EntryKind.order]
        · exact hage r hr (beq_iff_eq.mpr hk)
      | none =>
        have hnoidle : ∀ r ∈ t.routes, r.kind ≠ .idle := by simpa using oldest_none hidle
        cases hretired : t.routes.findIdx? (!·.active) with
        | some i =>
          obtain ⟨e, hi, he⟩ := Table.getElem?_of_findIdx? hretired
          have hk : e.kind = .tombstone :=
            (inactive_kind.mp he).resolve_left (hnofree e (List.mem_of_getElem? hi))
          refine ⟨e, givesUp_of_kind hi hk (by decide) (fun r hr => ?_) (by simp [EntryKind.byAge])⟩
          have := hnofree r hr
          have := hnounused r hr
          have := hnoidle r hr
          cases hk : r.kind <;> simp_all [EntryKind.order]
        | none =>
          intro r hr
          have hlive : ∀ r ∈ t.routes, r.active = true := by simpa using hretired
          have hkind : r.kind ≠ .tombstone := fun h => by
            have := inactive_kind.mpr (Or.inr h)
            rw [hlive r hr] at this
            cases this
          have := hnofree r hr
          have := hnounused r hr
          have := hnoidle r hr
          cases hk : r.kind <;> simp_all

end RoutingTable

/-! ## Insertions -/

/-- A route is installed by a discovery, or by the route request of a concentrator. -/
inductive RouteInsertion where
  | normal (destination nextHop : ShortAddress) (cost : UInt8)
  | manyToOne (destination nextHop : ShortAddress) (cost : UInt8) (concentratorType : ConcentratorType)

namespace RouteInsertion

def destination : RouteInsertion → ShortAddress
  | normal destination _ _ => destination
  | manyToOne destination _ _ _ => destination

def apply (t : RoutingTable) : RouteInsertion → RoutingTable × Bool
  | normal destination nextHop cost => t.updateRoute destination nextHop cost
  | manyToOne destination nextHop cost concentratorType =>
    t.updateRouteManyToOne destination nextHop cost concentratorType

/-- The entry that stands for the destination already: for a concentrator also one that is retired. -/
def finds (ins : RouteInsertion) (r : RouteEntry) : Bool :=
  match ins with
  | normal destination _ _ => r.isFor destination
  | manyToOne destination _ _ _ => r.destination == destination

/-- The destination is new to the table. -/
def isNew (t : RoutingTable) (ins : RouteInsertion) : Bool := !t.routes.any ins.finds

/-- The entry of a new destination. -/
def entry : RouteInsertion → RouteEntry
  | normal destination nextHop cost =>
    ⟨destination, nextHop, .active, false, false, false, false, cost, 0, true⟩
  | manyToOne destination nextHop cost concentratorType =>
    ⟨destination, nextHop, .active, true, true, concentratorType == .lowRam, false, cost, 0, true⟩

/-- The entry of a destination that the table knows. -/
def renew (ins : RouteInsertion) (r : RouteEntry) : RouteEntry :=
  match ins with
  | normal _ nextHop cost => { r with nextHop := nextHop, pathCost := cost, status := .active, age := 0 }
  | manyToOne _ nextHop cost concentratorType => r.advertise nextHop cost concentratorType

variable {t : RoutingTable}

theorem apply_eq (t : RoutingTable) (ins : RouteInsertion) :
    ins.apply t = if ins.isNew t then t.install ins.entry else (t.modifyRoute ins.finds ins.renew, true) := by
  cases ins with
  | normal destination nextHop cost =>
    change t.updateRoute destination nextHop cost = if !t.routes.any (·.isFor destination) then _ else _
    rw [updateRoute]
    cases t.routes.any (·.isFor destination) <;> rfl
  | manyToOne destination nextHop cost concentratorType =>
    change t.updateRouteManyToOne destination nextHop cost concentratorType =
      if !t.routes.any (·.destination == destination) then _ else _
    rw [updateRouteManyToOne]
    cases t.routes.any (·.destination == destination) <;> rfl

theorem finds_destination {ins : RouteInsertion} {r : RouteEntry} (h : ins.finds r = true) :
    r.destination = ins.destination := by
  cases ins with
  | normal destination nextHop cost => exact beq_iff_eq.mp (Bool.and_eq_true_iff.mp h).2
  | manyToOne destination nextHop cost concentratorType => exact beq_iff_eq.mp h

theorem renew_destination (ins : RouteInsertion) (r : RouteEntry) : (ins.renew r).destination = r.destination := by
  cases ins <;> rfl

/-- A new destination fails exactly when every entry is in use, and then nothing changes; otherwise
    it takes the slot to give up. -/
theorem apply_new {ins : RouteInsertion} (hnew : ins.isNew t = true) :
    ((ins.apply t).2 = false ↔ ∀ r ∈ t.routes, r.kind = .inUse) ∧
    ((ins.apply t).2 = false → ins.apply t = (t, false)) ∧
    ((ins.apply t).2 = true → ∃ i victim, GivesUp t.routes i victim ∧
      ins.apply t = ({ t with routes := t.routes.set i ins.entry }, true)) := by
  rw [apply_eq, if_pos hnew, install]
  have hspec := t.reclaimSlot_spec
  cases hslot : t.reclaimSlot with
  | none =>
    rw [hslot] at hspec
    exact ⟨iff_of_true rfl hspec, fun _ => rfl, fun h => (by cases h)⟩
  | some i =>
    rw [hslot] at hspec
    obtain ⟨victim, hv⟩ := hspec
    refine ⟨iff_of_false (by simp) fun hall => ?_, fun h => (by cases h), fun _ => ⟨i, victim, hv, rfl⟩⟩
    exact hv.notInUse (hall victim (List.mem_of_getElem? hv.held))

/-- A destination that the table knows keeps its entry, and no other entry changes. -/
theorem apply_known {ins : RouteInsertion} (hknown : ins.isNew t = false) :
    ∃ i r, t.routes[i]? = some r ∧ r.destination = ins.destination ∧
      (ins.renew r).destination = ins.destination ∧
      ins.apply t = ({ t with routes := t.routes.set i (ins.renew r) }, true) := by
  rw [apply_eq, if_neg (by simp [hknown]), modifyRoute]
  rcases Table.modifyFirst_cases ins.finds ins.renew t.routes with ⟨i, r, hi, -, hr, heq⟩ | ⟨hno, -⟩
  · have hdest := finds_destination hr
    exact ⟨i, r, hi, hdest, by rw [renew_destination, hdest], by rw [heq]⟩
  · have hany : t.routes.any ins.finds = true := by simpa [isNew] using hknown
    obtain ⟨r, hr, hfinds⟩ := List.any_eq_true.mp hany
    rw [hno r hr] at hfinds
    cases hfinds

/-- **Route reclaim policy**: an insertion for a new destination takes the slot to give up, which holds
    no entry in use, and fails exactly when every entry is; for a known destination it changes that
    destination's entry alone. -/
theorem insertion_policy (t : RoutingTable) (ins : RouteInsertion) :
    (ins.isNew t = true →
      ((ins.apply t).2 = false ↔ ∀ r ∈ t.routes, r.kind = .inUse) ∧
      ((ins.apply t).2 = false → ins.apply t = (t, false)) ∧
      ((ins.apply t).2 = true → ∃ i victim, GivesUp t.routes i victim ∧
        ins.apply t = ({ t with routes := t.routes.set i ins.entry }, true))) ∧
    (ins.isNew t = false →
      ∃ i r, t.routes[i]? = some r ∧ r.destination = ins.destination ∧
        (ins.renew r).destination = ins.destination ∧
        ins.apply t = ({ t with routes := t.routes.set i (ins.renew r) }, true)) :=
  ⟨apply_new, apply_known⟩

/-- A tombstone, an idle route and a route to a concentrator. -/
def mixedTable : RoutingTable where
  routes := [{ RouteEntry.empty with manyToOne := true },
    ⟨0x1111, 0x2222, .active, false, false, false, false, 1, 10, true⟩,
    ⟨0x0000, 0x2222, .active, true, true, false, false, 1, 900, true⟩]
  discoveries := []

theorem mixedTable_insert :
    ((normal 0x3333 0x2222 1).apply mixedTable).2 = true ∧
    ∃ i victim, GivesUp mixedTable.routes i victim ∧
      (normal 0x3333 0x2222 1).apply mixedTable =
        ({ mixedTable with routes := mixedTable.routes.set i (normal 0x3333 0x2222 1).entry }, true) :=
  ⟨by decide, ((insertion_policy mixedTable (normal 0x3333 0x2222 1)).1 (by decide)).2.2 (by decide)⟩

end RouteInsertion

end Zigbee.Nwk
