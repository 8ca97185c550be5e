import Zigbee.Lib.Run
import Zigbee.Nwk.Routing

/-!
# One active route per destination

* `UniqueActive` — no two active entries name the same destination.
* `shadowed` — the first entry that names a destination is not active, and a later one is.  An
  ordinary route to a failed concentrator gets into this position: `update_route` does not reuse the
  tombstone, and `update_route_many_to_one` then revives it beside the route.
* `active_routes_unique` — uniqueness holds along a run exactly when no many-to-one update meets a
  shadowed destination.
-/

namespace Zigbee.Nwk

open Run Table

namespace RoutingTable

/-- No two active entries name the same destination. -/
def UniqueActive (t : RoutingTable) : Prop := UniqueLive (·.active) (·.destination) t.routes

/-- The first entry for the destination is not active, and a later one is. -/
def shadowed (t : RoutingTable) (destination : ShortAddress) : Bool :=
  (t.routes.find? (·.destination == destination)).any (!·.active) && t.routes.any (·.isFor destination)

/-- A lookup does not depend on the order of the slots. -/
def OrderFree (t : RoutingTable) : Prop :=
  ∀ routes, routes.Perm t.routes → ∀ destination,
    nextHop { t with routes := routes } destination = t.nextHop destination ∧
    getEntry { t with routes := routes } destination = t.getEntry destination

theorem UniqueActive.orderFree {t : RoutingTable} (h : t.UniqueActive) : t.OrderFree := by
  intro routes hperm destination
  have hfind : routes.find? (·.usable destination) = t.routes.find? (·.usable destination) := by
    refine h.find?_perm hperm destination fun e he => ?_
    simp only [RouteEntry.usable, RouteEntry.isFor, Bool.and_eq_true, beq_iff_eq] at he
    exact ⟨he.1.1, he.1.2⟩
  exact ⟨by rw [nextHop, hfind, nextHop], hfind⟩

end RoutingTable

/-- The step is a many-to-one update of a shadowed destination. -/
def RoutingOp.revives (t : RoutingTable) : RoutingOp → Bool
  | .updateRouteManyToOne destination _ _ _ => t.shadowed destination
  | _ => false

namespace RoutingTable

variable {t : RoutingTable}

theorem new_uniqueActive (router : Bool) : (new router).UniqueActive := by
  intro i j x y hi hj hx hy hk
  have hmem := List.mem_of_getElem? hi
  rw [List.eq_of_mem_replicate hmem] at hx
  cases hx

/-! ## Steps -/

theorem UniqueActive.modifyRoute (h : t.UniqueActive) {p : RouteEntry → Bool} {f : RouteEntry → RouteEntry}
    (hkey : ∀ r, (f r).destination = r.destination)
    (hlive : ∀ r, p r = true → (f r).active = true → r.active = true) : (t.modifyRoute p f).UniqueActive :=
  UniqueLive.modifyFirst h hkey hlive

theorem UniqueActive.modifyRoutes (h : t.UniqueActive) {p : RouteEntry → Bool} {f : RouteEntry → RouteEntry}
    (hkey : ∀ r, (f r).destination = r.destination)
    (hlive : ∀ r, p r = true → (f r).active = true → r.active = true) : (t.modifyRoutes p f).UniqueActive := by
  refine UniqueLive.map h (fun r => ?_) (fun r hr => ?_)
  · split
    · exact hkey r
    · rfl
  · split at hr
    · exact hlive r ‹_› hr
    · exact hr

/-- A new entry takes a slot when no active entry names its destination. -/
theorem UniqueActive.install (h : t.UniqueActive) {entry : RouteEntry}
    (hnew : t.routes.any (·.isFor entry.destination) = false) : (t.install entry).1.UniqueActive := by
  unfold RoutingTable.install
  split
  · exact h
  · refine UniqueLive.set h fun _ j y _ hj hy hk => ?_
    have := List.any_eq_false.mp hnew y (List.mem_of_getElem? hj)
    simp [RouteEntry.isFor, hy, hk] at this

theorem failRoute_unique {routes : List RouteEntry} (h : UniqueLive (·.active) (·.destination) routes)
    (destination : ShortAddress) : UniqueLive (·.active) (·.destination) (failRoute destination routes) :=
  UniqueLive.modifyFirst h (fun _ => rfl) (fun _ _ hr => hr)

theorem UniqueActive.failFirst (h : t.UniqueActive) (p : RouteDiscovery → Bool) : (t.failFirst p).UniqueActive := by
  unfold RoutingTable.failFirst
  split
  · exact h
  · exact failRoute_unique h _

theorem UniqueActive.expireDiscoveries (h : t.UniqueActive) (maxAge currentTime : UInt32) :
    (t.expireDiscoveries maxAge currentTime).UniqueActive := by
  have hfold : ∀ (ds : List RouteDiscovery) (routes : List RouteEntry),
      UniqueLive (·.active) (·.destination) routes →
      UniqueLive (·.active) (·.destination) (ds.foldl (fun routes d => failRoute d.destination routes) routes) := by
    intro ds
    induction ds with
    | nil => exact fun _ h => h
    | cons d ds ih => exact fun routes h => ih _ (failRoute_unique h _)
  exact hfold _ _ h

/-- A many-to-one update keeps uniqueness exactly when its destination is not shadowed. -/
theorem UniqueActive.updateRouteManyToOne (h : t.UniqueActive) (destination nextHop : ShortAddress) (cost : UInt8)
    (concentratorType : ConcentratorType) :
    (t.updateRouteManyToOne destination nextHop cost concentratorType).1.UniqueActive ↔
      t.shadowed destination = false := by
  unfold RoutingTable.updateRouteManyToOne
  cases hany : t.routes.any (·.destination == destination) with
  | false =>
    have hnone : ∀ r ∈ t.routes, ¬ (r.destination == destination) = true := List.any_eq_false.mp hany
    have hnew : t.routes.any (·.isFor destination) = false := by
      refine List.any_eq_false.mpr fun r hr hfor => hnone r hr ?_
      exact (Bool.and_eq_true _ _ ▸ hfor).2
    have hsh : t.shadowed destination = false := by
      simp [shadowed, List.find?_eq_none.mpr hnone]
    simp only [Bool.false_eq_true, if_false, hsh, iff_true]
    exact h.install hnew
  | true =>
    simp only [if_true]
    rcases modifyFirst_cases (·.destination == destination)
      (RouteEntry.advertise · nextHop cost concentratorType) t.routes with ⟨i, e, hi, hfind, hp, heq⟩ | ⟨hno, -⟩
    · have hdest : e.destination = destination := beq_iff_eq.mp hp
      have hsh : t.shadowed destination = (!e.active && t.routes.any (·.isFor destination)) := by
        rw [shadowed, hfind, Option.any_some]
      rw [hsh, UniqueActive, RoutingTable.modifyRoute, heq]
      constructor
      · -- The revived slot and the active one behind it would be the same.
        intro huniq
        by_contra hcon
        simp only [Bool.not_eq_false, Bool.and_eq_true, Bool.not_eq_true', List.any_eq_true, RouteEntry.isFor,
          beq_iff_eq] at hcon
        obtain ⟨hoff, r, hr, hon, hrd⟩ := hcon
        obtain ⟨j, hj⟩ := List.mem_iff_getElem?.mp hr
        have hij : i ≠ j := by
          rintro rfl
          rw [hi] at hj
          cases hj
          rw [hoff] at hon
          cases hon
        refine hij (huniq i j (e.advertise nextHop cost concentratorType) r ?_ ?_ rfl hon (hdest.trans hrd.symm))
        · rw [List.getElem?_set_self (List.getElem?_eq_some_iff.mp hi).1]
        · rw [List.getElem?_set_ne hij, hj]
      · intro hsh
        rcases Bool.and_eq_false_iff.mp hsh with hon | hnone
        · exact UniqueLive.set_same h hi rfl fun _ => by simpa using hon
        · refine UniqueLive.set h fun _ j y _ hj hy hk => ?_
          have := List.any_eq_false.mp hnone y (List.mem_of_getElem? hj)
          have hyd : y.destination = destination := hk.trans hdest
          simp [RouteEntry.isFor, hy, hyd] at this
    · obtain ⟨r, hr, hrd⟩ := List.any_eq_true.mp hany
      rw [hno r hr] at hrd
      cases hrd

/-- **A step keeps uniqueness exactly when it does not revive a shadowed destination.** -/
theorem UniqueActive.step (h : t.UniqueActive) (op : RoutingOp) :
    (op.step t).UniqueActive ↔ op.revives t = false := by
  cases op with
  | updateRouteManyToOne destination nextHop cost concentratorType =>
    exact h.updateRouteManyToOne destination nextHop cost concentratorType
  | updateRoute destination nextHop cost =>
    refine iff_of_true ?_ rfl
    simp only [RoutingOp.step, RoutingTable.updateRoute]
    cases hany : t.routes.any (·.isFor destination) with
    | true => exact h.modifyRoute (fun _ => rfl) (fun _ _ hr => hr)
    | false => exact h.install hany
  | noteUsed destination nextHop => exact iff_of_true (h.modifyRoute (fun _ => rfl) (fun _ _ hr => hr)) rfl
  | markDiscovery destination => exact iff_of_true (h.modifyRoute (fun _ => rfl) (fun _ _ hr => hr)) rfl
  | remove destination => exact iff_of_true (h.modifyRoute (fun _ => rfl) (fun _ _ hr => by cases hr)) rfl
  | removeThrough addr => exact iff_of_true (h.modifyRoutes (fun _ => rfl) (fun _ _ hr => by cases hr)) rfl
  | ageBy elapsedSecs => exact iff_of_true (h.modifyRoutes (fun _ => rfl) (fun _ _ hr => hr)) rfl
  | clearRouteRecordRequired destination =>
    refine iff_of_true (h.modifyRoute (fun r => ?_) (fun r _ hr => ?_)) rfl
    · split <;> rfl
    · split at hr <;> exact hr
  | expireStale maxAge => exact iff_of_true (h.modifyRoutes (fun _ => rfl) (fun _ _ hr => by cases hr)) rfl
  | addDiscovery discovery => exact iff_of_true h rfl
  | findDiscoveryForMut originator requestId update => exact iff_of_true h rfl
  | completeDiscoveryFor originator requestId => exact iff_of_true h rfl
  | completeDiscovery requestId => exact iff_of_true h rfl
  | failDiscovery requestId => exact iff_of_true (h.failFirst _) rfl
  | failDiscoveryFor originator requestId => exact iff_of_true (h.failFirst _) rfl
  | expireDiscoveries maxAge currentTime => exact iff_of_true (h.expireDiscoveries maxAge currentTime) rfl

end RoutingTable

/-! ## Runs -/

open RoutingTable in
/-- **No two active entries name the same destination, and lookups do not depend on the order of the
    slots, in every state of a run exactly when** no many-to-one update of the run finds its destination
    shadowed. -/
theorem active_routes_unique (router : Bool) (ops : List RoutingOp) :
    (∀ ops', ops' <+: ops → (run RoutingOp.step (new router) ops').UniqueActive ∧
      (run RoutingOp.step (new router) ops').OrderFree) ↔
    Along RoutingOp.step (fun t op => op.revives t = false) (new router) ops := by
  rw [← prefix_iff_along (fun t op ht => ht.step op) (new_uniqueActive router) ops]
  constructor
  · exact fun h ops' hops' => (h ops' hops').1
  · exact fun h ops' hops' => ⟨h ops' hops', (h ops' hops').orderFree⟩

/-- A concentrator is announced, its route fails, an ordinary discovery finds another one, and the
    concentrator is announced again. -/
def reannouncement : List RoutingOp :=
  [.updateRouteManyToOne 5 2 1 .lowRam, .remove 5, .updateRoute 5 3 1, .updateRouteManyToOne 5 4 1 .lowRam]

open RoutingTable in
/-- **Both entries are active then**, and they name different hops. -/
theorem reannounced_concentrator_twice :
    ¬ (run RoutingOp.step (new true) reannouncement).UniqueActive := by
  intro h
  have hentries : 0 = 1 := h 0 1 ⟨5, 4, .active, true, true, true, false, 1, 0, true⟩
    ⟨5, 3, .active, false, false, false, false, 1, 0, true⟩ (by decide) (by decide) rfl rfl rfl
  cases hentries

end Zigbee.Nwk
