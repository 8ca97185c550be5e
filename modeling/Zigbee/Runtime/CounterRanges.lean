import Zigbee.Lib.Reservation
import Zigbee.Runtime.Lifecycle

/-!
# The counter ranges of a device's life

A device over its joins, formations, rejoins and leaves: the record in its store, the working copy of
the commissioning that is open, and the outgoing-counter ranges that were handed out, in order.

* `Device.step` — an event: a reboot, the operations of the commissioning traits, a rewrite of the
  record, each with what the store makes of its writes.
* `counter_ranges_increase` — the network ranges of every run follow each other; the ranges of the Trust
  Center link key do in the runs in which no distributed network takes the record over while a
  link-key limit is in it.
* `link_key_range_repeats` — a run in which one does.
-/

namespace Zigbee.Runtime

open PersistentSecurityState CommissioningSecurityPersistence

structure Device where
  stored : Option PersistentSecurityState
  /-- The working copy of the commissioning that borrowed the store. -/
  session : Option PersistentSecurityState
  networkRanges : List CounterReservation
  tclkRanges : List CounterReservation

namespace Device

/-- A device that starts with a record in its store. -/
def boot (stored : Option PersistentSecurityState) : Device := ⟨stored, none, [], []⟩

inductive Event where
  /-- Also an aborted commissioning: the working copy is gone. -/
  | reboot
  | openCommissioning
  | reserveNetworkSecurity (o : StoreOutcome) (n : NetworkSecurityState)
  | reserveTrustCenterLinkKey (o : StoreOutcome) (t : TrustCenterLinkKeyState)
  | commitNetwork (o : StoreOutcome) (t : TrustCenterLinkKeyState)
  | commitDistributedNetwork (o : StoreOutcome)
  | commitFormedNetwork (o o' : StoreOutcome) (n : NetworkSecurityState)
  | rewrite (o : StoreOutcome) (w : Rewrite)

/-- The range that a reservation returned. -/
def returned (r : Except SecurityPersistenceError CounterReservation) : List CounterReservation := r.toOption.toList

/-- An operation of the open commissioning, with the ranges it hands out. -/
def onSession (d : Device) (op : CommissioningSecurityPersistence → CommissioningSecurityPersistence)
    (network tclk : CommissioningSecurityPersistence → List CounterReservation) : Device :=
  match d.session with
  | none => d
  | some state =>
    let p : CommissioningSecurityPersistence := ⟨d.stored, state, none⟩
    { stored := (op p).stored
      session := some (op p).state
      networkRanges := d.networkRanges ++ network p
      tclkRanges := d.tclkRanges ++ tclk p }

/-- A formation reserves its range first, and may fail after that. -/
def step (d : Device) : Event → Device
  | .reboot => { d with session := none }
  | .openCommissioning => { d with session := some (new d.stored).state }
  | .reserveNetworkSecurity o n =>
    d.onSession (fun p => (p.reserveNetworkSecurity o n).2) (fun p => returned (p.reserveNetworkSecurity o n).1)
      fun _ => []
  | .reserveTrustCenterLinkKey o t =>
    d.onSession (fun p => (p.reserveTrustCenterLinkKey o t).2) (fun _ => [])
      fun p => returned (p.reserveTrustCenterLinkKey o t).1
  | .commitNetwork o t => d.onSession (fun p => (p.commitNetwork o t).2) (fun _ => []) fun _ => []
  | .commitDistributedNetwork o =>
    d.onSession (fun p => (p.commitDistributedNetwork o).2) (fun _ => []) fun _ => []
  | .commitFormedNetwork o o' n =>
    d.onSession (fun p => (p.commitFormedNetwork o o' n).2)
      (fun p => returned (p.reserveNetworkSecurity o n).1) fun _ => []
  | .rewrite o w =>
    match w.apply d.stored with
    | .ok (some s) => { d with session := none, stored := (storeRecord o d.stored s).2 }
    | _ => { d with session := none }

/-- The event puts a distributed network in the place of a record that holds a link-key limit. -/
def Event.dropsLinkKeyLimit (d : Device) : Event → Bool
  | .reserveNetworkSecurity _ n | .commitFormedNetwork _ _ n =>
    n.nodeJoinLinkKeyType.isDistributed && d.session.any fun s =>
      s.tclkCounterLimit != 0 &&
        decide ((max n.outgoingFrameCounter s.globalCounterLimit).toNat + 0x400 < 2 ^ 32)
  | _ => false

end Device

/-- Ranges that follow each other, and so have no counter in common. -/
structure Increasing (l : List CounterReservation) : Prop where
  nonempty : ∀ r ∈ l, r.current < r.limit
  increasing : l.Pairwise fun a b => a.limit ≤ b.current
  disjoint : l.Pairwise fun a b =>
    Disjoint (Set.Ico a.current.toNat a.limit.toNat) (Set.Ico b.current.toNat b.limit.toNat)

/-- The two counter spaces of a record. -/
inductive CounterSpace where
  | network
  | tclk

namespace CounterSpace

def limit : CounterSpace → PersistentSecurityState → UInt32
  | .network => globalCounterLimit
  | .tclk => tclkCounterLimit

def ranges : CounterSpace → Device → List CounterReservation
  | .network => Device.networkRanges
  | .tclk => Device.tclkRanges

/-- The one of two lists that is about the space. -/
def pick (network tclk : List CounterReservation) : CounterSpace → List CounterReservation
  | .network => network
  | .tclk => tclk

@[simp] theorem pick_network (l l' : List CounterReservation) : CounterSpace.network.pick l l' = l := rfl

@[simp] theorem pick_tclk (l l' : List CounterReservation) : CounterSpace.tclk.pick l l' = l' := rfl

theorem pick_nil (sp : CounterSpace) : sp.pick [] [] = [] := by cases sp <;> rfl

theorem limit_mono (sp : CounterSpace) {s s' : PersistentSecurityState} (h : s.LimitsLe s') :
    (sp.limit s).toNat ≤ (sp.limit s').toNat := by
  cases sp with
  | network => exact h.global
  | tclk => exact h.tclk

theorem limit_empty (sp : CounterSpace) : sp.limit .empty = 0 := by cases sp <;> rfl

end CounterSpace

/-! ## Ranges under the limit of a record -/

/-- The ranges handed out, under a limit of the record. -/
abbrev Under (l : List CounterReservation) (limit : UInt32) : Prop :=
  Reservation.Ledger (fun r : CounterReservation => r.current.toNat) (fun r => r.limit.toNat) l limit.toNat

theorem increasing_of_under {l : List CounterReservation} {limit : UInt32} (h : Under l limit) : Increasing l where
  nonempty := fun r hr => UInt32.lt_iff_toNat_lt.mpr (h.nonempty r hr)
  increasing := h.increasing.imp fun hab => UInt32.le_iff_toNat_le.mpr hab
  disjoint := h.disjoint

/-- The ranges `l` are under the limit `limit` of the working copy and of the record in the store. -/
structure Covers (limit : PersistentSecurityState → UInt32) (l : List CounterReservation)
    (p : CommissioningSecurityPersistence) : Prop where
  state : Under l (limit p.state)
  stored : Under l (limit (p.stored.getD .empty))

section

variable {limit : PersistentSecurityState → UInt32} {l : List CounterReservation}
  {p : CommissioningSecurityPersistence} {s : PersistentSecurityState} {r : CounterReservation} {o o' : StoreOutcome}

/-- What a store holds afterwards, and that it holds the record it accepted. -/
theorem storeRecord_stored (o : StoreOutcome) (stored : Option PersistentSecurityState) (s : PersistentSecurityState) :
    ((storeRecord o stored s).2 = stored ∨ (storeRecord o stored s).2 = some s) ∧
      ∀ u, (storeRecord o stored s).1 = .ok u → (storeRecord o stored s).2 = some s := by
  unfold storeRecord
  split <;> simp

theorem persist_state : (p.persist o).2.state = p.state := by
  unfold persist
  split <;> rfl

theorem persist_stored :
    ((p.persist o).2.stored = p.stored ∨ (p.persist o).2.stored = some p.state) ∧
      ∀ u, (p.persist o).1 = .ok u → (p.persist o).2.stored = some p.state := by
  obtain ⟨hstored, hok⟩ := storeRecord_stored o p.stored p.state
  unfold persist
  split
  · rename_i u stored h
    rw [h] at hstored hok
    exact ⟨hstored, fun _ _ => hok u rfl⟩
  · rename_i e stored h
    rw [h] at hstored
    exact ⟨hstored, fun _ h => by cases h⟩

theorem Covers.persist (h : Covers limit l p) : Covers limit l (p.persist o).2 := by
  refine ⟨by rw [persist_state]; exact h.state, ?_⟩
  rcases (persist_stored (p := p) (o := o)).1 with hs | hs
  · rw [hs]
    exact h.stored
  · rw [hs]
    exact h.state

/-- A new working copy whose limit is not lower. -/
theorem Covers.withState (h : Covers limit l p) (hle : (limit p.state).toNat ≤ (limit s).toNat) :
    Covers limit l { p with state := s } :=
  ⟨h.state.mono hle, h.stored⟩

theorem reserve_fst :
    (p.reserve o s r).1 = (CommissioningSecurityPersistence.persist o { p with state := s }).1.map fun _ => r := rfl

theorem reserve_snd : (p.reserve o s r).2 = (CommissioningSecurityPersistence.persist o { p with state := s }).2 := rfl

theorem Covers.reserve (h : Covers limit l p) (hle : (limit p.state).toNat ≤ (limit s).toNat) :
    Covers limit l (p.reserve o s r).2 :=
  (h.withState hle).persist

/-- **A reservation from the limit on.** -/
theorem Covers.reserveRange (h : Covers limit l p) {current : UInt32} (hle : (limit p.state).toNat ≤ current.toNat)
    (hr : reserveFrom current = .ok r) (hlimit : limit s = r.limit) :
    Covers limit (l ++ Device.returned (p.reserve o s r).1) (p.reserve o s r).2 := by
  obtain ⟨hcurrent, hend⟩ := reserveFrom_ok hr
  have hlt : r.current.toNat < r.limit.toNat := by
    rw [hcurrent]
    omega
  have hraise : (limit p.state).toNat ≤ (limit s).toNat := by
    rw [hlimit]
    rw [hcurrent] at hlt
    omega
  cases ha : (CommissioningSecurityPersistence.persist o { p with state := s }).1 with
  | error e =>
    have : Device.returned (p.reserve o s r).1 = [] := by rw [reserve_fst, ha]; rfl
    rw [this, List.append_nil]
    exact h.reserve hraise
  | ok u =>
    have : Device.returned (p.reserve o s r).1 = [r] := by rw [reserve_fst, ha]; rfl
    rw [this]
    have hnew : Under (l ++ [r]) (limit s) := by
      rw [hlimit]
      exact h.state.snoc (by rwa [hcurrent]) hlt
    refine ⟨by rw [reserve_snd, persist_state]; exact hnew, ?_⟩
    rw [reserve_snd, persist_stored.2 u ha]
    exact hnew

end

/-! ## The operations -/

section

variable {l : List CounterReservation} {p : CommissioningSecurityPersistence} {n : NetworkSecurityState}
  {t : TrustCenterLinkKeyState} {o o' : StoreOutcome}

/-- The network ranges: each starts at the limit that is in the record, or above it. -/
theorem reserveNetworkSecurity_network (h : Covers globalCounterLimit l p) :
    Covers globalCounterLimit (l ++ Device.returned (p.reserveNetworkSecurity o n).1)
      (p.reserveNetworkSecurity o n).2 := by
  unfold reserveNetworkSecurity
  split
  · simpa [Device.returned, Except.toOption] using h
  · rename_i r hr
    exact h.reserveRange (le_toNat_max_right _ _) hr rfl

/-- The record keeps its link-key limit, unless the network is a distributed one. -/
theorem reserveNetworkSecurity_tclk (h : Covers tclkCounterLimit l p)
    (hkeep : n.nodeJoinLinkKeyType.isDistributed = true → p.state.tclkCounterLimit ≠ 0 →
      ¬ (max n.outgoingFrameCounter p.state.globalCounterLimit).toNat + 0x400 < 2 ^ 32) :
    Covers tclkCounterLimit l (p.reserveNetworkSecurity o n).2 := by
  unfold reserveNetworkSecurity
  split
  · exact h
  · rename_i r hr
    apply h.reserve
    simp only [withNetworkSecurity]
    split
    · rename_i hd
      have hroom : (max n.outgoingFrameCounter p.state.globalCounterLimit).toNat + 0x400 < 2 ^ 32 := by
        rw [← (reserveFrom_ok hr).2]
        exact r.limit.toNat_lt
      have hzero : p.state.tclkCounterLimit = 0 := by
        by_contra hne
        exact hkeep hd hne hroom
      rw [hzero]
    · exact le_rfl

theorem reserveTrustCenterLinkKey_network (h : Covers globalCounterLimit l p) :
    Covers globalCounterLimit l (p.reserveTrustCenterLinkKey o t).2 := by
  unfold reserveTrustCenterLinkKey
  split
  · exact h
  · split
    · exact h
    · exact h.reserve le_rfl

/-- The ranges of the link key: one space across replacement keys. -/
theorem reserveTrustCenterLinkKey_tclk (h : Covers tclkCounterLimit l p) :
    Covers tclkCounterLimit (l ++ Device.returned (p.reserveTrustCenterLinkKey o t).1)
      (p.reserveTrustCenterLinkKey o t).2 := by
  unfold reserveTrustCenterLinkKey
  split
  · simpa [Device.returned, Except.toOption] using h
  · split
    · simpa [Device.returned, Except.toOption] using h
    · rename_i r hr
      exact h.reserveRange (le_toNat_max_right _ _) hr rfl

variable {sp : CounterSpace}

theorem commitNetwork_covers (h : Covers sp.limit l p) :
    Covers sp.limit l (p.commitNetwork o t).2 := by
  unfold commitNetwork
  split
  · exact h
  · refine (h.withState ?_).persist
    cases sp <;> exact le_rfl

theorem commitValidated_covers (h : Covers sp.limit l p) :
    Covers sp.limit l (p.commitValidated o).2 := by
  have h' : Covers sp.limit l { p with state := p.state.withCommissioned } :=
    h.withState (by cases sp <;> exact le_rfl)
  simp only [commitValidated]
  split
  · exact h'
  · exact h'.persist

theorem commitDistributedNetwork_covers (h : Covers sp.limit l p) :
    Covers sp.limit l (p.commitDistributedNetwork o).2 := by
  unfold commitDistributedNetwork
  split
  · exact h
  · exact commitValidated_covers h

theorem commitFormation_covers (h : Covers sp.limit l p) :
    Covers sp.limit l (p.commitFormation o n).2 := by
  unfold commitFormation
  split
  · exact commitDistributedNetwork_covers h
  · split
    · exact h
    · exact commitValidated_covers h

/-- A formation covers what its reservation does. -/
theorem commitFormedNetwork_covers (h : Covers sp.limit l (p.reserveNetworkSecurity o n).2) :
    Covers sp.limit l (p.commitFormedNetwork o o' n).2 := by
  unfold commitFormedNetwork
  split
  · rename_i e p' hp
    rw [hp] at h
    exact h
  · rename_i r p' hp
    rw [hp] at h
    exact commitFormation_covers h

end

/-! ## Runs -/

variable {op : CommissioningSecurityPersistence → CommissioningSecurityPersistence}

namespace Device

/-- The ranges of a space are under its limit in every copy of the record. -/
structure Covered (sp : CounterSpace) (d : Device) : Prop where
  stored : Under (sp.ranges d) (sp.limit (d.stored.getD .empty))
  session : ∀ s, d.session = some s → Under (sp.ranges d) (sp.limit s)

variable {sp : CounterSpace} {d : Device}

theorem boot_covered (sp : CounterSpace) (stored : Option PersistentSecurityState) : Covered sp (boot stored) := by
  refine ⟨?_, by simp [boot]⟩
  cases sp <;> exact Reservation.Ledger.nil _ _ _

theorem Covered.reboot (h : Covered sp d) : Covered sp (d.step .reboot) := by
  refine ⟨?_, by simp [step]⟩
  cases sp <;> exact h.stored

theorem Covered.openCommissioning (h : Covered sp d) : Covered sp (d.step .openCommissioning) := by
  constructor
  · cases sp <;> exact h.stored
  · intro s hs
    cases hs
    cases sp <;> exact h.stored

/-- An operation of the open commissioning. -/
theorem Covered.onSession {network tclk : CommissioningSecurityPersistence → List CounterReservation} (h : Covered sp d)
    (hop : ∀ s, d.session = some s → Covers sp.limit (sp.ranges d) ⟨d.stored, s, none⟩ →
      Covers sp.limit (sp.ranges d ++ sp.pick (network ⟨d.stored, s, none⟩) (tclk ⟨d.stored, s, none⟩))
        (op ⟨d.stored, s, none⟩)) : Covered sp (d.onSession op network tclk) := by
  cases hs : d.session with
  | none => simpa [Device.onSession, hs] using h
  | some s =>
    have hp := hop s hs ⟨h.session s hs, h.stored⟩
    simp only [Device.onSession, hs]
    constructor
    · cases sp <;> exact hp.stored
    · intro s' hs'
      cases hs'
      cases sp <;> exact hp.state

/-- An operation that hands out nothing. -/
theorem Covered.onSession_nil (h : Covered sp d)
    (hop : ∀ p, Covers sp.limit (sp.ranges d) p → Covers sp.limit (sp.ranges d) (op p)) :
    Covered sp (d.onSession op (fun _ => []) fun _ => []) := by
  apply h.onSession
  intro s _ hp
  rw [sp.pick_nil, List.append_nil]
  exact hop _ hp

theorem Covered.rewrite (h : Covered sp d) (o : StoreOutcome) (w : Rewrite) :
    Covered sp (d.step (.rewrite o w)) := by
  simp only [step]
  split
  · rename_i s hs
    have hstored : Under (sp.ranges d) (sp.limit ((storeRecord o d.stored s).2.getD .empty)) := by
      rcases (storeRecord_stored o d.stored s).1 with heq | heq
      · rw [heq]
        exact h.stored
      · rw [heq]
        refine h.stored.mono ?_
        cases hd : d.stored with
        | none => simp [sp.limit_empty]
        | some old => exact sp.limit_mono (w.apply_limits d.stored _ hs s rfl old hd)
    refine ⟨?_, by simp⟩
    cases sp <;> exact hstored
  · exact h.reboot

/-- What a reservation of a network keeps, in both spaces. -/
theorem reserveNetworkSecurity_covers {s : PersistentSecurityState} {o : StoreOutcome} {n : NetworkSecurityState}
    (hs : d.session = some s) (hp : Covers sp.limit (sp.ranges d) ⟨d.stored, s, none⟩)
    (hkeep : sp = .tclk → (Event.reserveNetworkSecurity o n).dropsLinkKeyLimit d = false) :
    Covers sp.limit
      (sp.ranges d ++ sp.pick (returned (reserveNetworkSecurity o n ⟨d.stored, s, none⟩).1) [])
      (reserveNetworkSecurity o n ⟨d.stored, s, none⟩).2 := by
  cases sp with
  | network =>
    rw [CounterSpace.pick_network]
    exact reserveNetworkSecurity_network hp
  | tclk =>
    rw [CounterSpace.pick_tclk, List.append_nil]
    apply reserveNetworkSecurity_tclk hp
    intro hd hne
    have hkeep := hkeep rfl
    simp only [Event.dropsLinkKeyLimit, hs, Option.any_some, hd, Bool.true_and, Bool.and_eq_false_iff,
      bne_eq_false_iff_eq, decide_eq_false_iff_not] at hkeep
    exact hkeep.resolve_left hne

/-- **One event keeps the ranges of a space under its limit**, the link key's as far as it does not drop
    that limit. -/
theorem step_covered (h : Covered sp d) {e : Event} (hkeep : sp = .tclk → e.dropsLinkKeyLimit d = false) :
    Covered sp (d.step e) := by
  cases e with
  | reboot => exact h.reboot
  | openCommissioning => exact h.openCommissioning
  | rewrite o w => exact h.rewrite o w
  | reserveNetworkSecurity o n =>
    simp only [step]
    apply h.onSession
    intro s hs hp
    exact reserveNetworkSecurity_covers hs hp hkeep
  | reserveTrustCenterLinkKey o t =>
    simp only [step]
    apply h.onSession
    intro s _ hp
    cases sp with
    | network =>
      rw [CounterSpace.pick_network, List.append_nil]
      exact reserveTrustCenterLinkKey_network hp
    | tclk =>
      rw [CounterSpace.pick_tclk]
      exact reserveTrustCenterLinkKey_tclk hp
  | commitNetwork o t => exact h.onSession_nil fun p hp => commitNetwork_covers hp
  | commitDistributedNetwork o => exact h.onSession_nil fun p hp => commitDistributedNetwork_covers hp
  | commitFormedNetwork o o' n =>
    simp only [step]
    apply h.onSession
    intro s hs hp
    exact commitFormedNetwork_covers (reserveNetworkSecurity_covers hs hp hkeep)

theorem Covered.increasing (h : Covered sp d) : Increasing (sp.ranges d) := increasing_of_under h.stored

end Device

open Device

/-- **Counter reservations of a device's life.**  From every stored record and over every run: the
    network ranges follow each other.  The ranges of the Trust Center link key follow each other in
    every run in which no distributed network takes over a record with a link-key limit. -/
theorem counter_ranges_increase (stored : Option PersistentSecurityState) (es : List Device.Event) :
    Increasing (Run.run Device.step (boot stored) es).networkRanges ∧
      (Run.Along Device.step (fun d e => e.dropsLinkKeyLimit d = false) (boot stored) es →
        Increasing (Run.run Device.step (boot stored) es).tclkRanges) := by
  constructor
  · have h : Covered .network (Run.run Device.step (boot stored) es) :=
      Run.run_invariant (I := Covered .network) (fun d e h => step_covered h (by simp)) (boot_covered .network stored) es
    exact h.increasing
  · intro hrun
    have h : Covered .tclk (Run.run Device.step (boot stored) es) :=
      Run.run_induct (I := Covered .tclk) (fun d e h he => step_covered h fun _ => he) (boot_covered .tclk stored) hrun
    exact h.increasing

/-- The join of a centralised network, each step over a freshly opened record. -/
def joinCentralizedEvents (n : NetworkSecurityState) (t : TrustCenterLinkKeyState) : List Device.Event :=
  [.openCommissioning, .reserveNetworkSecurity .done n, .openCommissioning, .reserveTrustCenterLinkKey .done t,
    .openCommissioning, .commitNetwork .done t]

def joinDistributedEvents (n : NetworkSecurityState) : List Device.Event :=
  [.openCommissioning, .reserveNetworkSecurity .done n, .commitDistributedNetwork .done]

def leaveEvents : List Device.Event := [.reboot, .rewrite .done .factoryReset]

/-- The network of `nextNetwork` under distributed security. -/
def distributedNetwork : NetworkSecurityState :=
  { nextNetwork with
    trustCenterAddress := onesAddress
    nodeJoinLinkKeyType := .distributedSecurityGlobalLinkKey }

/-- A device that joins, leaves and joins again. -/
theorem rejoined_ranges : Increasing
    (Run.run Device.step (boot none)
      (joinCentralizedEvents nextNetwork nextKey ++ leaveEvents ++ joinCentralizedEvents nextNetwork nextKey)).tclkRanges :=
  (counter_ranges_increase none _).2 (by decide)

/-- The device that joins a distributed network in between gets the first range twice. -/
theorem link_key_range_repeats :
    let d := Run.run Device.step (boot none) (joinCentralizedEvents nextNetwork nextKey ++ leaveEvents ++
      joinDistributedEvents distributedNetwork ++ leaveEvents ++ joinCentralizedEvents nextNetwork nextKey)
    d.tclkRanges = [⟨0, 0x400⟩, ⟨0, 0x400⟩] ∧ ¬ Increasing d.tclkRanges := by
  have hranges : (Run.run Device.step (boot none) (joinCentralizedEvents nextNetwork nextKey ++ leaveEvents ++
      joinDistributedEvents distributedNetwork ++ leaveEvents ++
      joinCentralizedEvents nextNetwork nextKey)).tclkRanges = [⟨0, 0x400⟩, ⟨0, 0x400⟩] := by decide
  refine ⟨hranges, fun h => ?_⟩
  have hincreasing := h.increasing
  rw [hranges] at hincreasing
  exact absurd hincreasing (by decide)

end Zigbee.Runtime
