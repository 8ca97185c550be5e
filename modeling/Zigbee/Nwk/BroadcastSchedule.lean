import Mathlib.Algebra.Order.Group.Multiset
import Mathlib.Tactic.Abel
import Zigbee.Nwk.RouteDiscovery

/-!
# The broadcast schedule loses no unsent broadcast

Relays, the broadcasts of this router and the forwards of Route Requests share the four entries of the
schedule.  An entry counts as transmitted from the first call of the MAC on, whatever the MAC answers.

* `waiting` — the broadcasts that are yet to be handed to the MAC.
* `schedule_spec` — what scheduling does: only a broadcast that counts as transmitted is displaced.
* `ScheduleOp` — the steps, with what each accepts, hands to the MAC and discards.
* `broadcast_schedule` — over every run what is accepted is handed over, discarded for a cheaper copy, or
  waits; and forwards leave an entry for a relay.
* `unsent_broadcast_kept` — **over every run in which first transmissions succeed** only a broadcast that has
  been on air is displaced.
* `refused_relay_displaced` — an entry whose first transmission the MAC refused is displaced.
-/

namespace Zigbee.Nwk

open Run NwkLayer

namespace BroadcastTxTable

/-- `unsent_route_requests` -/
def unsentRouteRequests (t : BroadcastTxTable) : Nat := t.countP fun e => e.rreq && !e.sent

end BroadcastTxTable

open BroadcastTxTable

/-- A broadcast without what has been heard of it. -/
def PendingBroadcast.core (e : PendingBroadcast) : PendingBroadcast := { e with heard := [] }

open PendingBroadcast

/-- The broadcasts that are yet to be handed to the MAC. -/
def waiting (t : BroadcastTxTable) : Multiset PendingBroadcast := ((t.filter fun e => !e.sent).map core : List _)

/-- What an entry adds to them. -/
def PendingBroadcast.waits (e : PendingBroadcast) : Multiset PendingBroadcast := if e.sent then 0 else {e.core}

section

variable {t t' : BroadcastTxTable} {e e' p : PendingBroadcast} {i : Nat}

theorem waiting_perm (h : t.Perm t') : waiting t = waiting t' :=
  Multiset.coe_eq_coe.mpr ((h.filter _).map _)

theorem waiting_cons (e : PendingBroadcast) (t : BroadcastTxTable) : waiting (e :: t) = e.waits + waiting t := by
  unfold waiting waits
  cases he : e.sent with
  | true => rw [List.filter_cons_of_neg (by simp [he]), if_pos rfl, zero_add]
  | false =>
    rw [List.filter_cons_of_pos (by simp [he]), if_neg Bool.false_ne_true, List.map_cons, ← Multiset.cons_coe,
      Multiset.singleton_add]

theorem waiting_snoc (t : BroadcastTxTable) (e : PendingBroadcast) : waiting (t ++ [e]) = waiting t + e.waits := by
  rw [waiting_perm (List.perm_append_singleton e t), waiting_cons, add_comm]

/-- An entry is taken out. -/
theorem waiting_swapRemove (hi : t[i]? = some e) : waiting t = e.waits + waiting (Table.swapRemove t i) := by
  obtain ⟨hlt, rfl⟩ := List.getElem?_eq_some_iff.mp hi
  rw [← waiting_cons]
  exact waiting_perm ((List.getElem_cons_eraseIdx_perm hlt).symm.trans ((Table.swapRemove_perm hlt).symm.cons _))

/-- An entry is changed. -/
theorem waiting_set (hi : t[i]? = some e) (e' : PendingBroadcast) : e'.waits + waiting t = e.waits + waiting (t.set i e') := by
  obtain ⟨hlt, rfl⟩ := List.getElem?_eq_some_iff.mp hi
  rw [waiting_perm (List.set_perm_cons_eraseIdx hlt e'), waiting_cons,
    waiting_perm (List.getElem_cons_eraseIdx_perm hlt).symm, waiting_cons]
  abel

theorem card_waiting (t : BroadcastTxTable) : Multiset.card (waiting t) = t.unsent := by
  unfold waiting BroadcastTxTable.unsent
  rw [Multiset.coe_card, List.length_map, List.countP_eq_length_filter]

theorem unsentRouteRequests_eq (t : BroadcastTxTable) : t.unsentRouteRequests = (waiting t).countP (·.rreq = true) := by
  unfold waiting unsentRouteRequests
  rw [Multiset.coe_countP, List.countP_map, List.countP_filter]
  congr 1
  funext e
  simp [core]

/-- Only unsent broadcasts make the schedule refuse one. -/
theorem canSchedule_iff (hlen : t.length ≤ MAX_PENDING_BROADCASTS) : t.canSchedule = true ↔ t.unsent < MAX_PENDING_BROADCASTS := by
  unfold canSchedule isFull unsent
  have hle := List.countP_le_length (p := fun e : PendingBroadcast => !e.sent) (l := t)
  rw [Bool.or_eq_true, Bool.not_eq_true', beq_eq_false_iff_ne, List.any_eq_true]
  constructor
  · rintro (hroom | ⟨e, he, hsent⟩)
    · omega
    · have hne : t.countP (fun e => !e.sent) ≠ t.length := by
        intro hall
        have hunsent := List.countP_eq_length.mp hall e he
        rw [hsent] at hunsent
        cases hunsent
      omega
  · intro hunsent
    by_cases hfull : t.length = MAX_PENDING_BROADCASTS
    · right
      by_contra hnone
      have hall : t.countP (fun e => !e.sent) = t.length :=
        List.countP_eq_length.mpr fun e he => by simpa using fun hsent => hnone ⟨e, he, hsent⟩
      omega
    · exact Or.inl hfull

/-! ## Scheduling -/

theorem victim_sent {t : BroadcastTxTable} (h : t.victim = some i) : ∃ e, t[i]? = some e ∧ e.sent = true := by
  unfold victim at h
  cases hordinary : t.findIdx? (fun e => e.sent && !e.rreq) with
  | some j =>
    rw [hordinary] at h
    obtain rfl : j = i := Option.some.inj h
    obtain ⟨e, hget, he⟩ := Table.getElem?_of_findIdx? hordinary
    rw [Bool.and_eq_true] at he
    exact ⟨e, hget, he.1⟩
  | none =>
    rw [hordinary] at h
    exact Table.getElem?_of_findIdx? h

theorem victim_none {t : BroadcastTxTable} (h : t.victim = none) : ∀ e ∈ t, e.sent = false := by
  unfold victim at h
  rw [Option.or_eq_none_iff] at h
  exact List.findIdx?_eq_none_iff.mp h.2

/-- **What scheduling does.**  A broadcast that has not been transmitted takes a free entry or that of a transmitted
    one, and one that has been transmitted takes a free entry. -/
theorem schedule_spec (hlen : t.length ≤ MAX_PENDING_BROADCASTS) (p : PendingBroadcast) :
    ∃ t₀ : BroadcastTxTable, waiting t₀ = waiting t ∧ (∀ e ∈ t, e.sent = false → e ∈ t₀) ∧ (p.sent = true → t₀ = t) ∧
      t₀.length ≤ t.length ∧
      ((t.schedule p = (t₀ ++ [p], true) ∧ t₀.length < MAX_PENDING_BROADCASTS ∧ (p.sent = false → t.canSchedule = true)) ∨
        (t.schedule p = (t, false) ∧ (p.sent = false → t.canSchedule = false))) := by
  unfold schedule
  by_cases hdisplaces : (t.isFull && !p.sent) = true
  · rw [if_pos hdisplaces]
    rw [Bool.and_eq_true, Bool.not_eq_true'] at hdisplaces
    have hfull : t.length = MAX_PENDING_BROADCASTS := by simpa [isFull] using hdisplaces.1
    have hsent : p.sent ≠ true := by simp [hdisplaces.2]
    cases hvictim : t.victim with
    | none =>
      have hunsent := victim_none hvictim
      refine ⟨t, rfl, fun e he _ => he, fun _ => rfl, Nat.le_refl _, Or.inr ⟨?_, fun _ => ?_⟩⟩
      · dsimp only
        rw [if_neg (by omega)]
      · unfold canSchedule
        rw [hdisplaces.1, Bool.not_true, Bool.false_or, List.any_eq_false]
        exact fun e he => by rw [hunsent e he]; exact Bool.false_ne_true
    | some i =>
      obtain ⟨e, hget, hesent⟩ := victim_sent hvictim
      obtain ⟨hi, heq⟩ := List.getElem?_eq_some_iff.mp hget
      have hshorter := Table.length_swapRemove hi
      refine ⟨Table.swapRemove t i, ?_, ?_, fun h => absurd h hsent, by omega, Or.inl ⟨?_, by omega, fun _ => ?_⟩⟩
      · rw [waiting_swapRemove hget, waits, if_pos hesent, zero_add]
      · intro x hx hxsent
        have hperm := (List.getElem_cons_eraseIdx_perm hi).symm.trans ((Table.swapRemove_perm hi).symm.cons _)
        rcases List.mem_cons.mp (hperm.mem_iff.mp hx) with rfl | hrest
        · rw [heq, hesent] at hxsent
          cases hxsent
        · exact hrest
      · dsimp only
        rw [if_pos (by omega)]
      · unfold canSchedule
        rw [Bool.or_eq_true, List.any_eq_true]
        exact Or.inr ⟨e, List.mem_of_getElem? hget, hesent⟩
  · rw [if_neg hdisplaces]
    rw [Bool.and_eq_true, Bool.not_eq_true'] at hdisplaces
    refine ⟨t, rfl, fun e he _ => he, fun _ => rfl, Nat.le_refl _, ?_⟩
    dsimp only
    by_cases hroom : t.length < MAX_PENDING_BROADCASTS
    · rw [if_pos hroom]
      refine Or.inl ⟨rfl, hroom, fun _ => ?_⟩
      unfold canSchedule isFull
      rw [Bool.or_eq_true, Bool.not_eq_true', beq_eq_false_iff_ne]
      exact Or.inl (Nat.ne_of_lt hroom)
    · rw [if_neg hroom]
      refine Or.inr ⟨rfl, fun hsent => ?_⟩
      exact absurd ⟨by simpa [isFull] using (show t.length = MAX_PENDING_BROADCASTS by omega), hsent⟩ hdisplaces

/-- A schedule call of the layer, in terms of what waits. -/
theorem scheduleBroadcast_spec {s s' : NwkLayer} {result : Except NwkStatus Unit} (hlen : s.broadcastTx.length ≤ MAX_PENDING_BROADCASTS)
    (h : s.scheduleBroadcast p = (s', result)) :
    s'.broadcastTx.length ≤ MAX_PENDING_BROADCASTS ∧
      ((result = .ok () ∧ s'.broadcastTx.getLast? = some p ∧ waiting s'.broadcastTx = waiting s.broadcastTx + p.waits) ∨
        (result = .error .routeError ∧ waiting s'.broadcastTx = waiting s.broadcastTx)) := by
  obtain ⟨t₀, hwaiting, -, -, -, ⟨heq, hroom, -⟩ | ⟨heq, -⟩⟩ := schedule_spec hlen p
  · unfold scheduleBroadcast at h
    rw [heq] at h
    obtain ⟨rfl, rfl⟩ := Prod.mk.inj h
    refine ⟨?_, Or.inl ⟨rfl, List.getLast?_concat, ?_⟩⟩
    · rw [List.length_append]
      exact hroom
    · rw [← hwaiting]
      exact waiting_snoc _ _
  · unfold scheduleBroadcast at h
    rw [heq] at h
    obtain ⟨rfl, rfl⟩ := Prod.mk.inj h
    exact ⟨hlen, Or.inr ⟨rfl, rfl⟩⟩

end

/-! ## Steps -/

inductive ScheduleOp where
  /-- A schedule call of a broadcast that has not been sent. -/
  | schedule (src : ShortAddress) (seq : UInt8) (frame : NwkFrame) (retriesLeft : UInt8) (deadlineUs : UInt32)
      (heard : List ShortAddress)
  /-- A broadcast that this router sends itself, and keeps if the MAC has taken it. -/
  | own (src : ShortAddress) (seq : UInt8) (frame : NwkFrame) (radius : UInt8) (now : UInt32)
      (allHeard : List ShortAddress → Bool) (outcome : MacOutcome)
  | relay (header : NwkHeader) (payload : List UInt8) (previousHop : ShortAddress) (now : UInt32) (aes : Bool)
  | forwards (readings : List (UInt32 × Bool))
  | service (readings : List ServiceReading)
  | noteRelay (src : ShortAddress) (seq : UInt8) (hop : ShortAddress) (allHeard : List ShortAddress → Bool)
  /-- A copy of a Route Request for the queue of forwards. -/
  | routeRequest (header : NwkHeader) (rreq : RouteRequest) (pathCost : UInt8) (improves : Bool)

/-- The entry that a successful schedule call has put at the end. -/
def scheduledLast : NwkLayer × Except NwkStatus Unit → List PendingBroadcast
  | (s, .ok _) => s.broadcastTx.getLast?.toList
  | (_, .error _) => []

/-- What one pass of the loop over the forwards schedules. -/
def forwarded (s : NwkLayer) (r : UInt32 × Bool) : List PendingBroadcast :=
  if s.broadcastTx.canScheduleRouteRequest then
    match s.pendingRreqForwards.getLast? with
    | none => []
    | some pending => scheduledLast
        (scheduleRouteRequestForward { s with pendingRreqForwards := s.pendingRreqForwards.dropLast } pending r.1 r.2)
  else []

/-- The broadcast that one pass of the service loop hands to the MAC for the first time, and what came of it. -/
def firstHanded (p : NwkLayer × Nat) (r : ServiceReading) : List (PendingBroadcast × MacOutcome) :=
  match p.1.broadcastTx[p.2]? with
  | none => []
  | some e => if notDue r.now e.deadlineUs || e.sent then [] else [(e, r.outcome)]

/-- The unsent forward that a cheaper copy of its request takes the place of. -/
def discardedForward (s : NwkLayer) (header : NwkHeader) (rreq : RouteRequest) (pathCost : UInt8) (improves : Bool) :
    List PendingBroadcast :=
  if (s.queueRreqForward header rreq pathCost improves).broadcastTx.length < s.broadcastTx.length then
    (s.broadcastTx.find? fun e => e.rreq && e.src == header.srcAddr && e.seq == header.seqNumber).toList.filter fun e => !e.sent
  else []

namespace ScheduleOp

def step (s : NwkLayer) : ScheduleOp → NwkLayer
  | .schedule src seq frame retriesLeft deadlineUs heard =>
    (s.scheduleBroadcast ⟨src, seq, frame, retriesLeft, deadlineUs, false, false, 0, heard⟩).1
  | .own src seq frame radius now allHeard outcome =>
    let s := s.transmit frame ShortAddress.BROADCAST outcome
    if outcome.isOk then s.trackBroadcast src seq frame radius now allHeard else s
  | .relay header payload previousHop now aes => (s.relayBroadcast header payload previousHop now aes).1
  | .forwards readings => s.scheduleForwards readings
  | .service readings => s.serviceBroadcastTx readings
  | .noteRelay src seq hop allHeard => s.noteBroadcastRelay src seq hop allHeard
  | .routeRequest header rreq pathCost improves => s.queueRreqForward header rreq pathCost improves

/-- The unsent broadcasts that the schedule takes. -/
def accepted (s : NwkLayer) : ScheduleOp → List PendingBroadcast
  | .schedule src seq frame retriesLeft deadlineUs heard =>
    scheduledLast (s.scheduleBroadcast ⟨src, seq, frame, retriesLeft, deadlineUs, false, false, 0, heard⟩)
  | .relay header payload previousHop now aes =>
    -- a frame at the end of its radius is not relayed
    if header.radius ≤ 1 then [] else scheduledLast (s.relayBroadcast header payload previousHop now aes)
  | .forwards readings => (outputs (fun s r => (s.forwardIter r, forwarded s r)) s readings).flatten
  | .own .. | .service _ | .noteRelay .. | .routeRequest .. => []

/-- The broadcasts that are handed to the MAC for the first time. -/
def handed (s : NwkLayer) : ScheduleOp → List (PendingBroadcast × MacOutcome)
  | .service readings => (outputs (fun p r => (serviceIter p r, firstHanded p r)) (s, 0) readings).flatten
  | _ => []

/-- The unsent forwards that are discarded. -/
def discarded (s : NwkLayer) : ScheduleOp → List PendingBroadcast
  | .routeRequest header rreq pathCost improves => discardedForward s header rreq pathCost improves
  | _ => []

end ScheduleOp

/-! ## What a step does to those that wait -/

/-- The schedule has its length, and forwards leave an entry. -/
structure Scheduled (s : NwkLayer) : Prop where
  length : s.broadcastTx.length ≤ MAX_PENDING_BROADCASTS
  forwards : s.broadcastTx.unsentRouteRequests < MAX_PENDING_BROADCASTS

/-- Broadcasts, as a step returns them. -/
def cores (l : List PendingBroadcast) : Multiset PendingBroadcast := (l.map core : List _)

@[simp] theorem cores_nil : cores [] = 0 := rfl

@[simp] theorem cores_append (l l' : List PendingBroadcast) : cores (l ++ l') = cores l + cores l' := by
  unfold cores
  rw [List.map_append, Multiset.coe_add]

open ScheduleOp

section

variable {s s' : NwkLayer}

theorem buildNwkFrame_tx {header : NwkHeader} {payload : List UInt8} {aes : Bool} {result : Except NwkStatus NwkFrame}
    (h : s.buildNwkFrame header payload aes = (s', result)) : s'.broadcastTx = s.broadcastTx := by
  rcases buildNwkFrame_cases h with ⟨rfl, -⟩ | ⟨-, rfl, -⟩
  · rfl
  · rfl

theorem transmit_tx (s : NwkLayer) (frame : NwkFrame) (hop : ShortAddress) (outcome : MacOutcome) :
    (s.transmit frame hop outcome).broadcastTx = s.broadcastTx := by
  unfold NwkLayer.transmit
  split <;> rfl

/-- A broadcast that has been sent is kept without a change to those that wait. -/
theorem trackBroadcast_spec (hlen : s.broadcastTx.length ≤ MAX_PENDING_BROADCASTS) (src : ShortAddress) (seq : UInt8)
    (frame : NwkFrame) (radius : UInt8) (now : UInt32) (allHeard : List ShortAddress → Bool) :
    (s.trackBroadcast src seq frame radius now allHeard).broadcastTx.length ≤ MAX_PENDING_BROADCASTS ∧
      waiting (s.trackBroadcast src seq frame radius now allHeard).broadcastTx = waiting s.broadcastTx := by
  unfold trackBroadcast
  split
  · obtain ⟨hlen', ⟨-, -, hwaiting⟩ | ⟨-, hwaiting⟩⟩ := scheduleBroadcast_spec hlen Prod.mk.eta.symm
    · exact ⟨hlen', by rw [hwaiting, waits, if_pos rfl, add_zero]⟩
    · exact ⟨hlen', hwaiting⟩
  · exact ⟨hlen, rfl⟩

/-- A forward is built and scheduled, or fails. -/
theorem scheduleRouteRequestForward_cases (s : NwkLayer) (q : QueuedRreqForward) (now : UInt32) (aes : Bool) :
    (∃ (s' : NwkLayer) (status : NwkStatus), s.scheduleRouteRequestForward q now aes = (s', .error status) ∧ s'.broadcastTx = s.broadcastTx) ∨
      ∃ (s' : NwkLayer) (p : PendingBroadcast), p.sent = false ∧ s'.broadcastTx = s.broadcastTx ∧
        s.scheduleRouteRequestForward q now aes = s'.scheduleBroadcast p := by
  unfold scheduleRouteRequestForward
  split
  · exact Or.inl ⟨s, _, rfl, rfl⟩
  · dsimp only
    split
    · rename_i hbuild
      exact Or.inl ⟨_, _, rfl, buildNwkFrame_tx hbuild⟩
    · rename_i hbuild
      exact Or.inr ⟨_, _, rfl, buildNwkFrame_tx hbuild, rfl⟩

/-- A relay is built and scheduled, or the schedule stays as it is. -/
theorem relayBroadcast_cases (s : NwkLayer) (header : NwkHeader) (payload : List UInt8) (previousHop : ShortAddress) (now : UInt32)
    (aes : Bool) :
    ((s.relayBroadcast header payload previousHop now aes).1.broadcastTx = s.broadcastTx ∧
        (header.radius ≤ 1 ∨ ∃ (s' : NwkLayer) (status : NwkStatus), s.relayBroadcast header payload previousHop now aes = (s', .error status))) ∨
      (¬ header.radius ≤ 1 ∧ ∃ (s' : NwkLayer) (p : PendingBroadcast), p.sent = false ∧ p.rreq = false ∧
        s'.broadcastTx = s.broadcastTx ∧ s.relayBroadcast header payload previousHop now aes = s'.scheduleBroadcast p) := by
  have hradius : (if header.radius = 0 then 0 else header.radius - 1) = 0 ↔ header.radius ≤ 1 := by
    rw [UInt8.le_iff_toNat_le]
    split
    · rename_i hzero
      rw [hzero]
      decide
    · rename_i hne
      have hpos : 1 ≤ header.radius := by
        rw [UInt8.le_iff_toNat_le]
        exact Nat.pos_of_ne_zero fun h => hne (UInt8.toNat_inj.mp h)
      rw [← UInt8.toNat_inj, UInt8.toNat_sub_of_le _ _ hpos]
      rw [UInt8.le_iff_toNat_le] at hpos
      show header.radius.toNat - 1 = 0 ↔ header.radius.toNat ≤ 1
      omega
  unfold NwkLayer.relayBroadcast
  dsimp only
  generalize (if header.radius = 0 then 0 else header.radius - 1) = newRadius at hradius ⊢
  split
  · rename_i hzero
    exact Or.inl ⟨rfl, Or.inl (hradius.mp hzero)⟩
  · rename_i hzero
    split
    · exact Or.inl ⟨rfl, Or.inr ⟨_, _, rfl⟩⟩
    · split
      · rename_i hbuild
        exact Or.inl ⟨buildNwkFrame_tx hbuild, Or.inr ⟨_, _, rfl⟩⟩
      · rename_i hbuild
        exact Or.inr ⟨fun h => hzero (hradius.mpr h), _, _, rfl, rfl, buildNwkFrame_tx hbuild, rfl⟩

/-- A schedule call of an unsent broadcast. -/
theorem scheduledLast_spec {p : PendingBroadcast} (hlen : s.broadcastTx.length ≤ MAX_PENDING_BROADCASTS) (hp : p.sent = false) :
    (s.scheduleBroadcast p).1.broadcastTx.length ≤ MAX_PENDING_BROADCASTS ∧
      waiting (s.scheduleBroadcast p).1.broadcastTx = waiting s.broadcastTx + cores (scheduledLast (s.scheduleBroadcast p)) ∧
      (scheduledLast (s.scheduleBroadcast p) = [] ∨ scheduledLast (s.scheduleBroadcast p) = [p]) := by
  cases hcall : s.scheduleBroadcast p with
  | mk s' result =>
    obtain ⟨hlen', ⟨rfl, hlast, hwaiting⟩ | ⟨rfl, hwaiting⟩⟩ := scheduleBroadcast_spec hlen hcall
    · refine ⟨hlen', ?_, Or.inr ?_⟩
      · rw [hwaiting, waits, if_neg (by simp [hp])]
        unfold scheduledLast cores
        dsimp only
        rw [hlast]
        rfl
      · unfold scheduledLast
        dsimp only
        rw [hlast]
        rfl
    · refine ⟨hlen', ?_, Or.inl rfl⟩
      rw [hwaiting]
      exact (add_zero _).symm

/-- **One pass of the loop over the forwards**: at most one is scheduled, and an entry is left. -/
theorem forwardIter_spec (hlen : s.broadcastTx.length ≤ MAX_PENDING_BROADCASTS) (r : UInt32 × Bool) :
    (s.forwardIter r).broadcastTx.length ≤ MAX_PENDING_BROADCASTS ∧
      waiting (s.forwardIter r).broadcastTx = waiting s.broadcastTx + cores (forwarded s r) ∧
      (forwarded s r = [] ∨ ((s.forwardIter r).broadcastTx.unsent < MAX_PENDING_BROADCASTS)) := by
  unfold NwkLayer.forwardIter forwarded
  by_cases hroom : s.broadcastTx.canScheduleRouteRequest = true
  · rw [if_pos hroom, if_pos hroom]
    cases s.pendingRreqForwards.getLast? with
    | none => exact ⟨hlen, (add_zero _).symm, Or.inl rfl⟩
    | some pending =>
      dsimp only
      rcases scheduleRouteRequestForward_cases { s with pendingRreqForwards := s.pendingRreqForwards.dropLast } pending r.1 r.2 with
        ⟨s', status, heq, htx⟩ | ⟨s', p, hp, htx, heq⟩
      · rw [heq]
        dsimp only
        rw [htx]
        exact ⟨hlen, (add_zero _).symm, Or.inl rfl⟩
      · rw [heq]
        obtain ⟨hlen', hwaiting, hlast⟩ := scheduledLast_spec (s := s') (p := p) (by rw [htx]; exact hlen) hp
        rw [htx] at hwaiting
        refine ⟨hlen', hwaiting, hlast.imp_right fun hlast => ?_⟩
        have hcard := congrArg Multiset.card hwaiting
        rw [hlast, Multiset.card_add, card_waiting, card_waiting, show Multiset.card (cores [p]) = 1 from rfl] at hcard
        unfold canScheduleRouteRequest at hroom
        rw [decide_eq_true_eq] at hroom
        dsimp only at hcard
        omega
  · rw [if_neg hroom, if_neg hroom]
    exact ⟨hlen, (add_zero _).symm, Or.inl rfl⟩

theorem scheduleForwards_spec (readings : List (UInt32 × Bool)) (hlen : s.broadcastTx.length ≤ MAX_PENDING_BROADCASTS) :
    (s.scheduleForwards readings).broadcastTx.length ≤ MAX_PENDING_BROADCASTS ∧
      waiting (s.scheduleForwards readings).broadcastTx =
        waiting s.broadcastTx + cores (outputs (fun s r => (s.forwardIter r, forwarded s r)) s readings).flatten ∧
      ((s.scheduleForwards readings).broadcastTx.unsent = s.broadcastTx.unsent ∨
        (s.scheduleForwards readings).broadcastTx.unsent < MAX_PENDING_BROADCASTS) := by
  induction readings generalizing s with
  | nil => exact ⟨hlen, (add_zero _).symm, Or.inl rfl⟩
  | cons r readings ih =>
    obtain ⟨hlen₁, hwaiting₁, hleft₁⟩ := forwardIter_spec hlen r
    obtain ⟨hlen₂, hwaiting₂, hleft₂⟩ := ih hlen₁
    refine ⟨hlen₂, ?_, ?_⟩
    · show waiting ((s.forwardIter r).scheduleForwards readings).broadcastTx = _
      rw [hwaiting₂, hwaiting₁, outputs, List.flatten_cons, cores_append, add_assoc]
    · rcases hleft₂ with hsame | hleft
      · rcases hleft₁ with hnone | hleft
        · left
          rw [hnone, cores_nil, add_zero] at hwaiting₁
          rw [← card_waiting s.broadcastTx, ← hwaiting₁, card_waiting]
          exact hsame
        · right
          exact hsame.trans_lt hleft
      · exact Or.inr hleft

theorem firstHanded_eq {index : Nat} {e : PendingBroadcast} (hget : s.broadcastTx[index]? = some e) (r : ServiceReading) :
    firstHanded (s, index) r = if notDue r.now e.deadlineUs || e.sent then [] else [(e, r.outcome)] := by
  rw [firstHanded, hget]

theorem firstHanded_idle {index : Nat} {r : ServiceReading}
    (h : ∀ e, s.broadcastTx[index]? = some e → notDue r.now e.deadlineUs = true) : firstHanded (s, index) r = [] := by
  cases hget : s.broadcastTx[index]? with
  | none => rw [firstHanded, hget]
  | some e => rw [firstHanded_eq hget, h e hget, Bool.true_or, if_pos rfl]

/-- **One pass of the service loop**: what it sends for the first time no longer waits. -/
theorem serviceIter_spec (index : Nat) (r : ServiceReading) :
    (serviceIter (s, index) r).1.broadcastTx.length ≤ s.broadcastTx.length ∧
      waiting s.broadcastTx =
        cores ((firstHanded (s, index) r).map Prod.fst) + waiting (serviceIter (s, index) r).1.broadcastTx := by
  cases hiter : serviceIter (s, index) r with
  | mk s' index' =>
    rcases serviceIter_cases hiter with
      ⟨rfl, hidle⟩ | ⟨e, hget, hsent, rfl⟩ | ⟨e, e', seq, t, hget, hdue, -, hsent', ht, rfl⟩
    · rw [firstHanded_idle hidle]
      exact ⟨Nat.le_refl _, (zero_add _).symm⟩
    · rw [firstHanded_eq hget, hsent, Bool.or_true, if_pos rfl]
      refine ⟨Table.length_swapRemove_le _ _, ?_⟩
      rw [waiting_swapRemove hget, waits, if_pos hsent]
      rfl
    · obtain ⟨hindex, -⟩ := List.getElem?_eq_some_iff.mp hget
      have hfirst : cores ((firstHanded (s, index) r).map Prod.fst) = e.waits := by
        rw [firstHanded_eq hget, hdue, Bool.false_or, waits]
        split <;> rfl
      have hnone : e'.waits = 0 := if_pos hsent'
      have hset : waiting s.broadcastTx = e.waits + waiting (s.broadcastTx.set index e') := by
        rw [← waiting_set hget e', hnone, zero_add]
      rw [hfirst]
      dsimp only
      rcases ht with rfl | rfl
      · exact ⟨List.length_set.le, hset⟩
      · refine ⟨(Table.length_swapRemove_le _ _).trans List.length_set.le, ?_⟩
        rw [hset, waiting_swapRemove (List.getElem?_set_self hindex), hnone, zero_add]

theorem serviceLoop_spec (readings : List ServiceReading) (index : Nat) :
    (run serviceIter (s, index) readings).1.broadcastTx.length ≤ s.broadcastTx.length ∧
      waiting s.broadcastTx =
        cores ((outputs (fun p r => (serviceIter p r, firstHanded p r)) (s, index) readings).flatten.map Prod.fst) +
          waiting (run serviceIter (s, index) readings).1.broadcastTx := by
  induction readings generalizing s index with
  | nil => exact ⟨Nat.le_refl _, (zero_add _).symm⟩
  | cons r readings ih =>
    obtain ⟨hlen₁, hwaiting₁⟩ := serviceIter_spec (s := s) index r
    cases hiter : serviceIter (s, index) r with
    | mk s₁ index₁ =>
      rw [hiter] at hlen₁ hwaiting₁
      obtain ⟨hlen₂, hwaiting₂⟩ := ih (s := s₁) index₁
      rw [run_cons, hiter, outputs, hiter, List.flatten_cons, List.map_append, cores_append]
      refine ⟨hlen₂.trans hlen₁, ?_⟩
      rw [hwaiting₁, hwaiting₂, add_assoc]

/-- Hearing a broadcast relayed takes out only what has been sent. -/
theorem noteRelay_spec (t : BroadcastTxTable) (src : ShortAddress) (seq : UInt8) (hop : ShortAddress) :
    (t.noteRelay src seq hop).length = t.length ∧ waiting (t.noteRelay src seq hop) = waiting t := by
  unfold BroadcastTxTable.noteRelay
  refine ⟨Table.length_modifyFirst _ _ _, ?_⟩
  rcases Table.modifyFirst_cases (fun e : PendingBroadcast => e.src == src && e.seq == seq) (fun e =>
    if e.heard.contains hop || e.heard.length == MAX_PASSIVE_ACK_NEIGHBORS then e
    else { e with heard := e.heard ++ [hop] }) t with ⟨i, x, hi, -, -, heq⟩ | ⟨-, heq⟩
  · rw [heq]
    have hsame : (if x.heard.contains hop || x.heard.length == MAX_PASSIVE_ACK_NEIGHBORS then x
        else { x with heard := x.heard ++ [hop] }).waits = x.waits := by
      split <;> rfl
    have hset := waiting_set hi (if x.heard.contains hop || x.heard.length == MAX_PASSIVE_ACK_NEIGHBORS then x
      else { x with heard := x.heard ++ [hop] })
    rw [hsame] at hset
    exact (add_left_cancel hset).symm
  · rw [heq]

theorem noteBroadcastRelay_spec (src : ShortAddress) (seq : UInt8) (hop : ShortAddress) (allHeard : List ShortAddress → Bool) :
    (s.noteBroadcastRelay src seq hop allHeard).broadcastTx.length ≤ s.broadcastTx.length ∧
      waiting (s.noteBroadcastRelay src seq hop allHeard).broadcastTx = waiting s.broadcastTx := by
  obtain ⟨hlen, hwaiting⟩ := noteRelay_spec s.broadcastTx src seq hop
  unfold noteBroadcastRelay
  dsimp only
  split
  · exact ⟨hlen.le, hwaiting⟩
  · rename_i i hfind
    split
    · obtain ⟨e, hget, he⟩ := Table.getElem?_of_findIdx? hfind
      simp only [Bool.and_eq_true] at he
      refine ⟨(Table.length_swapRemove_le _ _).trans hlen.le, ?_⟩
      rw [← hwaiting, waiting_swapRemove hget, waits, if_pos he.1.2, zero_add]
    · exact ⟨hlen.le, hwaiting⟩

theorem queueRreqForward_cases (s : NwkLayer) (header : NwkHeader) (rreq : RouteRequest) (pathCost : UInt8) (improves : Bool) :
    (s.queueRreqForward header rreq pathCost improves).air = s.air ∧
      ((s.queueRreqForward header rreq pathCost improves).broadcastTx = s.broadcastTx ∨
        ∃ i, s.broadcastTx.findIdx? (fun e => e.rreq && e.src == header.srcAddr && e.seq == header.seqNumber) = some i ∧
          (s.queueRreqForward header rreq pathCost improves).broadcastTx = Table.swapRemove s.broadcastTx i) := by
  unfold queueRreqForward
  split
  · exact ⟨rfl, Or.inl rfl⟩
  · split
    · exact ⟨rfl, Or.inl rfl⟩
    · split
      · exact ⟨rfl, Or.inl rfl⟩
      · dsimp only
        split
        · exact ⟨rfl, Or.inl rfl⟩
        · cases hfind : s.broadcastTx.findIdx? fun e => e.rreq && e.src == header.srcAddr && e.seq == header.seqNumber with
          | none => exact ⟨rfl, Or.inl rfl⟩
          | some i => exact ⟨rfl, Or.inr ⟨i, rfl, rfl⟩⟩

/-- A copy of a Route Request takes out at most the forward of that request. -/
theorem queueRreqForward_waiting (header : NwkHeader) (rreq : RouteRequest) (pathCost : UInt8) (improves : Bool) :
    (s.queueRreqForward header rreq pathCost improves).broadcastTx.length ≤ s.broadcastTx.length ∧
      waiting s.broadcastTx = cores (discardedForward s header rreq pathCost improves) +
        waiting (s.queueRreqForward header rreq pathCost improves).broadcastTx := by
  unfold discardedForward
  rcases (queueRreqForward_cases s header rreq pathCost improves).2 with hsame | ⟨i, hfind, htaken⟩
  · rw [hsame, if_neg (Nat.lt_irrefl _)]
    exact ⟨Nat.le_refl _, (zero_add _).symm⟩
  · obtain ⟨e, hget, -⟩ := Table.getElem?_of_findIdx? hfind
    obtain ⟨hi, -⟩ := List.getElem?_eq_some_iff.mp hget
    have hshorter := Table.length_swapRemove hi
    have hfound : s.broadcastTx.find? (fun e => e.rreq && e.src == header.srcAddr && e.seq == header.seqNumber) = some e := by
      rw [List.find?_eq_bind_findIdx?_getElem?, hfind]
      exact hget
    rw [htaken, if_pos (by omega), hfound]
    refine ⟨Table.length_swapRemove_le _ _, ?_⟩
    rw [waiting_swapRemove hget, waits]
    cases he : e.sent with
    | true => simp [he]
    | false => simp [he, cores]

/-- **One step**: what is accepted is handed over, discarded, or waits. -/
theorem ScheduleOp.balance (hlen : s.broadcastTx.length ≤ MAX_PENDING_BROADCASTS) (op : ScheduleOp) :
    (op.step s).broadcastTx.length ≤ MAX_PENDING_BROADCASTS ∧
      waiting s.broadcastTx + cores (op.accepted s) =
        cores ((op.handed s).map Prod.fst) + cores (op.discarded s) + waiting (op.step s).broadcastTx := by
  unfold step accepted handed discarded
  cases op with
  | schedule src seq frame retriesLeft deadlineUs heard =>
    dsimp only
    obtain ⟨hlen', hwaiting, -⟩ := scheduledLast_spec (p := ⟨src, seq, frame, retriesLeft, deadlineUs, false, false, 0, heard⟩)
      hlen rfl
    refine ⟨hlen', ?_⟩
    rw [hwaiting]
    simp
  | own src seq frame radius now allHeard outcome =>
    dsimp only
    rw [← transmit_tx s frame ShortAddress.BROADCAST outcome] at hlen ⊢
    split
    · obtain ⟨hlen', hwaiting⟩ := trackBroadcast_spec hlen src seq frame radius now allHeard
      exact ⟨hlen', by simp [hwaiting]⟩
    · exact ⟨hlen, by simp⟩
  | relay header payload previousHop now aes =>
    dsimp only
    rcases relayBroadcast_cases s header payload previousHop now aes with
      ⟨htx, hdone | ⟨s', status, heq⟩⟩ | ⟨hradius, s', p, hp, -, htx, heq⟩
    · rw [if_pos hdone, htx]
      exact ⟨hlen, by simp⟩
    · rw [htx, heq]
      refine ⟨hlen, ?_⟩
      split <;> simp [scheduledLast]
    · rw [if_neg hradius, heq]
      obtain ⟨hlen', hwaiting, -⟩ := scheduledLast_spec (s := s') (p := p) (by rw [htx]; exact hlen) hp
      refine ⟨hlen', ?_⟩
      rw [hwaiting, htx]
      simp
  | forwards readings =>
    obtain ⟨hlen', hwaiting, -⟩ := scheduleForwards_spec readings hlen
    refine ⟨hlen', ?_⟩
    dsimp only
    rw [hwaiting]
    simp
  | service readings =>
    obtain ⟨hlen', hwaiting⟩ := serviceLoop_spec (s := s) readings 0
    refine ⟨hlen'.trans hlen, ?_⟩
    dsimp only
    rw [cores_nil, add_zero, add_zero]
    exact hwaiting
  | noteRelay src seq hop allHeard =>
    obtain ⟨hlen', hwaiting⟩ := noteBroadcastRelay_spec (s := s) src seq hop allHeard
    refine ⟨hlen'.trans hlen, ?_⟩
    dsimp only
    rw [hwaiting]
    simp
  | routeRequest header rreq pathCost improves =>
    obtain ⟨hlen', hwaiting⟩ := queueRreqForward_waiting (s := s) header rreq pathCost improves
    refine ⟨hlen'.trans hlen, ?_⟩
    show waiting s.broadcastTx + cores [] = cores [] + _ + waiting (s.queueRreqForward header rreq pathCost improves).broadcastTx
    rw [cores_nil, add_zero, zero_add]
    exact hwaiting

/-- What a step accepts is ordinary, unless it forwards requests. -/
theorem ScheduleOp.accepted_ordinary (hlen : s.broadcastTx.length ≤ MAX_PENDING_BROADCASTS) (op : ScheduleOp) :
    (∃ readings, op = .forwards readings) ∨ ∀ e ∈ cores (op.accepted s), e.rreq = false := by
  cases op with
  | schedule src seq frame retriesLeft deadlineUs heard =>
    right
    unfold accepted
    dsimp only
    obtain ⟨-, -, hlast | hlast⟩ := scheduledLast_spec (p := ⟨src, seq, frame, retriesLeft, deadlineUs, false, false, 0, heard⟩)
      hlen rfl
    · rw [hlast]
      simp [cores]
    · rw [hlast]
      simp [cores, core]
  | own => exact Or.inr (by simp [accepted, cores])
  | relay header payload previousHop now aes =>
    right
    unfold accepted
    dsimp only
    rcases relayBroadcast_cases s header payload previousHop now aes with
      ⟨-, hdone | ⟨s', status, heq⟩⟩ | ⟨hradius, s', p, hp, hordinary, htx, heq⟩
    · rw [if_pos hdone]
      simp [cores]
    · rw [heq]
      split <;> simp [scheduledLast, cores]
    · rw [if_neg hradius, heq]
      obtain ⟨-, -, hlast | hlast⟩ := scheduledLast_spec (s := s') (p := p) (by rw [htx]; exact hlen) hp
      · rw [hlast]
        simp [cores]
      · rw [hlast]
        simp [cores, core, hordinary]
  | forwards readings => exact Or.inl ⟨readings, rfl⟩
  | service readings => exact Or.inr (by simp [accepted, cores])
  | noteRelay src seq hop allHeard => exact Or.inr (by simp [accepted, cores])
  | routeRequest header rreq pathCost improves => exact Or.inr (by simp [accepted, cores])

/-- **A step keeps an entry out of the reach of forwards.** -/
theorem Scheduled.step (h : Scheduled s) (op : ScheduleOp) : Scheduled (op.step s) := by
  obtain ⟨hlen', hbalance⟩ := op.balance h.length
  refine ⟨hlen', ?_⟩
  rcases op.accepted_ordinary h.length with ⟨readings, rfl⟩ | hordinary
  · obtain ⟨-, hwaiting, hsame | hleft⟩ := scheduleForwards_spec readings h.length
    · -- nothing has been scheduled
      have hcard := congrArg Multiset.card hwaiting
      rw [Multiset.card_add, card_waiting, card_waiting, hsame] at hcard
      have hnone : cores (outputs (fun s r => (s.forwardIter r, forwarded s r)) s readings).flatten = 0 :=
        Multiset.card_eq_zero.mp (by omega)
      rw [hnone, add_zero] at hwaiting
      show (s.scheduleForwards readings).broadcastTx.unsentRouteRequests < MAX_PENDING_BROADCASTS
      rw [unsentRouteRequests_eq, hwaiting, ← unsentRouteRequests_eq]
      exact h.forwards
    · show (s.scheduleForwards readings).broadcastTx.unsentRouteRequests < MAX_PENDING_BROADCASTS
      rw [unsentRouteRequests_eq]
      refine (Multiset.countP_le_card _ _).trans_lt ?_
      rw [card_waiting]
      exact hleft
  · have hcount := congrArg (Multiset.countP (·.rreq = true)) hbalance
    have hzero : (cores (op.accepted s)).countP (·.rreq = true) = 0 :=
      Multiset.countP_eq_zero.mpr fun e he => by rw [hordinary e he]; exact Bool.false_ne_true
    have hbefore := h.forwards
    rw [unsentRouteRequests_eq] at hbefore ⊢
    simp only [Multiset.countP_add] at hcount
    omega

end

/-! ## On air -/

/-- What counts as transmitted has been on air. -/
def SentOnAir (s : NwkLayer) : Prop := ∀ e ∈ s.broadcastTx, e.sent = true → e.frame ∈ s.air

/-- The MAC puts every broadcast on air that the step hands to it for the first time. -/
def ScheduleOp.FirstOnAir (s : NwkLayer) (op : ScheduleOp) : Prop := ∀ x ∈ op.handed s, x.2.onAir = true

instance (s : NwkLayer) (op : ScheduleOp) : Decidable (op.FirstOnAir s) :=
  inferInstanceAs (Decidable (∀ x ∈ op.handed s, x.2.onAir = true))

/-- What has been on air stays there, and a broadcast comes to count as transmitted by being on air. -/
structure Airs (s s' : NwkLayer) : Prop where
  air : ∀ f ∈ s.air, f ∈ s'.air
  sent : ∀ e ∈ s'.broadcastTx, e.sent = true → e.frame ∈ s'.air ∨ ∃ e' ∈ s.broadcastTx, e'.sent = true ∧ e'.frame = e.frame

section

variable {s s' s'' : NwkLayer} {p : PendingBroadcast}

theorem SentOnAir.airs (h : SentOnAir s) (hairs : Airs s s') : SentOnAir s' := by
  intro e he hsent
  rcases hairs.sent e he hsent with hair | ⟨e', he', hsent', hframe⟩
  · exact hair
  · rw [← hframe]
    exact hairs.air _ (h e' he' hsent')

theorem Airs.of_mem (hair : s'.air = s.air) (htx : ∀ e ∈ s'.broadcastTx, e ∈ s.broadcastTx ∨ e.sent = false) : Airs s s' where
  air f hf := hair ▸ hf
  sent e he hsent := by
    rcases htx e he with he | hunsent
    · exact Or.inr ⟨e, he, hsent, rfl⟩
    · rw [hunsent] at hsent
      cases hsent

theorem Airs.refl (s : NwkLayer) : Airs s s := .of_mem rfl fun _ => Or.inl

theorem Airs.trans (h : Airs s s') (h' : Airs s' s'') : Airs s s'' where
  air f hf := h'.air f (h.air f hf)
  sent e he hsent := by
    rcases h'.sent e he hsent with hair | ⟨e', he', hsent', hframe⟩
    · exact Or.inl hair
    · rw [← hframe]
      exact (h.sent e' he' hsent').imp_left (h'.air _)

theorem Airs.transmit (s : NwkLayer) (frame : NwkFrame) (hop : ShortAddress) (outcome : MacOutcome) :
    Airs s (s.transmit frame hop outcome) := by
  unfold NwkLayer.transmit
  split
  · exact ⟨fun f hf => List.mem_append_left _ hf, fun e he hsent => Or.inr ⟨e, he, hsent, rfl⟩⟩
  · exact .refl s

theorem mem_air_transmit {outcome : MacOutcome} (h : outcome.onAir = true) (s : NwkLayer) (frame : NwkFrame) (hop : ShortAddress) :
    frame ∈ (s.transmit frame hop outcome).air := by
  simp [NwkLayer.transmit, h]

theorem Airs.scheduleBroadcast (s : NwkLayer) (hp : p.sent = true → p.frame ∈ s.air) : Airs s (s.scheduleBroadcast p).1 := by
  rw [scheduleBroadcast_fst]
  refine ⟨fun f hf => hf, fun e he hsent => ?_⟩
  rcases BroadcastTxTable.mem_schedule he with he | rfl
  · exact Or.inr ⟨e, he, hsent, rfl⟩
  · exact Or.inl (hp hsent)

theorem buildNwkFrame_airs {header : NwkHeader} {payload : List UInt8} {aes : Bool} {result : Except NwkStatus NwkFrame}
    (h : s.buildNwkFrame header payload aes = (s', result)) : Airs s s' := by
  rcases buildNwkFrame_cases h with ⟨rfl, -⟩ | ⟨-, rfl, -⟩
  · exact .refl s'
  · exact .of_mem rfl fun _ => Or.inl

theorem Airs.relayBroadcast (s : NwkLayer) (header : NwkHeader) (payload : List UInt8) (previousHop : ShortAddress)
    (now : UInt32) (aes : Bool) : Airs s (s.relayBroadcast header payload previousHop now aes).1 := by
  unfold NwkLayer.relayBroadcast
  dsimp only
  generalize (if header.radius = 0 then 0 else header.radius - 1) = newRadius
  split
  · exact .refl s
  · split
    · exact .refl s
    · split
      · rename_i hbuild
        exact buildNwkFrame_airs hbuild
      · rename_i hbuild
        exact (buildNwkFrame_airs hbuild).trans (.scheduleBroadcast _ fun h => absurd h Bool.false_ne_true)

theorem Airs.forwardIter (s : NwkLayer) (r : UInt32 × Bool) : Airs s (s.forwardIter r) := by
  unfold NwkLayer.forwardIter
  split
  · split
    · exact .refl s
    · rename_i pending _
      have hforward : Airs s (scheduleRouteRequestForward
          { s with pendingRreqForwards := s.pendingRreqForwards.dropLast } pending r.1 r.2).1 := by
        unfold scheduleRouteRequestForward
        split
        · exact .of_mem rfl fun _ => Or.inl
        · dsimp only
          split
          · rename_i hbuild
            have hairs := buildNwkFrame_airs hbuild
            exact ⟨hairs.air, hairs.sent⟩
          · rename_i hbuild
            have hairs := buildNwkFrame_airs hbuild
            exact (Airs.trans ⟨hairs.air, hairs.sent⟩ (.scheduleBroadcast _ fun h => absurd h Bool.false_ne_true))
      exact hforward
  · exact .refl s

/-- **One pass of the service loop** whose first transmission succeeds. -/
theorem serviceIter_airs (index : Nat) (r : ServiceReading)
    (hfirst : ∀ x ∈ firstHanded (s, index) r, x.2.onAir = true) :
    Airs s (serviceIter (s, index) r).1 ∧
      ∀ x ∈ firstHanded (s, index) r, x.1.frame ∈ (serviceIter (s, index) r).1.air := by
  cases hiter : serviceIter (s, index) r with
  | mk s' index' =>
    rcases serviceIter_cases hiter with
      ⟨rfl, hidle⟩ | ⟨e, hget, hsent, rfl⟩ | ⟨e, e', seq, t, hget, hdue, hframe, -, ht, rfl⟩
    · rw [firstHanded_idle hidle]
      exact ⟨.refl s', fun _ hx => absurd hx List.not_mem_nil⟩
    · rw [firstHanded_eq hget, hsent, Bool.or_true, if_pos rfl]
      exact ⟨.of_mem rfl fun x hx => Or.inl (Table.mem_of_mem_swapRemove hx), fun _ hx => absurd hx List.not_mem_nil⟩
    · rw [firstHanded_eq hget, hdue, Bool.false_or] at hfirst ⊢
      have htransmit := Airs.transmit s e.frame ShortAddress.BROADCAST r.outcome
      -- The entry counts as transmitted from now on: it did before, or is on air now.
      have hentry : e'.frame ∈ (s.transmit e.frame ShortAddress.BROADCAST r.outcome).air ∨
          ∃ x ∈ s.broadcastTx, x.sent = true ∧ x.frame = e'.frame := by
        cases hsent : e.sent with
        | true => exact Or.inr ⟨e, List.mem_of_getElem? hget, hsent, hframe.symm⟩
        | false =>
          rw [hsent, if_neg Bool.false_ne_true] at hfirst
          exact Or.inl (hframe ▸ mem_air_transmit (hfirst _ List.mem_cons_self) s e.frame _)
      have hset : ∀ x ∈ s.broadcastTx.set index e', x.sent = true →
          x.frame ∈ (s.transmit e.frame ShortAddress.BROADCAST r.outcome).air ∨
            ∃ y ∈ s.broadcastTx, y.sent = true ∧ y.frame = x.frame := by
        intro x hx hsent
        rcases List.mem_or_eq_of_mem_set hx with hx | rfl
        · exact Or.inr ⟨x, hx, hsent, rfl⟩
        · exact hentry
      refine ⟨⟨htransmit.air, fun x hx hsent => ?_⟩, fun x hx => ?_⟩
      · rcases ht with rfl | rfl
        · exact hset x hx hsent
        · exact hset x (Table.mem_of_mem_swapRemove hx) hsent
      · split at hx
        · cases hx
        · rename_i hsent
          rw [if_neg hsent] at hfirst
          obtain rfl := List.mem_singleton.mp hx
          exact mem_air_transmit (hfirst _ List.mem_cons_self) s e.frame _

theorem serviceLoop_airs (readings : List ServiceReading) (index : Nat)
    (hfirst : ∀ x ∈ (outputs (fun p r => (serviceIter p r, firstHanded p r)) (s, index) readings).flatten,
      x.2.onAir = true) :
    Airs s (run serviceIter (s, index) readings).1 ∧
      ∀ x ∈ (outputs (fun p r => (serviceIter p r, firstHanded p r)) (s, index) readings).flatten,
        x.1.frame ∈ (run serviceIter (s, index) readings).1.air := by
  induction readings generalizing s index with
  | nil => exact ⟨.refl s, fun _ hx => absurd hx List.not_mem_nil⟩
  | cons r readings ih =>
    rw [outputs, List.flatten_cons] at hfirst ⊢
    obtain ⟨hfirst₁, hfirst₂⟩ := List.forall_mem_append.mp hfirst
    obtain ⟨hairs₁, hhanded₁⟩ := serviceIter_airs index r hfirst₁
    obtain ⟨hairs₂, hhanded₂⟩ := ih _ hfirst₂
    exact ⟨hairs₁.trans hairs₂, List.forall_mem_append.mpr ⟨fun x hx => hairs₂.air _ (hhanded₁ x hx), hhanded₂⟩⟩

/-- **One step** whose first transmissions succeed. -/
theorem ScheduleOp.airs (op : ScheduleOp) (hfirst : op.FirstOnAir s) :
    Airs s (op.step s) ∧ ∀ x ∈ op.handed s, x.1.frame ∈ (op.step s).air := by
  have hnone : ∀ x ∈ ([] : List (PendingBroadcast × MacOutcome)), x.1.frame ∈ (op.step s).air :=
    fun _ hx => absurd hx List.not_mem_nil
  cases op with
  | schedule src seq frame retriesLeft deadlineUs heard =>
    exact ⟨.scheduleBroadcast s fun h => absurd h Bool.false_ne_true, hnone⟩
  | own src seq frame radius now allHeard outcome =>
    refine ⟨(Airs.transmit s frame ShortAddress.BROADCAST outcome).trans ?_, hnone⟩
    unfold ScheduleOp.step
    dsimp only
    split
    · rename_i hok
      unfold trackBroadcast
      split
      · refine .scheduleBroadcast _ fun _ => mem_air_transmit ?_ s frame _
        cases outcome <;> simp_all [MacOutcome.isOk, MacOutcome.onAir]
      · exact .refl _
    · exact .refl _
  | relay header payload previousHop now aes => exact ⟨.relayBroadcast .., hnone⟩
  | forwards readings =>
    exact ⟨run_invariant (I := Airs s) (fun _ r h => h.trans (.forwardIter _ r)) (.refl s) readings, hnone⟩
  | service readings => exact serviceLoop_airs readings 0 hfirst
  | noteRelay src seq hop allHeard =>
    refine ⟨?_, hnone⟩
    obtain ⟨t, heq, ht⟩ := noteBroadcastRelay_entries s src seq hop allHeard
    unfold ScheduleOp.step
    dsimp only
    rw [heq]
    refine ⟨fun f hf => hf, fun e he hsent => ?_⟩
    obtain ⟨e', he', hframe, hsame⟩ := ht e he
    exact Or.inr ⟨e', he', hsame.symm.trans hsent, hframe.symm⟩
  | routeRequest header rreq pathCost improves =>
    obtain ⟨hair, htx⟩ := queueRreqForward_cases s header rreq pathCost improves
    refine ⟨.of_mem hair fun e he => Or.inl ?_, hnone⟩
    change e ∈ (s.queueRreqForward header rreq pathCost improves).broadcastTx at he
    rcases htx with hsame | ⟨i, -, htaken⟩
    · exact hsame ▸ he
    · exact Table.mem_of_mem_swapRemove (htaken ▸ he)

end

/-! ## Runs -/

/-- What the steps of a run accept, hand to the MAC and discard. -/
def acceptedAlong (s : NwkLayer) (ops : List ScheduleOp) : List PendingBroadcast :=
  (outputs (fun s op => (ScheduleOp.step s op, accepted s op)) s ops).flatten

def handedAlong (s : NwkLayer) (ops : List ScheduleOp) : List (PendingBroadcast × MacOutcome) :=
  (outputs (fun s op => (ScheduleOp.step s op, handed s op)) s ops).flatten

def discardedAlong (s : NwkLayer) (ops : List ScheduleOp) : List PendingBroadcast :=
  (outputs (fun s op => (ScheduleOp.step s op, discarded s op)) s ops).flatten

theorem balance_along {s : NwkLayer} (hlen : s.broadcastTx.length ≤ MAX_PENDING_BROADCASTS) (ops : List ScheduleOp) :
    waiting s.broadcastTx + cores (acceptedAlong s ops) = cores ((handedAlong s ops).map Prod.fst) + cores (discardedAlong s ops) +
      waiting (run ScheduleOp.step s ops).broadcastTx := by
  induction ops generalizing s with
  | nil =>
    show waiting s.broadcastTx + 0 = 0 + 0 + waiting s.broadcastTx
    abel
  | cons op ops ih =>
    obtain ⟨hlen', hbalance⟩ := op.balance hlen
    have hrest := ih hlen'
    have haccepted : acceptedAlong s (op :: ops) = op.accepted s ++ acceptedAlong (op.step s) ops := rfl
    have hhanded : handedAlong s (op :: ops) = op.handed s ++ handedAlong (op.step s) ops := rfl
    have hdiscarded : discardedAlong s (op :: ops) = op.discarded s ++ discardedAlong (op.step s) ops := rfl
    rw [haccepted, hhanded, hdiscarded, List.map_append, cores_append, cores_append, cores_append, run_cons, ← add_assoc,
      hbalance, add_assoc, hrest]
    abel

theorem airs_along {s : NwkLayer} {ops : List ScheduleOp}
    (hfirst : Along ScheduleOp.step (fun s op => op.FirstOnAir s) s ops) :
    Airs s (run ScheduleOp.step s ops) ∧ ∀ x ∈ handedAlong s ops, x.1.frame ∈ (run ScheduleOp.step s ops).air := by
  induction ops generalizing s with
  | nil => exact ⟨.refl s, fun _ hx => absurd hx List.not_mem_nil⟩
  | cons op ops ih =>
    obtain ⟨hairs₁, hhanded₁⟩ := op.airs hfirst.1
    obtain ⟨hairs₂, hhanded₂⟩ := ih hfirst.2
    have hhanded : handedAlong s (op :: ops) = op.handed s ++ handedAlong (op.step s) ops := rfl
    rw [hhanded]
    exact ⟨hairs₁.trans hairs₂, List.forall_mem_append.mpr ⟨fun x hx => hairs₂.air _ (hhanded₁ x hx), hhanded₂⟩⟩

/-- **The broadcast schedule**, over every run from an empty one.  What it accepts is handed to the MAC, discarded for a
    cheaper copy of the same request, or waits; it accepts what it can without displacing what waits; and the forwards of
    Route Requests leave an entry for a relay. -/
theorem broadcast_schedule (start : NwkLayer) (ops : List ScheduleOp) :
    let s := { start with broadcastTx := [] }
    let t := (run ScheduleOp.step s ops).broadcastTx
    cores (acceptedAlong s ops) = cores ((handedAlong s ops).map Prod.fst) + cores (discardedAlong s ops) + waiting t ∧
      (∀ p : PendingBroadcast, p.sent = false →
        (t.schedule p).2 = t.canSchedule ∧ ∀ e ∈ t, e.sent = false → e ∈ (t.schedule p).1) ∧
      (∀ p : PendingBroadcast, p.sent = true → (t.schedule p).1 = t ∨ (t.schedule p).1 = t ++ [p]) ∧
      t.unsentRouteRequests < MAX_PENDING_BROADCASTS ∧
      ∀ readings, t.canSchedule = true → ((run ScheduleOp.step s ops).scheduleForwards readings).broadcastTx.canSchedule = true := by
  intro s t
  have hempty : Scheduled s := ⟨Nat.zero_le _, Nat.zero_lt_succ _⟩
  have hscheduled : Scheduled (run ScheduleOp.step s ops) := run_invariant (fun _ op h => h.step op) hempty ops
  refine ⟨?_, fun p hp => ?_, fun p hp => ?_, hscheduled.forwards, fun readings hroom => ?_⟩
  · have hbalance := balance_along hempty.length ops
    rw [show waiting s.broadcastTx = 0 from rfl, zero_add] at hbalance
    exact hbalance
  · obtain ⟨t₀, -, hkeeps, -, -, ⟨heq, -, hroom⟩ | ⟨heq, hfull⟩⟩ := schedule_spec hscheduled.length p
    · rw [show t.schedule p = _ from heq]
      exact ⟨(hroom hp).symm, fun e he hsent => List.mem_append_left _ (hkeeps e he hsent)⟩
    · rw [show t.schedule p = _ from heq]
      exact ⟨(hfull hp).symm, fun e he _ => he⟩
  · obtain ⟨t₀, -, -, hsame, -, ⟨heq, -, -⟩ | ⟨heq, -⟩⟩ := schedule_spec hscheduled.length p
    · rw [show t.schedule p = _ from heq, hsame hp]
      exact Or.inr rfl
    · rw [show t.schedule p = _ from heq]
      exact Or.inl rfl
  · obtain ⟨hlen', -, hsame | hleft⟩ := scheduleForwards_spec readings hscheduled.length
    · rw [canSchedule_iff hlen', hsame]
      exact (canSchedule_iff hscheduled.length).mp hroom
    · exact (canSchedule_iff hlen').mpr hleft

/-- **The broadcast schedule loses no unsent broadcast while the MAC takes first transmissions.**  In every run in which
    each broadcast goes on air when it is handed to the MAC for the first time, a broadcast that has not been on air is
    displaced by no schedule call: what is accepted goes on air, waits, or is a forward in whose place a cheaper copy of the
    same request is queued. -/
theorem unsent_broadcast_kept {start : NwkLayer} {ops : List ScheduleOp}
    (hfirst : Along ScheduleOp.step (fun s op => op.FirstOnAir s) { start with broadcastTx := [] } ops) :
    let s := { start with broadcastTx := [] }
    let s' := run ScheduleOp.step s ops
    let t := s'.broadcastTx
    (∀ e ∈ t, e.frame ∉ s'.air → ∀ p, e ∈ (t.schedule p).1) ∧
      (∀ x ∈ handedAlong s ops, x.1.frame ∈ s'.air) ∧
      cores (acceptedAlong s ops) = cores ((handedAlong s ops).map Prod.fst) + cores (discardedAlong s ops) + waiting t ∧
      (∀ p : PendingBroadcast, p.sent = false → (t.schedule p).2 = t.canSchedule) ∧
      (∀ p : PendingBroadcast, p.sent = true → (t.schedule p).1 = t ∨ (t.schedule p).1 = t ++ [p]) ∧
      t.unsentRouteRequests < MAX_PENDING_BROADCASTS ∧
      ∀ readings, t.canSchedule = true → (s'.scheduleForwards readings).broadcastTx.canSchedule = true := by
  intro s s' t
  obtain ⟨hbalance, hunsent, hsent, hforwards, hleft⟩ := broadcast_schedule start ops
  obtain ⟨hairs, hhanded⟩ := airs_along hfirst
  have honAir : SentOnAir s' := SentOnAir.airs (s := s) (fun _ he => absurd he List.not_mem_nil) hairs
  refine ⟨fun e he hair p => ?_, hhanded, hbalance, fun p hp => (hunsent p hp).1, hsent, hforwards, hleft⟩
  have hwaits : e.sent = false := by
    rw [← Bool.not_eq_true]
    exact fun h => hair (honAir e he h)
  cases hp : p.sent with
  | false => exact (hunsent p hp).2 e he hwaits
  | true =>
    rcases hsent p hp with heq | heq
    · rw [heq]
      exact he
    · rw [heq]
      exact List.mem_append_left _ he

/-- A data frame to all devices. -/
def broadcastFrame (seq : UInt8) : NwkFrame :=
  ⟨⟨⟨0, 2, 0, false, false, false, false, false, false⟩, 0xFFFF, 0x1234, 5, seq, none, none, none, none⟩, [seq], none⟩

/-- Four relays, and their first transmissions. -/
def fourRelays (outcome : MacOutcome) : List ScheduleOp :=
  ([0, 1, 2, 3].map fun seq => ScheduleOp.schedule 0x1234 seq (broadcastFrame seq) 2 0 []) ++
    [.service (List.replicate 4 ⟨0, outcome, 0, fun _ => false⟩)]

def fifthRelay : PendingBroadcast := ⟨0x1234, 4, broadcastFrame 4, 2, 0, false, false, 0, []⟩

/-- A fifth relay displaces one of four that have been on air, and is displaced by none while it waits. -/
theorem fifth_relay_kept :
    let s := run ScheduleOp.step (plainRouter 0) (fourRelays .confirmed ++ [.schedule 0x1234 4 (broadcastFrame 4) 2 0 []])
    s.broadcastTx.map (·.seq) = [3, 1, 2, 4] ∧ s.air = [0, 1, 2, 3].map broadcastFrame ∧
      ∀ p, fifthRelay ∈ (s.broadcastTx.schedule p).1 := by
  intro s
  have hwaits : s.broadcastTx.getLast? = some fifthRelay := by decide +kernel
  have hair : s.air = [0, 1, 2, 3].map broadcastFrame := by decide +kernel
  obtain ⟨hkept, -⟩ := @unsent_broadcast_kept (plainRouter 0)
    (fourRelays .confirmed ++ [.schedule 0x1234 4 (broadcastFrame 4) 2 0 []]) (by decide +kernel)
  refine ⟨by decide +kernel, hair, fun p => hkept fifthRelay (List.mem_of_getLast? hwaits) ?_ p⟩
  show fifthRelay.frame ∉ s.air
  rw [hair]
  decide

/-- **A transmission that the MAC refuses counts as the first one**: a broadcast that has not been on air is displaced. -/
theorem refused_relay_displaced :
    ¬ ∀ (start : NwkLayer) (ops : List ScheduleOp) (p : PendingBroadcast),
      let s := run ScheduleOp.step { start with broadcastTx := [] } ops
      ∀ e ∈ s.broadcastTx, e.frame ∉ s.air → ∃ e' ∈ (s.broadcastTx.schedule p).1, e'.frame = e.frame := by
  intro hall
  let s := run ScheduleOp.step (plainRouter 0) (fourRelays .failed)
  let p : PendingBroadcast := ⟨0x1234, 9, broadcastFrame 9, 2, 0, false, false, 0, []⟩
  have hair : s.air = [] := by decide +kernel
  have hfirst : s.broadcastTx[0]?.map (·.frame) = some (broadcastFrame 0) := by decide +kernel
  have hgone : ((s.broadcastTx.schedule p).1.all fun e => e.frame != broadcastFrame 0) = true := by decide +kernel
  obtain ⟨e, hget, hframe⟩ := Option.map_eq_some_iff.mp hfirst
  obtain ⟨e', he', hsame⟩ := hall (plainRouter 0) (fourRelays .failed) p e (List.mem_of_getElem? hget) (by
    show e.frame ∉ s.air
    rw [hair]
    exact List.not_mem_nil)
  have hne := List.all_eq_true.mp hgone e' he'
  rw [hsame, hframe] at hne
  exact absurd hne (by decide)

end Zigbee.Nwk
