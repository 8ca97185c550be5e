import Mathlib.Data.List.Chain
import Mathlib.Data.List.Find
import Mathlib.Logic.Relation
import Zigbee.Nwk.RouteDiscovery

/-!
# Many-to-one discovery is loop-free

Routers flood one many-to-one request of a concentrator: each installs the neighbour that a copy came
from as its next hop and forwards the copy with its own cost.  Copies are lost, duplicated and
reordered at will, since any frame that was ever on air may be received at any time.

* `Mesh`, `MeshEvent` — the routers and what may happen among them.
* `Sound` — the invariant: what a router has sent or holds to be sent never costs less than its
  record, and the next hop of a router with a record is the concentrator or has a cheaper record.
* `many_to_one_loop_free` — following next hops, recorded costs fall at every hop, no router is met
  twice, and the concentrator is reached.
-/

namespace Zigbee.Nwk

open Run Table NwkLayer

/-! ## Records -/

variable {e : RreqRecord}

namespace RreqRecordTable

variable {t t' : RreqRecordTable} {originator : ShortAddress} {routeRequestId : UInt8} {sender : ShortAddress}
  {forwardCost : UInt8}

theorem admitEntry_some {e' : RreqRecord} (h : admitEntry e sender forwardCost = some e') :
    e'.forwardCost = forwardCost ∧ forwardCost ≤ e.forwardCost ∧ e'.originator = e.originator ∧
      e'.routeRequestId = e.routeRequestId ∧ e'.active = e.active := by
  unfold admitEntry at h
  split at h
  · cases h
  · rename_i hnot
    have hle : forwardCost ≤ e.forwardCost := UInt8.not_lt.mp hnot
    split at h
    · cases h
      exact ⟨rfl, hle, rfl, rfl, rfl⟩
    · rename_i hge
      have heq : e.forwardCost = forwardCost := UInt8.le_antisymm (UInt8.not_lt.mp hge) hle
      split at h
      · cases h
      · split at h
        · cases h
        · cases h
          exact ⟨heq, hle, rfl, rfl, rfl⟩

theorem recordedCost_eq_none : t.recordedCost originator routeRequestId = none ↔
    ∀ e ∈ t, e.isFor originator routeRequestId = false := by
  simp [recordedCost]

/-- An admitted copy is recorded, and is no worse than what was. -/
theorem admit_true (h : t.admitCopy originator routeRequestId sender forwardCost = (t', true)) :
    t'.recordedCost originator routeRequestId = some forwardCost ∧
      ∀ c, t.recordedCost originator routeRequestId = some c → forwardCost ≤ c := by
  unfold admitCopy at h
  cases hf : t.find? (·.isFor originator routeRequestId) with
  | some e =>
    rw [hf] at h
    dsimp only at h
    cases ha : admitEntry e sender forwardCost with
    | none =>
      rw [ha] at h
      cases h
    | some e' =>
      rw [ha] at h
      obtain ⟨rfl, -⟩ := Prod.mk.inj h
      obtain ⟨hcost, hle, ho, hr, hact⟩ := admitEntry_some ha
      have hfor : e'.isFor originator routeRequestId = true := by
        have := List.find?_some hf
        simpa [RreqRecord.isFor, ho, hr, hact] using this
      have hfind : (modifyFirst (·.isFor originator routeRequestId) (fun _ => e') t).find?
          (·.isFor originator routeRequestId) = some e' :=
        (find?_modifyFirst (f := fun _ => e') (fun _ _ => hfor) t).trans (by rw [hf]; rfl)
      refine ⟨?_, ?_⟩
      · rw [recordedCost, hfind]
        exact congrArg some hcost
      · intro c hc
        rw [recordedCost, hf] at hc
        cases hc
        exact hle
  | none =>
    rw [hf] at h
    dsimp only at h
    have hnone : t.recordedCost originator routeRequestId = none := by rw [recordedCost, hf]; rfl
    refine ⟨?_, by rw [hnone]; nofun⟩
    rcases modifyFirst_cases (fun e : RreqRecord => !e.active)
      (fun _ => ⟨originator, routeRequestId, [sender], forwardCost, RREQ_RECORD_LIFETIME_SECS, true⟩) t with
      ⟨i, e, hi, -, -, heq⟩ | ⟨hno, -⟩
    · rw [heq] at h
      obtain ⟨rfl, -⟩ := Prod.mk.inj h
      rw [recordedCost, find?_set_new (recordedCost_eq_none.mp hnone) (List.getElem?_eq_some_iff.mp hi).1
        (by simp [RreqRecord.isFor])]
      rfl
    · have hfull : t.any (!·.active) = false := List.any_eq_false.mpr fun e he => by simpa using hno e he
      rw [hfull] at h
      exact absurd (Prod.mk.inj h).2 (by simp)

theorem admit_false (h : t.admitCopy originator routeRequestId sender forwardCost = (t', false)) : t' = t := by
  unfold admitCopy at h
  split at h
  · split at h
    · cases h
      rfl
    · cases h
  · rcases modifyFirst_cases (fun e : RreqRecord => !e.active)
      (fun _ => ⟨originator, routeRequestId, [sender], forwardCost, RREQ_RECORD_LIFETIME_SECS, true⟩) t with
      ⟨i, e, hi, -, hp, heq⟩ | ⟨-, heq⟩
    · have hfree : t.any (!·.active) = true := List.any_eq_true.mpr ⟨e, List.mem_of_getElem? hi, hp⟩
      rw [hfree] at h
      exact absurd (Prod.mk.inj h).2 (by simp)
    · rw [heq] at h
      exact (Prod.mk.inj h).1.symm

/-- A new record that is taken back leaves none. -/
theorem remove_admit (hnone : t.recordedCost originator routeRequestId = none)
    (h : t.admitCopy originator routeRequestId sender forwardCost = (t', true)) :
    (t'.remove originator routeRequestId).recordedCost originator routeRequestId = none := by
  have hno := recordedCost_eq_none.mp hnone
  have hfind : t.find? (·.isFor originator routeRequestId) = none :=
    List.find?_eq_none.mpr fun e he => by simp [hno e he]
  unfold admitCopy at h
  rw [hfind] at h
  dsimp only at h
  rcases modifyFirst_cases (fun e : RreqRecord => !e.active)
    (fun _ => ⟨originator, routeRequestId, [sender], forwardCost, RREQ_RECORD_LIFETIME_SECS, true⟩) t with
    ⟨i, e, hi, -, -, heq⟩ | ⟨hfull, -⟩
  · rw [heq] at h
    obtain ⟨rfl, -⟩ := Prod.mk.inj h
    rw [remove, modifyFirst_set_new hno (List.getElem?_eq_some_iff.mp hi).1 (by simp [RreqRecord.isFor])]
    refine recordedCost_eq_none.mpr fun y hy => ?_
    rcases List.mem_or_eq_of_mem_set hy with hy | rfl
    · exact hno y hy
    · rfl
  · have hany : t.any (!·.active) = false := List.any_eq_false.mpr fun e he => by simpa using hfull e he
    rw [hany] at h
    exact absurd (Prod.mk.inj h).2 (by simp)

/-- One second of a record. -/
def ageEntry (e : RreqRecord) : RreqRecord :=
  if e.active then { e with expiry := tickExpiry e.expiry, active := tickExpiry e.expiry != 0 } else e

theorem age_eq_map (t : RreqRecordTable) : t.age = t.map ageEntry := rfl

theorem tickExpiry_toNat {expiry : UInt8} (h : 1 < expiry.toNat) : (tickExpiry expiry).toNat = expiry.toNat - 1 := by
  have hne : expiry ≠ 0 := by
    rintro rfl
    simp at h
  have hle : (1 : UInt8) ≤ expiry := by
    rw [UInt8.le_iff_toNat_le]
    exact h.le
  rw [tickExpiry, if_neg hne, UInt8.toNat_sub_of_le _ _ hle]
  rfl

/-- A record that does not expire keeps everything else. -/
theorem ageEntry_live (hactive : e.active = true) (h : 1 < e.expiry.toNat) :
    ageEntry e = { e with expiry := tickExpiry e.expiry } := by
  have hne : tickExpiry e.expiry ≠ 0 := by
    intro h0
    have := tickExpiry_toNat h
    rw [h0, UInt8.toNat_zero] at this
    omega
  simp [ageEntry, hactive, hne]

theorem isFor_ageEntry (hlive : e.isFor originator routeRequestId = true → 1 < e.expiry.toNat) :
    (ageEntry e).isFor originator routeRequestId = e.isFor originator routeRequestId := by
  cases hfor : e.isFor originator routeRequestId with
  | true =>
    have hactive : e.active = true := by
      simp only [RreqRecord.isFor, Bool.and_eq_true] at hfor
      exact hfor.1.1
    rw [ageEntry_live hactive (hlive hfor)]
    exact hfor
  | false =>
    unfold ageEntry
    split
    · rename_i hactive
      simp only [RreqRecord.isFor, hactive, Bool.true_and] at hfor
      simp only [RreqRecord.isFor, Bool.and_assoc, hfor, Bool.and_false]
    · exact hfor

theorem find?_age (hlive : ∀ e ∈ t, e.isFor originator routeRequestId = true → 1 < e.expiry.toNat) :
    t.age.find? (·.isFor originator routeRequestId) =
      (t.find? (·.isFor originator routeRequestId)).map ageEntry := by
  rw [age_eq_map, List.find?_map]
  refine congrArg (Option.map ageEntry) ?_
  exact List.find?_congr fun e he => isFor_ageEntry (hlive e he)

theorem recordedCost_age (hlive : ∀ e ∈ t, e.isFor originator routeRequestId = true → 1 < e.expiry.toNat) :
    t.age.recordedCost originator routeRequestId = t.recordedCost originator routeRequestId := by
  rw [recordedCost, find?_age hlive, recordedCost, Option.map_map]
  refine congrArg (fun f => Option.map f _) (funext fun e => ?_)
  simp only [Function.comp_apply, ageEntry]
  split <;> rfl

/-- Records outlive a time in which none expires. -/
theorem recordedCost_age_iterate (n : Nat)
    (hlive : ∀ e ∈ t, e.isFor originator routeRequestId = true → n < e.expiry.toNat) :
    (age^[n] t).recordedCost originator routeRequestId = t.recordedCost originator routeRequestId := by
  induction n generalizing t with
  | zero => rfl
  | succ n ih =>
    have hone : ∀ e ∈ t, e.isFor originator routeRequestId = true → 1 < e.expiry.toNat := by
      intro e he hfor
      have := hlive e he hfor
      omega
    rw [Function.iterate_succ_apply, ih, recordedCost_age hone]
    intro e' he' hfor
    rw [age_eq_map] at he'
    obtain ⟨e, he, rfl⟩ := List.mem_map.mp he'
    rw [isFor_ageEntry (hone e he)] at hfor
    have hactive : e.active = true := by
      simp only [RreqRecord.isFor, Bool.and_eq_true] at hfor
      exact hfor.1.1
    have hexpiry := tickExpiry_toNat (hone e he hfor)
    have hlt := hlive e he hfor
    rw [ageEntry_live hactive (hone e he hfor)]
    dsimp only
    omega

end RreqRecordTable

/-! ## Copies of the request -/

/-- The Route Request that a frame carries. -/
def NwkFrame.request? (f : NwkFrame) : Option RouteRequest :=
  match f.payload with
  | [] => none
  | cmdId :: payload => if cmdId = NwkCommandId.routeRequest then RouteRequest.parse payload else none

def QueuedRreqForward.request (q : QueuedRreqForward) : RouteRequest :=
  ⟨q.commandOptions, q.routeRequestId, q.rreqDst, q.pathCost, q.rreqDstIeee⟩

def RouteRequest.isManyToOne (r : RouteRequest) : Bool := (ConcentratorType.fromRreqOptions r.commandOptions).isSome

/-- A broadcast of discovery `id` of the concentrator `d`. -/
structure Copy (d : ShortAddress) (id : UInt8) (f : NwkFrame) (rreq : RouteRequest) : Prop where
  src : f.header.srcAddr = d
  request : f.request? = some rreq
  requestId : rreq.routeRequestId = id

/-- A copy that the router has sent, or holds to be sent. -/
inductive Carries (s : NwkLayer) (d : ShortAddress) (id : UInt8) (rreq : RouteRequest) : Prop
  | onAir {f : NwkFrame} (hf : f ∈ s.air) (hcopy : Copy d id f rreq)
  | scheduled {e : PendingBroadcast} (he : e ∈ s.broadcastTx) (hcopy : Copy d id e.frame rreq)
  | queued {q : QueuedRreqForward} (hq : q ∈ s.pendingRreqForwards) (horiginator : q.originator = d)
      (hid : q.routeRequestId = id) (hrequest : q.request = rreq)

/-- The first entry that names the concentrator is a usable many-to-one route of this cost and next hop. -/
def RoutingTable.LeadsTo (t : RoutingTable) (d : ShortAddress) (cost : UInt8) (nextHop : ShortAddress) : Prop :=
  ∃ e, t.routes.find? (·.destination == d) = some e ∧ e.usable d = true ∧ e.manyToOne = true ∧
    e.pathCost = cost ∧ e.nextHop = nextHop

/-- The router has neither learnt of the discovery nor sent more of it. -/
structure Steady (d : ShortAddress) (id : UInt8) (s s' : NwkLayer) : Prop where
  addr : s'.nib.networkAddress = s.nib.networkAddress
  queue : ∀ q ∈ s'.pendingRreqForwards, q ∈ s.pendingRreqForwards
  carries : ∀ rreq, Carries s' d id rreq → Carries s d id rreq
  cost : s'.rreqRecords.recordedCost d id = s.rreqRecords.recordedCost d id
  leads : ∀ c b, s.routing.LeadsTo d c b → s'.routing.LeadsTo d c b

/-- The router has taken `b` for its next hop, at a cost that is no worse than before. -/
structure Improved (d : ShortAddress) (id : UInt8) (s s' : NwkLayer) (cost : UInt8) (b : ShortAddress) : Prop where
  addr : s'.nib.networkAddress = s.nib.networkAddress
  queue : ∀ q ∈ s'.pendingRreqForwards, q ∈ s.pendingRreqForwards ∨ q.request.Consistent
  carries : ∀ rreq, Carries s' d id rreq → Carries s d id rreq ∨ (rreq.isManyToOne = true ∧ rreq.pathCost = cost)
  cost_eq : s'.rreqRecords.recordedCost d id = some cost
  cost_le : ∀ c, s.rreqRecords.recordedCost d id = some c → cost ≤ c
  leads : s'.routing.LeadsTo d cost b

variable {f : NwkFrame} {rreq : RouteRequest} {t : RoutingTable} {c cost : UInt8} {b : ShortAddress} {i : Nat}
   {ct : ConcentratorType}

open RoutingTable

section

variable {d : ShortAddress} {id : UInt8} {s s' s'' : NwkLayer}

theorem Steady.refl (d : ShortAddress) (id : UInt8) (s : NwkLayer) : Steady d id s s :=
  ⟨rfl, fun _ h => h, fun _ h => h, rfl, fun _ _ h => h⟩

theorem Steady.trans (h : Steady d id s s') (h' : Steady d id s' s'') : Steady d id s s'' where
  addr := h'.addr.trans h.addr
  queue := fun q hq => h.queue q (h'.queue q hq)
  carries := fun rreq hc => h.carries rreq (h'.carries rreq hc)
  cost := h'.cost.trans h.cost
  leads := fun c b hl => h'.leads c b (h.leads c b hl)

/-! ## Forwards and their transmission -/

/-- A layer that differs in nothing that the discovery depends on. -/
theorem Steady.of_eq (haddr : s'.nib.networkAddress = s.nib.networkAddress) (hrouting : s'.routing = s.routing)
    (hrecords : s'.rreqRecords = s.rreqRecords) (hqueue : ∀ q ∈ s'.pendingRreqForwards, q ∈ s.pendingRreqForwards)
    (hcarries : ∀ rreq, Carries s' d id rreq → Carries s d id rreq) : Steady d id s s' where
  addr := haddr
  queue := hqueue
  carries := hcarries
  cost := by rw [hrecords]
  leads := fun c b h => by rwa [hrouting]

/-- The frame that a queued request becomes. -/
theorem copy_of_request {q : QueuedRreqForward} (hq : q.request.Consistent) (hsrc : f.header.srcAddr = q.originator)
    (hpayload : f.payload = NwkCommandId.routeRequest :: q.request.serialize) (hcopy : Copy d id f rreq) :
    q.originator = d ∧ q.routeRequestId = id ∧ q.request = rreq := by
  have hreq := hcopy.request
  rw [NwkFrame.request?, hpayload] at hreq
  simp only [if_true, RouteRequest.parse_serialize hq] at hreq
  cases hreq
  exact ⟨hsrc.symm.trans hcopy.src, hcopy.requestId, rfl⟩

theorem scheduleRouteRequestForward_steady {q : QueuedRreqForward} (hqueue : q ∈ s.pendingRreqForwards)
    (hq : q.request.Consistent) (now : UInt32) (aes : Bool) :
    Steady d id s (scheduleRouteRequestForward
      { s with pendingRreqForwards := s.pendingRreqForwards.dropLast } q now aes).1 := by
  have hdrop : ∀ nib : Nib, nib.networkAddress = s.nib.networkAddress →
      Steady d id s { s with pendingRreqForwards := s.pendingRreqForwards.dropLast, nib := nib } := by
    intro nib haddr
    refine .of_eq haddr rfl rfl (fun q hq => List.dropLast_subset _ hq) fun rreq hc => ?_
    cases hc with
    | onAir hf hcopy => exact .onAir hf hcopy
    | scheduled he hcopy => exact .scheduled he hcopy
    | queued hmem ho hid hr => exact .queued (List.dropLast_subset _ hmem) ho hid hr
  unfold scheduleRouteRequestForward
  split
  · exact hdrop s.nib rfl
  · dsimp only
    split
    · rename_i s' status hbuild
      rcases buildNwkFrame_cases hbuild with ⟨rfl, -⟩ | ⟨-, rfl, -⟩
      · exact hdrop s.nib rfl
      · exact hdrop _ rfl
    · rename_i s' frame hbuild
      have hs' : ∃ nib : Nib, nib.networkAddress = s.nib.networkAddress ∧
          s' = { s with pendingRreqForwards := s.pendingRreqForwards.dropLast, nib := nib } ∧
          frame.header.srcAddr = q.originator ∧ frame.payload = NwkCommandId.routeRequest :: q.request.serialize := by
        rcases buildNwkFrame_cases hbuild with ⟨rfl, hf⟩ | ⟨-, rfl, hf⟩
        · rw [hf frame rfl]
          exact ⟨s.nib, rfl, rfl, rfl, rfl⟩
        · rw [hf frame rfl]
          exact ⟨{ s.nib with outgoingFrameCounter := s.nib.outgoingFrameCounter + 1 }, rfl, rfl, rfl, rfl⟩
      obtain ⟨nib, haddr, rfl, hsrc, hpayload⟩ := hs'
      rw [scheduleBroadcast_fst]
      refine .of_eq haddr rfl rfl (fun q hq => List.dropLast_subset _ hq) fun rreq hc => ?_
      cases hc with
      | onAir hf hcopy => exact .onAir hf hcopy
      | queued hmem ho hid hr => exact .queued (List.dropLast_subset _ hmem) ho hid hr
      | scheduled he hcopy =>
        rcases BroadcastTxTable.mem_schedule he with he | rfl
        · exact .scheduled he hcopy
        · obtain ⟨ho, hid, hr⟩ := copy_of_request hq hsrc hpayload hcopy
          exact .queued hqueue ho hid hr

theorem forwardIter_steady (hqueue : ∀ q ∈ s.pendingRreqForwards, q.request.Consistent) (r : UInt32 × Bool) :
    Steady d id s (s.forwardIter r) := by
  unfold forwardIter
  split
  · split
    · exact .refl d id s
    · rename_i q hlast
      have hmem := List.mem_of_getLast? hlast
      exact scheduleRouteRequestForward_steady hmem (hqueue q hmem) r.1 r.2
  · exact .refl d id s

theorem scheduleForwards_steady (hqueue : ∀ q ∈ s.pendingRreqForwards, q.request.Consistent)
    (readings : List (UInt32 × Bool)) : Steady d id s (s.scheduleForwards readings) := by
  refine run_invariant (I := Steady d id s) (fun s' r h => ?_) (.refl d id s) readings
  exact h.trans (forwardIter_steady (fun q hq => hqueue q (h.queue q hq)) r)

/-- The schedule may lose entries and send what it holds. -/
theorem Steady.of_schedule {t : BroadcastTxTable} {air : List NwkFrame} {hops : List ShortAddress} {nib : Nib}
    (haddr : nib.networkAddress = s.nib.networkAddress) (ht : ∀ e ∈ t, ∃ e' ∈ s.broadcastTx, e.frame = e'.frame)
    (hair : ∀ f ∈ air, f ∈ s.air ∨ ∃ e ∈ s.broadcastTx, f = e.frame) :
    Steady d id s { s with nib := nib, broadcastTx := t, air := air, hops := hops } := by
  refine .of_eq haddr rfl rfl (fun q hq => hq) fun rreq hc => ?_
  cases hc with
  | onAir hf hcopy =>
    rcases hair _ hf with hf | ⟨e, he, rfl⟩
    · exact .onAir hf hcopy
    · exact .scheduled he hcopy
  | scheduled he hcopy =>
    obtain ⟨e', he', hframe⟩ := ht _ he
    exact .scheduled he' (hframe ▸ hcopy)
  | queued hmem ho hid hr => exact .queued hmem ho hid hr

theorem transmit_eq (s : NwkLayer) (frame : NwkFrame) (hop : ShortAddress) (outcome : MacOutcome) :
    ∃ air hops, s.transmit frame hop outcome = { s with air := air, hops := hops } ∧
      ∀ f ∈ air, f ∈ s.air ∨ f = frame := by
  unfold transmit
  split
  · exact ⟨_, _, rfl, fun f hf => by simpa using hf⟩
  · exact ⟨s.air, s.hops, rfl, fun f hf => Or.inl hf⟩

theorem serviceIter_steady (p : NwkLayer × Nat) (r : ServiceReading) :
    Steady d id p.1 (serviceIter p r).1 := by
  obtain ⟨s, index⟩ := p
  cases hiter : serviceIter (s, index) r with
  | mk s' index' =>
    rcases serviceIter_cases hiter with ⟨rfl, -⟩ | ⟨e, -, -, rfl⟩ | ⟨e, e', seq, t, hget, -, hframe, -, ht, rfl⟩
    · exact .refl d id _
    · exact .of_schedule rfl (fun e he => ⟨e, mem_of_mem_swapRemove he, rfl⟩) fun f hf => Or.inl hf
    · have hmem := List.mem_of_getElem? hget
      obtain ⟨air, hops, hair, hsub⟩ := transmit_eq s e.frame ShortAddress.BROADCAST r.outcome
      rw [hair]
      exact .of_schedule rfl (sent_frames hmem hframe ht)
        fun f hf => (hsub f hf).imp_right fun hf => ⟨e, hmem, hf⟩

theorem serviceBroadcastTx_steady (s : NwkLayer) (readings : List ServiceReading) :
    Steady d id s (s.serviceBroadcastTx readings) := by
  refine run_invariant (I := fun p : NwkLayer × Nat => Steady d id s p.1) (fun p r h => ?_) (.refl d id s) readings
  exact h.trans (serviceIter_steady p r)

/-! ## Time -/

theorem leadsTo_modifyRoutes {p : RouteEntry → Bool} {f : RouteEntry → RouteEntry}
    (hdest : ∀ e, (f e).destination = e.destination) (hkeep : ∀ e, p e = true → e.usable d = true → e.manyToOne = true →
      (f e).usable d = true ∧ (f e).manyToOne = true ∧ (f e).pathCost = e.pathCost ∧ (f e).nextHop = e.nextHop)
    (h : t.LeadsTo d c b) : (t.modifyRoutes p f).LeadsTo d c b := by
  obtain ⟨e, hfind, husable, hm2o, hcost, hnext⟩ := h
  have hcomp : ((fun e : RouteEntry => e.destination == d) ∘ fun r => if p r then f r else r) =
      fun e => e.destination == d := by
    funext e
    simp only [Function.comp_apply]
    split
    · rw [hdest]
    · rfl
  have hfind' : (t.modifyRoutes p f).routes.find? (·.destination == d) = some (if p e then f e else e) := by
    rw [modifyRoutes, List.find?_map, hcomp, hfind]
    rfl
  refine ⟨_, hfind', ?_⟩
  split
  · obtain ⟨hu, hm, hc, hn⟩ := hkeep e ‹_› husable hm2o
    exact ⟨hu, hm, hc.trans hcost, hn.trans hnext⟩
  · exact ⟨husable, hm2o, hcost, hnext⟩

theorem leadsTo_failRoute {routes : List RouteEntry} {discoveries discoveries' : List RouteDiscovery}
    (destination : ShortAddress) (h : LeadsTo ⟨routes, discoveries⟩ d c b) :
    LeadsTo ⟨failRoute destination routes, discoveries'⟩ d c b := by
  obtain ⟨e, hfind, husable, hrest⟩ := h
  have hactive : e.status = .active := by
    simp only [RouteEntry.usable, Bool.and_eq_true, beq_iff_eq] at husable
    exact husable.2
  exact ⟨e, find?_modifyFirst_of_not (fun _ => rfl) hfind (by simp [hactive]), husable, hrest⟩

theorem tick_leadsTo (elapsedSecs maxAge : UInt16) (h : t.LeadsTo d c b) :
    ((t.ageBy elapsedSecs).expireStale maxAge).LeadsTo d c b := by
  refine leadsTo_modifyRoutes (fun _ => rfl) (fun e hp _ hm2o => ?_)
    (leadsTo_modifyRoutes (fun _ => rfl) (fun e _ hu hm2o => ⟨hu, hm2o, rfl, rfl⟩) h)
  simp [hm2o] at hp

theorem expireDiscoveries_leadsTo (maxAge currentTime : UInt32) (h : t.LeadsTo d c b) :
    (t.expireDiscoveries maxAge currentTime).LeadsTo d c b := by
  unfold expireDiscoveries
  obtain ⟨routes, discoveries⟩ := t
  dsimp only
  generalize discoveries.filter _ = expired
  induction expired generalizing routes with
  | nil => exact h
  | cons x expired ih => exact ih _ (leadsTo_failRoute x.destination h)

theorem tick_steady {elapsedSecs : UInt16} {now : UInt32}
    (hlive : ∀ e ∈ s.rreqRecords, e.isFor d id = true → elapsedSecs.toNat < e.expiry.toNat) :
    Steady d id s (s.tickRouterMaintenance elapsedSecs now) where
  addr := rfl
  queue := fun q hq => hq
  carries := fun rreq hc => by
    cases hc with
    | onAir hf hcopy => exact .onAir hf hcopy
    | scheduled he hcopy => exact .scheduled he hcopy
    | queued hq ho hid hr => exact .queued hq ho hid hr
  cost := RreqRecordTable.recordedCost_age_iterate _ hlive
  leads := fun c b h => by
    have h' := tick_leadsTo elapsedSecs ROUTE_EXPIRY_SECS h
    unfold tickRouterMaintenance
    dsimp only
    split
    · exact expireDiscoveries_leadsTo _ _ h'
    · exact h'

/-! ## Reception -/

theorem linkCostFromLqi_pos (lqi : UInt8) : 0 < (linkCostFromLqi lqi).toNat := by
  unfold linkCostFromLqi
  split
  · decide
  · split
    · decide
    · split
      · decide
      · split <;> decide

theorem Reception.linkCost_pos (r : Reception) : 0 < r.linkCost.toNat := by
  have hlqi := linkCostFromLqi_pos r.lqi
  unfold Reception.linkCost
  split
  · split
    · rename_i cost _ _
      have hmax : max (linkCostFromLqi r.lqi) cost = if linkCostFromLqi r.lqi ≤ cost then cost else linkCostFromLqi r.lqi :=
        rfl
      rw [hmax]
      split
      · rename_i hle
        exact lt_of_lt_of_le hlqi (UInt8.le_iff_toNat_le.mp hle)
      · exact hlqi
    · exact hlqi
  · exact hlqi

theorem toNat_saturatingAdd8 {a b : UInt8} (h : a.toNat + b.toNat < 255) : (saturatingAdd8 a b).toNat = a.toNat + b.toNat := by
  have hlt : a.toNat + b.toNat < 2 ^ 8 := by omega
  rw [saturatingAdd8, if_pos hlt, UInt8.toNat_add, Nat.mod_eq_of_lt hlt]

/-- The queue takes at most the copy that was admitted. -/
theorem queueRreqForward_spec (s : NwkLayer) (header : NwkHeader) (rreq : RouteRequest) (cost : UInt8)
    (improves : Bool) :
    ∃ t queue, s.queueRreqForward header rreq cost improves = { s with broadcastTx := t, pendingRreqForwards := queue } ∧
      (∀ e ∈ t, e ∈ s.broadcastTx) ∧
      ∀ q ∈ queue, q ∈ s.pendingRreqForwards ∨ q.request = { rreq with pathCost := cost } := by
  have hsame : ∃ t queue, s = { s with broadcastTx := t, pendingRreqForwards := queue } ∧
      (∀ e ∈ t, e ∈ s.broadcastTx) ∧
      ∀ q ∈ queue, q ∈ s.pendingRreqForwards ∨ q.request = { rreq with pathCost := cost } :=
    ⟨s.broadcastTx, s.pendingRreqForwards, rfl, fun e he => he, fun q hq => Or.inl hq⟩
  unfold queueRreqForward
  split
  · exact hsame
  · split
    · exact hsame
    · split
      · exact hsame
      · dsimp only
        split
        · exact hsame
        · refine ⟨_, _, rfl, ?_, ?_⟩
          · intro e he
            split at he
            · exact mem_of_mem_swapRemove he
            · exact he
          · intro q hq
            split at hq
            · rcases List.mem_or_eq_of_mem_set hq with hq | rfl
              · exact Or.inl hq
              · exact Or.inr rfl
            · split at hq
              · rcases List.mem_append.mp hq with hq | hq
                · exact Or.inl hq
                · exact Or.inr (by rw [List.mem_singleton.mp hq]; rfl)
              · exact Or.inl hq

theorem oldest_lt {routes : List RouteEntry} {p : RouteEntry → Bool} (h : oldest routes p = some i) :
    i < routes.length := by
  obtain ⟨⟨e, j⟩, hmax, rfl⟩ := Option.map_eq_some_iff.mp h
  have hmem := (List.mem_filter.mp (maxByKey_mem hmax)).1
  exact (List.getElem?_eq_some_iff.mp (List.mem_zipIdx_iff_getElem?.mp hmem)).1

theorem findIdx?_lt {α : Type} {l : List α} {p : α → Bool} (h : l.findIdx? p = some i) : i < l.length :=
  (List.findIdx?_eq_some_iff_getElem.mp h).1

theorem reclaimSlot_lt (h : t.reclaimSlot = some i) : i < t.routes.length := by
  unfold reclaimSlot at h
  rcases Option.or_eq_some_iff.mp h with h | ⟨-, h⟩
  · rcases Option.or_eq_some_iff.mp h with h | ⟨-, h⟩
    · exact findIdx?_lt h
    · exact oldest_lt h
  · rcases Option.or_eq_some_iff.mp h with h | ⟨-, h⟩
    · exact oldest_lt h
    · exact findIdx?_lt h

theorem updateRouteManyToOne_leadsTo {t' : RoutingTable} (h : t.updateRouteManyToOne d b cost ct = (t', true)) :
    t'.LeadsTo d cost b := by
  unfold updateRouteManyToOne at h
  split at h
  · rename_i hany
    obtain ⟨rfl, -⟩ := Prod.mk.inj h
    obtain ⟨x, hx, hxd⟩ := List.any_eq_true.mp hany
    cases hfind : t.routes.find? (·.destination == d) with
    | none => exact absurd hxd (List.find?_eq_none.mp hfind x hx)
    | some e =>
      have hdest := List.find?_some hfind
      refine ⟨e.advertise b cost ct, ?_, ?_, rfl, rfl, rfl⟩
      · exact (find?_modifyFirst (f := (·.advertise b cost ct)) (fun _ h => h) t.routes).trans (by rw [hfind, Option.map_some])
      · simpa [RouteEntry.usable, RouteEntry.isFor, RouteEntry.advertise] using hdest
  · rename_i hany
    have hnone : ∀ e ∈ t.routes, (e.destination == d) = false := by simpa using hany
    unfold install at h
    split at h
    · exact absurd (Prod.mk.inj h).2 (by simp)
    · rename_i i hslot
      obtain ⟨rfl, -⟩ := Prod.mk.inj h
      exact ⟨_, find?_set_new hnone (reclaimSlot_lt hslot) (by simp), by simp [RouteEntry.usable, RouteEntry.isFor], rfl,
        rfl, rfl⟩

theorem updateRouteManyToOne_refused {t' : RoutingTable} (h : t.updateRouteManyToOne d b cost ct = (t', false)) :
    t' = t ∧ ∀ c b, ¬ t.LeadsTo d c b := by
  unfold updateRouteManyToOne at h
  split at h
  · exact absurd (Prod.mk.inj h).2 (by simp)
  · rename_i hany
    have hnone : ∀ e ∈ t.routes, ¬ (e.destination == d) = true := by simpa using hany
    unfold install at h
    split at h
    · refine ⟨(Prod.mk.inj h).1.symm, ?_⟩
      rintro c b ⟨e, hfind, -⟩
      rw [List.find?_eq_none.mpr hnone] at hfind
      cases hfind
    · exact absurd (Prod.mk.inj h).2 (by simp)

/-- What an admitted copy does. -/
theorem handleManyToOne_cases {header : NwkHeader} {improves : Bool} {records : RreqRecordTable} (hsrc : header.srcAddr = d)
    (hid : rreq.routeRequestId = id) (hconsistent : rreq.Consistent) (hm2o : rreq.isManyToOne = true)
    ( hadmit : s.rreqRecords.admitCopy d id b cost = (records, true))
    (hroute : ∀ c, s.rreqRecords.recordedCost d id = some c → ∃ b, s.routing.LeadsTo d c b) :
    Steady d id s (handleManyToOne { s with rreqRecords := records } header rreq ct b cost improves) ∨
      Improved d id s (handleManyToOne { s with rreqRecords := records } header rreq ct b cost improves) cost b := by
  obtain ⟨hcost, hle⟩ := RreqRecordTable.admit_true hadmit
  unfold handleManyToOne
  split
  · rename_i routing hupdate
    rw [hsrc] at hupdate
    obtain ⟨rfl, hno⟩ := updateRouteManyToOne_refused hupdate
    have hnone : s.rreqRecords.recordedCost d id = none := by
      cases hrecord : s.rreqRecords.recordedCost d id with
      | none => rfl
      | some c =>
        obtain ⟨b', hleads⟩ := hroute c hrecord
        exact absurd hleads (hno c b')
    refine Or.inl ⟨rfl, fun q hq => hq, fun rreq hc => ?_, ?_, fun c b h => h⟩
    · cases hc with
      | onAir hf hcopy => exact .onAir hf hcopy
      | scheduled he hcopy => exact .scheduled he hcopy
      | queued hq ho hid hr => exact .queued hq ho hid hr
    · rw [hnone, hsrc, hid]
      exact RreqRecordTable.remove_admit hnone hadmit
  · rename_i routing hupdate
    rw [hsrc] at hupdate
    obtain ⟨t, queue, heq, ht, hqueue⟩ :=
      queueRreqForward_spec { s with rreqRecords := records, routing := routing } header rreq cost improves
    rw [heq]
    refine Or.inr ⟨rfl, ?_, ?_, hcost, hle, updateRouteManyToOne_leadsTo hupdate⟩
    · intro q hq
      exact (hqueue q hq).imp_right fun hr => by rw [hr]; exact hconsistent
    · intro rreq' hc
      cases hc with
      | onAir hf hcopy => exact Or.inl (.onAir hf hcopy)
      | scheduled he hcopy => exact Or.inl (.scheduled (ht _ he) hcopy)
      | queued hq ho hid' hr =>
        rcases hqueue _ hq with hq | hr'
        · exact Or.inl (.queued hq ho hid' hr)
        · rw [← hr, hr']
          exact Or.inr ⟨hm2o, rfl⟩

theorem handleRouteRequest_cases {header : NwkHeader} {payload : List UInt8} (r : Reception) (hsrc : header.srcAddr = d)
    (hparse : RouteRequest.parse payload = some rreq) (hid : rreq.routeRequestId = id) (hm2o : rreq.isManyToOne = true)
    (hroute : ∀ c, s.rreqRecords.recordedCost d id = some c → ∃ b, s.routing.LeadsTo d c b) :
    Steady d id s (s.handleRouteRequest header r payload) ∨
      Improved d id s (s.handleRouteRequest header r payload) (saturatingAdd8 rreq.pathCost r.linkCost) r.prevHop := by
  have hstay := Or.inl (b := Improved d id s s (saturatingAdd8 rreq.pathCost r.linkCost) r.prevHop) (Steady.refl d id s)
  unfold handleRouteRequest
  split
  · exact hstay
  · rw [hparse]
    dsimp only
    split
    · exact hstay
    · split
      · exact hstay
      · rw [hsrc, hid]
        split
        · rename_i records hadmit
          rw [RreqRecordTable.admit_false hadmit]
          exact hstay
        · rename_i records hadmit
          obtain ⟨ct, hct⟩ := Option.isSome_iff_exists.mp hm2o
          rw [hct]
          exact handleManyToOne_cases hsrc hid (RouteRequest.parse_consistent hparse) hm2o hadmit hroute

/-- A copy is ignored, or improves the route. -/
theorem receive_cases (r : Reception) (hcopy : Copy d id f rreq) (hm2o : rreq.isManyToOne = true)
    (hroute : ∀ c, s.rreqRecords.recordedCost d id = some c → ∃ b, s.routing.LeadsTo d c b) :
    Steady d id s (s.receiveRouteRequest f r) ∨
      Improved d id s (s.receiveRouteRequest f r) (saturatingAdd8 rreq.pathCost r.linkCost) r.prevHop := by
  obtain ⟨hsrc, hreq, hid⟩ := hcopy
  unfold receiveRouteRequest
  split
  · exact Or.inl (.refl d id s)
  · unfold NwkFrame.request? at hreq
    cases hpayload : f.payload with
    | nil =>
      rw [hpayload] at hreq
      cases hreq
    | cons cmdId payload =>
      rw [hpayload] at hreq
      simp only at hreq ⊢
      split at hreq
      · rename_i hcmd
        rw [if_pos hcmd]
        exact handleRouteRequest_cases r hsrc hreq hid hm2o hroute
      · cases hreq

end

/-! ## The mesh -/

/-- The routers of a network, by address. -/
abbrev Mesh := ShortAddress → NwkLayer

/-- What may happen: a router receives one of the frames that another has ever sent, takes queued
    forwards into its schedule, serves the schedule, or lets time pass. -/
inductive MeshEvent where
  | receive (receiver sender : ShortAddress) (k : Nat) (r : Reception)
  | forward (router : ShortAddress) (readings : List (UInt32 × Bool))
  | service (router : ShortAddress) (readings : List ServiceReading)
  | tick (router : ShortAddress) (elapsedSecs : UInt16) (now : UInt32)

/-- The frame is a broadcast of the discovery. -/
def isCopy (d : ShortAddress) (id : UInt8) (f : NwkFrame) : Bool :=
  f.header.srcAddr == d && f.request?.any (·.routeRequestId == id)

theorem copy_of_isCopy {d : ShortAddress} {id : UInt8} (h : isCopy d id f = true) : ∃ rreq, Copy d id f rreq := by
  simp only [isCopy, Bool.and_eq_true, beq_iff_eq, Option.any_eq_true] at h
  obtain ⟨hsrc, rreq, hreq, hid⟩ := h
  exact ⟨rreq, hsrc, hreq, hid⟩

variable {a : ShortAddress}

namespace Mesh

/-- The events of one discovery: of the frames on air, only its broadcasts are received. -/
def step (d : ShortAddress) (id : UInt8) (m : Mesh) : MeshEvent → Mesh
  | .receive receiver sender k r =>
    match (m sender).air[k]? with
    | none => m
    | some f =>
      if isCopy d id f then
        Function.update m receiver ((m receiver).receiveRouteRequest f { r with prevHop := sender })
      else m
  | .forward router readings => Function.update m router ((m router).scheduleForwards readings)
  | .service router readings => Function.update m router ((m router).serviceBroadcastTx readings)
  | .tick router elapsedSecs now => Function.update m router ((m router).tickRouterMaintenance elapsedSecs now)

/-- What the router has recorded as its path cost to the concentrator. -/
def recordedCost (m : Mesh) (d : ShortAddress) (id : UInt8) (a : ShortAddress) : Option UInt8 :=
  (m a).rreqRecords.recordedCost d id

/-- The next hop that the router has installed towards the concentrator. -/
def nextHop (m : Mesh) (d a : ShortAddress) : Option ShortAddress := (m a).routing.nextHop d

/-- A mesh that knows nothing of the discovery yet.  Its routing tables may hold anything. -/
structure Quiet (m : Mesh) (d : ShortAddress) (id : UInt8) : Prop where
  addr : ∀ a, (m a).nib.networkAddress = a
  consistent : ∀ a, ∀ q ∈ (m a).pendingRreqForwards, q.request.Consistent
  silent : ∀ a rreq, ¬ Carries (m a) d id rreq
  unknown : ∀ a, m.recordedCost d id a = none

/-- The invariant of a discovery. -/
structure Sound (m : Mesh) (d : ShortAddress) (id : UInt8) : Prop where
  addr : ∀ a, (m a).nib.networkAddress = a
  consistent : ∀ a, ∀ q ∈ (m a).pendingRreqForwards, q.request.Consistent
  carried : ∀ a rreq, Carries (m a) d id rreq →
    rreq.isManyToOne = true ∧ (a = d ∨ ∃ c, m.recordedCost d id a = some c ∧ c ≤ rreq.pathCost)
  routed : ∀ a c, m.recordedCost d id a = some c →
    ∃ b, (m a).routing.LeadsTo d c b ∧ (b = d ∨ ∃ c', m.recordedCost d id b = some c' ∧ c' < c)

/-- No record of the discovery expires, and the costs that add up stay below 255. -/
def Calm (d : ShortAddress) (id : UInt8) (m : Mesh) : MeshEvent → Prop
  | .receive _ sender k r =>
    ∀ f ∈ (m sender).air[k]?, isCopy d id f = true → ∀ rreq ∈ f.request?, rreq.pathCost.toNat + r.linkCost.toNat < 255
  | .tick router elapsedSecs _ =>
    ∀ e ∈ (m router).rreqRecords, e.isFor d id = true → elapsedSecs.toNat < e.expiry.toNat
  | .forward .. | .service .. => True

instance Calm.decidable (d : ShortAddress) (id : UInt8) (m : Mesh) : (e : MeshEvent) → Decidable (Calm d id m e)
  | .receive _ sender k r =>
    inferInstanceAs (Decidable (∀ f ∈ (m sender).air[k]?, isCopy d id f = true →
      ∀ rreq ∈ f.request?, rreq.pathCost.toNat + r.linkCost.toNat < 255))
  | .tick router elapsedSecs _ =>
    inferInstanceAs (Decidable (∀ e ∈ (m router).rreqRecords, e.isFor d id = true → elapsedSecs.toNat < e.expiry.toNat))
  | .forward .. | .service .. => inferInstanceAs (Decidable True)

variable {m : Mesh} {d : ShortAddress} {id : UInt8}

theorem recordedCost_update (m : Mesh) (d : ShortAddress) (id : UInt8) (a b : ShortAddress) (s : NwkLayer) :
    recordedCost (Function.update m a s) d id b =
      if b = a then s.rreqRecords.recordedCost d id else m.recordedCost d id b := by
  unfold recordedCost
  rw [Function.update_apply]
  split <;> rfl

theorem Sound.update_steady (h : Sound m d id) {s : NwkLayer} (hs : Steady d id (m a) s) :
    Sound (Function.update m a s) d id := by
  have hrec : ∀ b, recordedCost (Function.update m a s) d id b = m.recordedCost d id b := by
    intro b
    rw [recordedCost_update]
    split
    · rename_i hb
      rw [hs.cost, hb]
      rfl
    · rfl
  refine ⟨?_, ?_, ?_, ?_⟩
  · intro b
    rw [Function.update_apply]
    split
    · rename_i hb
      rw [hs.addr, h.addr, hb]
    · exact h.addr b
  · intro b q hq
    rw [Function.update_apply] at hq
    split at hq
    · exact h.consistent a q (hs.queue q hq)
    · exact h.consistent b q hq
  · intro b rreq hc
    rw [hrec]
    rw [Function.update_apply] at hc
    split at hc
    · rename_i hb
      rw [hb]
      exact h.carried a rreq (hs.carries rreq hc)
    · exact h.carried b rreq hc
  · intro b c hb
    rw [hrec] at hb
    obtain ⟨hop, hleads, hnext⟩ := h.routed b c hb
    refine ⟨hop, ?_, hnext.imp_right fun ⟨c', hc', hlt⟩ => ⟨c', by rwa [hrec], hlt⟩⟩
    rw [Function.update_apply]
    split
    · rename_i hba
      rw [hba] at hleads
      exact hs.leads c hop hleads
    · exact hleads

theorem Sound.update_improved (h : Sound m d id) {s : NwkLayer} (hs : Improved d id (m a) s cost b)
    (hb : b = d ∨ ∃ c, m.recordedCost d id b = some c ∧ c < cost) : Sound (Function.update m a s) d id := by
  have hself : recordedCost (Function.update m a s) d id a = some cost := by
    rw [recordedCost_update, if_pos rfl, hs.cost_eq]
  -- Costs only fall, so what was no cheaper than a record still is.
  have hfall : ∀ x c, m.recordedCost d id x = some c →
      ∃ c', recordedCost (Function.update m a s) d id x = some c' ∧ c' ≤ c := by
    intro x c hx
    by_cases hxa : x = a
    · subst hxa
      exact ⟨cost, hself, hs.cost_le c hx⟩
    · exact ⟨c, by rw [recordedCost_update, if_neg hxa, hx], UInt8.le_refl c⟩
  have hnext : ∀ {x c}, (x = d ∨ ∃ c', m.recordedCost d id x = some c' ∧ c' < c) →
      x = d ∨ ∃ c', recordedCost (Function.update m a s) d id x = some c' ∧ c' < c := by
    rintro x c (hx | ⟨c', hx, hlt⟩)
    · exact Or.inl hx
    · obtain ⟨c'', hx', hle⟩ := hfall x c' hx
      exact Or.inr ⟨c'', hx', UInt8.lt_of_le_of_lt hle hlt⟩
  refine ⟨?_, ?_, ?_, ?_⟩
  · intro x
    rw [Function.update_apply]
    split
    · rename_i hx
      rw [hs.addr, h.addr, hx]
    · exact h.addr x
  · intro x q hq
    rw [Function.update_apply] at hq
    split at hq
    · exact (hs.queue q hq).elim (h.consistent a q) fun hq => hq
    · exact h.consistent x q hq
  · intro x rreq hc
    rw [Function.update_apply] at hc
    have hold : ∀ y, Carries (m y) d id rreq → rreq.isManyToOne = true ∧
        (y = d ∨ ∃ c, recordedCost (Function.update m a s) d id y = some c ∧ c ≤ rreq.pathCost) := by
      intro y hy
      obtain ⟨hm2o, hcost⟩ := h.carried y rreq hy
      refine ⟨hm2o, hcost.imp_right fun ⟨c, hc, hle⟩ => ?_⟩
      obtain ⟨c', hc', hle'⟩ := hfall y c hc
      exact ⟨c', hc', UInt8.le_trans hle' hle⟩
    split at hc
    · rename_i hx
      subst hx
      rcases hs.carries rreq hc with hc | ⟨hm2o, hcost⟩
      · exact hold x hc
      · exact ⟨hm2o, Or.inr ⟨cost, hself, by rw [hcost]; exact UInt8.le_refl _⟩⟩
    · exact hold x hc
  · intro x c hx
    by_cases hxa : x = a
    · subst hxa
      rw [hself] at hx
      cases hx
      rw [Function.update_self]
      exact ⟨b, hs.leads, hnext hb⟩
    · rw [recordedCost_update, if_neg hxa] at hx
      obtain ⟨hop, hleads, hhop⟩ := h.routed x c hx
      rw [Function.update_of_ne hxa]
      exact ⟨hop, hleads, hnext hhop⟩

theorem Sound.step (h : Sound m d id) {e : MeshEvent} (hcalm : Calm d id m e) : Sound (Mesh.step d id m e) d id := by
  cases e with
  | receive receiver sender k r =>
    unfold Mesh.step
    dsimp only
    split
    · exact h
    · rename_i f hget
      split
      · rename_i hiscopy
        obtain ⟨rreq, hcopy⟩ := copy_of_isCopy hiscopy
        obtain ⟨hm2o, hcost⟩ := h.carried sender rreq (.onAir (List.mem_of_getElem? hget) hcopy)
        have hsum := hcalm f hget hiscopy rreq hcopy.request
        have hroute : ∀ c, (m receiver).rreqRecords.recordedCost d id = some c →
            ∃ b, (m receiver).routing.LeadsTo d c b := fun c hc =>
          let ⟨b, hleads, _⟩ := h.routed receiver c hc
          ⟨b, hleads⟩
        rcases receive_cases { r with prevHop := sender } hcopy hm2o hroute with hs | hs
        · exact h.update_steady hs
        · have hlt : rreq.pathCost < saturatingAdd8 rreq.pathCost r.linkCost := by
            rw [UInt8.lt_iff_toNat_lt, toNat_saturatingAdd8 hsum]
            exact Nat.lt_add_of_pos_right r.linkCost_pos
          exact h.update_improved hs (hcost.imp_right fun ⟨c, hc, hle⟩ => ⟨c, hc, UInt8.lt_of_le_of_lt hle hlt⟩)
      · exact h
  | forward router readings => exact h.update_steady (scheduleForwards_steady (h.consistent router) readings)
  | service router readings => exact h.update_steady (serviceBroadcastTx_steady _ readings)
  | tick router elapsedSecs now => exact h.update_steady (tick_steady hcalm)

/-- The concentrator starts the discovery. -/
def announce (m : Mesh) (d : ShortAddress) (concentratorType : ConcentratorType) (radius : UInt8) (aes : Bool)
    (outcome : MacOutcome) : Mesh :=
  Function.update m d ((m d).sendManyToOneRreq concentratorType radius aes outcome).1

theorem rreqOptions_spec (concentratorType : ConcentratorType) :
    concentratorType.rreqOptions &&& 0x20 = 0 ∧
      (ConcentratorType.fromRreqOptions concentratorType.rreqOptions).isSome = true := by
  cases concentratorType <;> decide

theorem sendManyToOneRreq_spec (s : NwkLayer) (concentratorType : ConcentratorType) (radius : UInt8) (aes : Bool)
    (outcome : MacOutcome) :
    ∃ frame n, Emits s (s.sendManyToOneRreq concentratorType radius aes outcome).1 frame n ∧
      ∀ d id rreq, Copy d id frame rreq → rreq.isManyToOne = true := by
  unfold sendManyToOneRreq
  dsimp only [Nib.nextRouteRequestId]
  obtain ⟨frame, n, hemits, -, hpayload⟩ := sendNwkCommand_emits
    { s with nib := { s.nib with routeRequestId := s.nib.routeRequestId + 1 } } ALL_ROUTERS_AND_COORDINATOR
    s.nib.networkAddress (some s.nib.ieeeAddress) none NwkCommandId.routeRequest
    (RouteRequest.serialize ⟨concentratorType.rreqOptions, s.nib.routeRequestId, ALL_ROUTERS_AND_COORDINATOR, 0, none⟩)
    radius aes (.hop ShortAddress.BROADCAST outcome none)
  refine ⟨frame, n, hemits.rebase rfl rfl rfl, fun d id rreq hcopy => ?_⟩
  have hconsistent : RouteRequest.Consistent
      ⟨concentratorType.rreqOptions, s.nib.routeRequestId, ALL_ROUTERS_AND_COORDINATOR, 0, none⟩ :=
    iff_of_false (not_not_intro (rreqOptions_spec concentratorType).1) (by simp)
  have hreq := hcopy.request
  rw [NwkFrame.request?, hpayload] at hreq
  simp only [if_true, RouteRequest.parse_serialize hconsistent] at hreq
  cases hreq
  exact (rreqOptions_spec concentratorType).2

theorem Sound.announce (h : Quiet m d (m d).nib.routeRequestId) (concentratorType : ConcentratorType) (radius : UInt8)
    (aes : Bool) (outcome : MacOutcome) :
    Sound (m.announce d concentratorType radius aes outcome) d (m d).nib.routeRequestId := by
  obtain ⟨frame, n, hemits, hm2o⟩ := sendManyToOneRreq_spec (m d) concentratorType radius aes outcome
  have hunknown : ∀ a, recordedCost (m.announce d concentratorType radius aes outcome) d (m d).nib.routeRequestId a = none := by
    intro a
    rw [Mesh.announce, recordedCost_update]
    split
    · rw [hemits.rest]
      exact h.unknown d
    · exact h.unknown a
  refine ⟨?_, ?_, ?_, fun a c hc => by rw [hunknown] at hc; cases hc⟩
  · intro a
    rw [Mesh.announce, Function.update_apply]
    split
    · rename_i ha
      rw [hemits.addr, h.addr, ha]
    · exact h.addr a
  · intro a q hq
    rw [Mesh.announce, Function.update_apply] at hq
    split at hq
    · rw [hemits.rest] at hq
      exact h.consistent d q hq
    · exact h.consistent a q hq
  · intro a rreq hc
    rw [Mesh.announce, Function.update_apply] at hc
    split at hc
    · rename_i ha
      refine ⟨?_, Or.inl ha⟩
      rw [hemits.rest] at hc
      cases hc with
      | onAir hf hcopy =>
        rcases List.mem_append.mp hf with hf | hf
        · exact absurd (.onAir hf hcopy) (h.silent d rreq)
        · rw [List.eq_of_mem_replicate hf] at hcopy
          exact hm2o _ _ rreq hcopy
      | scheduled he hcopy => exact absurd (.scheduled he hcopy) (h.silent d rreq)
      | queued hq ho hid hr => exact absurd (.queued hq ho hid hr) (h.silent d rreq)
    · exact absurd hc (h.silent a rreq)

/-- Where a walk that starts at a router stands: at the concentrator, or at a router with a record. -/
def OnRoute (m : Mesh) (d : ShortAddress) (id : UInt8) (a : ShortAddress) : Prop :=
  a = d ∨ ∃ c, m.recordedCost d id a = some c

/-- The recorded cost, and zero at the concentrator. -/
def rank (m : Mesh) (d : ShortAddress) (id : UInt8) (a : ShortAddress) : Nat :=
  if a = d then 0 else ((m.recordedCost d id a).map fun c => c.toNat + 1).getD 0

theorem Sound.nextHop_spec (h : Sound m d id) (ha : m.recordedCost d id a = some c) :
    ∃ e, (m a).routing.getEntry d = some e ∧ e.manyToOne = true ∧ e.pathCost = c ∧ m.nextHop d a = some e.nextHop ∧
      (e.nextHop = d ∨ ∃ c', m.recordedCost d id e.nextHop = some c' ∧ c' < c) := by
  obtain ⟨b, ⟨e, hfind, husable, hm2o, hcost, rfl⟩, hnext⟩ := h.routed a c ha
  have hget : (m a).routing.getEntry d = some e := by
    obtain ⟨-, before, after, hsplit, hbefore⟩ := List.find?_eq_some_iff_append.mp hfind
    refine List.find?_eq_some_iff_append.mpr ⟨husable, before, after, hsplit, fun x hx => ?_⟩
    have hx' : (x.destination == d) = false := by simpa using hbefore x hx
    simp [RouteEntry.usable, RouteEntry.isFor, hx']
  exact ⟨e, hget, hm2o, hcost, by rw [nextHop, RoutingTable.nextHop]; exact congrArg _ hget, hnext⟩

theorem Sound.rank_lt (h : Sound m d id) (ha : m.OnRoute d id a) (had : a ≠ d) (hhop : m.nextHop d a = some b) :
    m.OnRoute d id b ∧ m.rank d id b < m.rank d id a := by
  obtain ⟨c, hc⟩ := ha.resolve_left had
  obtain ⟨e, -, -, -, hnext, hb⟩ := h.nextHop_spec hc
  rw [hhop] at hnext
  cases hnext
  have hra : m.rank d id a = c.toNat + 1 := by
    rw [rank, if_neg had, hc]
    rfl
  rcases hb with hb | ⟨c', hc', hlt⟩
  · refine ⟨Or.inl hb, ?_⟩
    rw [hra, rank, if_pos hb]
    omega
  · refine ⟨Or.inr ⟨c', hc'⟩, ?_⟩
    rw [hra, rank, hc']
    split
    · omega
    · exact Nat.succ_lt_succ (UInt8.lt_iff_toNat_lt.mp hlt)

theorem Sound.walk (h : Sound m d id) {path : List ShortAddress} (ha : m.OnRoute d id a)
    (hchain : List.IsChain (fun x y => x ≠ d ∧ m.nextHop d x = some y) (a :: path)) :
    (∀ x ∈ path, m.rank d id x < m.rank d id a) ∧ (a :: path).Nodup := by
  induction path generalizing a with
  | nil => simp
  | cons b path ih =>
    obtain ⟨⟨had, hhop⟩, hrest⟩ := List.isChain_cons_cons.mp hchain
    obtain ⟨hb, hlt⟩ := h.rank_lt ha had hhop
    obtain ⟨hbelow, hnodup⟩ := ih hb hrest
    have hall : ∀ x ∈ b :: path, m.rank d id x < m.rank d id a := by
      intro x hx
      rcases List.mem_cons.mp hx with rfl | hx
      · exact hlt
      · exact (hbelow x hx).trans hlt
    exact ⟨hall, List.nodup_cons.mpr ⟨fun hmem => Nat.lt_irrefl _ (hall a hmem), hnodup⟩⟩

/-- **Many-to-one discovery is loop-free.**  After any order of losses, duplications and receptions of
    the broadcasts of one discovery, each router that has recorded it has a many-to-one route of the
    recorded cost whose next hop is the concentrator or has recorded a smaller cost, and a walk along
    the next hops meets no router twice. -/
theorem many_to_one_loop_free {m : Mesh} {d : ShortAddress} (hquiet : m.Quiet d (m d).nib.routeRequestId)
    (concentratorType : ConcentratorType) (radius : UInt8) (aes : Bool) (outcome : MacOutcome) {es : List MeshEvent}
    (hcalm : Along (step d (m d).nib.routeRequestId) (Calm d (m d).nib.routeRequestId)
      (m.announce d concentratorType radius aes outcome) es) :
    let id := (m d).nib.routeRequestId
    let m' := run (step d id) (m.announce d concentratorType radius aes outcome) es
    ∀ a c, m'.recordedCost d id a = some c →
      (∃ e, (m' a).routing.getEntry d = some e ∧ e.manyToOne = true ∧ e.pathCost = c ∧
        m'.nextHop d a = some e.nextHop ∧
        (e.nextHop = d ∨ ∃ c', m'.recordedCost d id e.nextHop = some c' ∧ c' < c)) ∧
      ∀ path, List.IsChain (fun x y => x ≠ d ∧ m'.nextHop d x = some y) (a :: path) → (a :: path).Nodup := by
  intro id m' a c ha
  have hsound : Sound m' d id :=
    run_induct (I := fun m => Sound m d id) (fun _ _ h hc => h.step hc)
      (Sound.announce hquiet concentratorType radius aes outcome) hcalm
  exact ⟨hsound.nextHop_spec ha, fun path hchain => (hsound.walk (Or.inr ⟨c, ha⟩) hchain).2⟩

/-- Routers that have just joined. -/
def fresh (a : ShortAddress) : NwkLayer := { plainRouter a with concentratorActive := false }

/-- Router 1 hears the concentrator 0 and forwards; router 2 hears the forward. -/
def twoHops : List MeshEvent :=
  [.receive 1 0 0 ⟨0, 255, none, fun _ => false, 0⟩, .forward 1 [(0, true)],
    .service 1 [⟨0x70000000, .confirmed, 0x70000000, fun _ => false⟩], .receive 2 1 0 ⟨0, 255, none, fun _ => false, 0⟩]

theorem quiet_fresh : Quiet fresh 0 0 where
  addr := fun _ => rfl
  consistent := fun _ _ hq => by simp [fresh, plainRouter, NwkLayer.new] at hq
  silent := by
    rintro a rreq (⟨hf, -⟩ | ⟨he, -⟩ | ⟨hq, -⟩)
    · simp [fresh, plainRouter, NwkLayer.new] at hf
    · simp [fresh, plainRouter, NwkLayer.new] at he
    · simp [fresh, plainRouter, NwkLayer.new] at hq
  unknown := fun _ => rfl

theorem calm_twoHops : Along (step 0 0) (Calm 0 0) (announce fresh 0 .lowRam 10 true .confirmed) twoHops := by
  decide +kernel

/-- Router 2 walks over router 1 to the concentrator. -/
theorem two_hop_walk :
    let m' := run (step 0 0) (announce fresh 0 .lowRam 10 true .confirmed) twoHops
    m'.recordedCost 0 0 2 = some 2 ∧ ([2, 1, 0] : List ShortAddress).Nodup := by
  intro m'
  have hcost : m'.recordedCost 0 0 2 = some 2 := by decide +kernel
  have hchain : List.IsChain (fun x y => x ≠ 0 ∧ m'.nextHop 0 x = some y) [2, 1, 0] := by decide +kernel
  exact ⟨hcost, (many_to_one_loop_free quiet_fresh .lowRam 10 true .confirmed calm_twoHops 2 2 hcost).2 [1, 0] hchain⟩

end Mesh

end Zigbee.Nwk
