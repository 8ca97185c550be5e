import Zigbee.Nwk.DataService
import Zigbee.Nwk.ManyToOne

/-!
# Order of frame counters on air

A neighbour keeps one floor per source and drops every counter below it, so the frames of one router
should reach the air for the first time in the order in which they drew their counters.  Data requests
and unicast relays draw a counter and send at once; a broadcast draws its counter when it is scheduled
and is sent when its jitter is over.

* `InOrder` — each counter is greater than all before it when it first goes on air.
* `Ordered` — the invariant: a scheduled counter that has not been on air is above all that have.
* `counters_in_order` — the order holds along a run in which nothing is sent at once while a scheduled
  counter waits, and the service sends waiting counters oldest first.
* `relay_overtaken` — a data request that follows a broadcast relay overtakes it.
-/

namespace Zigbee.Nwk

open Run NwkLayer

/-- The counter has been on air. -/
def OnAir (air : List NwkFrame) (c : UInt32) : Prop := ∃ f ∈ air, f.frameCounter = some c

/-- When a counter goes on air for the first time, all counters before it are smaller. -/
def InOrder (air : List NwkFrame) : Prop :=
  ∀ pre f post c, air = pre ++ f :: post → f.frameCounter = some c → OnAir pre c ∨ ∀ c', OnAir pre c' → c' < c

inductive NwkOp where
  | dataRequest (dstAddr : ShortAddress) (radius : UInt8) (payload : List UInt8) (securityEnable discover : Bool)
      (r : DataReading)
  | relay (header : NwkHeader) (payload : List UInt8) (previousHop : ShortAddress) (r : RelayReading)
  | relayRecord (header : NwkHeader) (payload : List UInt8) (r : RelayReading)
  | relayBroadcast (header : NwkHeader) (payload : List UInt8) (previousHop : ShortAddress) (now : UInt32) (aes : Bool)
  | noteRelay (src : ShortAddress) (seq : UInt8) (hop : ShortAddress) (allHeard : List ShortAddress → Bool)
  | routeRequest (frame : NwkFrame) (r : Reception)
  | forwards (readings : List (UInt32 × Bool))
  | service (readings : List ServiceReading)

def NwkOp.step (s : NwkLayer) : NwkOp → NwkLayer
  | .dataRequest dstAddr radius payload securityEnable discover r =>
    (s.nldeDataRequest dstAddr radius payload securityEnable discover r).1
  | .relay header payload previousHop r => (s.relayFrame header payload previousHop r).1
  | .relayRecord header payload r => (s.relayRouteRecord header payload r).1
  | .relayBroadcast header payload previousHop now aes => (s.relayBroadcast header payload previousHop now aes).1
  | .noteRelay src seq hop allHeard => s.noteBroadcastRelay src seq hop allHeard
  | .routeRequest frame r => s.receiveRouteRequest frame r
  | .forwards readings => s.scheduleForwards readings
  | .service readings => s.serviceBroadcastTx readings

/-! ## Order of one list -/

variable {c : UInt32}

theorem onAir_append {air air' : List NwkFrame} : OnAir (air ++ air') c ↔ OnAir air c ∨ OnAir air' c := by
  unfold OnAir
  constructor
  · rintro ⟨f, hf, hc⟩
    exact (List.mem_append.mp hf).imp (fun h => ⟨f, h, hc⟩) fun h => ⟨f, h, hc⟩
  · rintro (⟨f, hf, hc⟩ | ⟨f, hf, hc⟩)
    · exact ⟨f, List.mem_append_left _ hf, hc⟩
    · exact ⟨f, List.mem_append_right _ hf, hc⟩

variable {f : NwkFrame}

theorem onAir_singleton : OnAir [f] c ↔ f.frameCounter = some c := by
  simp [OnAir]

theorem InOrder.nil : InOrder [] := by
  intro pre f post c h
  simp at h

theorem InOrder.concat {air : List NwkFrame} (h : InOrder air)
    (hf : ∀ c, f.frameCounter = some c → OnAir air c ∨ ∀ c', OnAir air c' → c' < c) : InOrder (air ++ [f]) := by
  intro pre g post c hsplit hc
  rcases List.eq_nil_or_concat post with rfl | ⟨post, x, rfl⟩
  · obtain ⟨rfl, hfg⟩ := List.append_inj' hsplit rfl
    cases hfg
    exact hf c hc
  · rw [List.concat_eq_append, ← List.cons_append, ← List.append_assoc] at hsplit
    exact h pre g post c (List.append_inj' hsplit rfl).1 hc

/-! ## The invariant -/

structure Ordered (s : NwkLayer) : Prop where
  inOrder : InOrder s.air
  below : ∀ c, OnAir s.air c → c < s.nib.outgoingFrameCounter
  waiting : ∀ e ∈ s.broadcastTx, ∀ c, e.frame.frameCounter = some c →
    c < s.nib.outgoingFrameCounter ∧ (OnAir s.air c ∨ ∀ c', OnAir s.air c' → c' < c)

/-- No scheduled broadcast waits with a counter that has not been on air. -/
def Settled (s : NwkLayer) : Prop := ∀ e ∈ s.broadcastTx, ∀ c, e.frame.frameCounter = some c → OnAir s.air c

/-- The pass sends nothing new, or the oldest counter that has not been on air. -/
def InTurn (p : NwkLayer × Nat) (r : ServiceReading) : Prop :=
  ∀ e c, p.1.broadcastTx[p.2]? = some e → e.frame.frameCounter = some c → notDue r.now e.deadlineUs = false →
    OnAir p.1.air c ∨ ∀ e' ∈ p.1.broadcastTx, ∀ c', e'.frame.frameCounter = some c' → OnAir p.1.air c' ∨ c ≤ c'

/-- The condition: nothing is sent at once while a scheduled counter waits for its first transmission, and the
    service sends those that wait in the order of their counters. -/
def Unhurried (s : NwkLayer) : NwkOp → Prop
  | .dataRequest .. | .relay .. | .relayRecord .. => Settled s
  | .service readings => Along NwkLayer.serviceIter InTurn (s, 0) readings
  | .relayBroadcast .. | .noteRelay .. | .routeRequest .. | .forwards .. => True

variable {header : NwkHeader} {payload : List UInt8} {aes : Bool}

section

variable {s s' : NwkLayer}

/-- Layers that agree on what has been sent and drawn, where the schedule holds no new frame. -/
theorem Ordered.of_frames (h : Ordered s) (hair : s'.air = s.air)
    (hcounter : s'.nib.outgoingFrameCounter = s.nib.outgoingFrameCounter)
    (hframes : ∀ e ∈ s'.broadcastTx, ∃ e' ∈ s.broadcastTx, e.frame = e'.frame) : Ordered s' where
  inOrder := hair ▸ h.inOrder
  below := by
    rw [hair, hcounter]
    exact h.below
  waiting := by
    rw [hair, hcounter]
    intro e he c hc
    obtain ⟨e', he', hframe⟩ := hframes e he
    exact h.waiting e' he' c (hframe ▸ hc)

theorem Settled.of_frames (h : Settled s) (hair : s'.air = s.air)
    (hframes : ∀ e ∈ s'.broadcastTx, ∃ e' ∈ s.broadcastTx, e.frame = e'.frame) : Settled s' := by
  intro e he c hc
  obtain ⟨e', he', hframe⟩ := hframes e he
  rw [hair]
  exact h e' he' c (hframe ▸ hc)

/-- A frame that goes on air in its turn. -/
theorem Ordered.concat (h : Ordered s) (hair : s'.air = s.air ++ [f])
    (hcounter : s'.nib.outgoingFrameCounter = s.nib.outgoingFrameCounter)
    (hframes : ∀ e ∈ s'.broadcastTx, ∃ e' ∈ s.broadcastTx, e.frame = e'.frame)
    (hlt : ∀ c, f.frameCounter = some c → c < s.nib.outgoingFrameCounter) (hf : ∀ c, f.frameCounter = some c → OnAir s.air c ∨
      ((∀ c', OnAir s.air c' → c' < c) ∧
        ∀ e ∈ s.broadcastTx, ∀ c', e.frame.frameCounter = some c' → OnAir s.air c' ∨ c ≤ c')) : Ordered s' := by
  refine ⟨?_, ?_, ?_⟩
  · rw [hair]
    exact h.inOrder.concat fun c hc => (hf c hc).imp_right And.left
  · rw [hair, hcounter]
    intro c hc
    rcases onAir_append.mp hc with hc | hc
    · exact h.below c hc
    · exact hlt c (onAir_singleton.mp hc)
  · rw [hair, hcounter]
    intro e he c hc
    obtain ⟨e', he', hframe⟩ := hframes e he
    rw [hframe] at hc
    obtain ⟨hclt, hwait⟩ := h.waiting e' he' c hc
    refine ⟨hclt, ?_⟩
    rcases hwait with hon | habove
    · exact Or.inl (onAir_append.mpr (Or.inl hon))
    · -- The waiting counter is above all on air; it stays so unless the new frame is this very one.
      by_cases hself : f.frameCounter = some c
      · exact Or.inl (onAir_append.mpr (Or.inr (onAir_singleton.mpr hself)))
      · refine Or.inr fun c' hc' => ?_
        rcases onAir_append.mp hc' with hc' | hc'
        · exact habove c' hc'
        · have hc' := onAir_singleton.mp hc'
          rcases hf c' hc' with hon | ⟨-, holdest⟩
          · exact habove c' hon
          · rcases holdest e' he' c hc with hon | hle
            · exact absurd (habove c hon) (UInt32.lt_irrefl c)
            · refine UInt32.lt_of_le_of_ne hle fun heq => hself ?_
              rw [hc', heq]

/-- The counter of a new frame is still below the limit, so it does not wrap. -/
theorem lt_add_one_of_lt {limit : UInt32} (h : c < limit) : c < c + 1 := by
  rw [UInt32.lt_iff_toNat_lt] at h ⊢
  have hlimit := limit.toNat_lt
  have hsum : (c + 1).toNat = c.toNat + 1 := by
    rw [UInt32.toNat_add, UInt32.toNat_one, Nat.mod_eq_of_lt (by omega)]
  omega

theorem Ordered.draw (h : Ordered s) (hlt : s.nib.outgoingFrameCounter < s.nib.outgoingFrameCounterLimit)
    (hair : s'.air = s.air) (htx : s'.broadcastTx = s.broadcastTx)
    (hcounter : s'.nib.outgoingFrameCounter = s.nib.outgoingFrameCounter + 1) : Ordered s' := by
  have hgrow : s.nib.outgoingFrameCounter < s'.nib.outgoingFrameCounter := by
    rw [hcounter]
    exact lt_add_one_of_lt hlt
  refine ⟨hair ▸ h.inOrder, ?_, ?_⟩
  · rw [hair]
    exact fun c hc => UInt32.lt_trans (h.below c hc) hgrow
  · rw [hair, htx]
    intro e he c hc
    obtain ⟨hclt, hwait⟩ := h.waiting e he c hc
    exact ⟨UInt32.lt_trans hclt hgrow, hwait⟩

/-! ## Frames that are sent at once -/

/-- Nothing waits, and the order has been kept. -/
structure Drained (s : NwkLayer) : Prop where
  ordered : Ordered s
  settled : Settled s

theorem Drained.congr (h : Drained s) (hair : s'.air = s.air)
    (hcounter : s'.nib.outgoingFrameCounter = s.nib.outgoingFrameCounter)
    (htx : s'.broadcastTx = s.broadcastTx) : Drained s' := by
  have hframes : ∀ e ∈ s'.broadcastTx, ∃ e' ∈ s.broadcastTx, e.frame = e'.frame :=
    fun e he => ⟨e, htx ▸ he, rfl⟩
  exact ⟨h.ordered.of_frames hair hcounter hframes, h.settled.of_frames hair hframes⟩

theorem Drained.replicate (h : Drained s) (hlt : ∀ c, f.frameCounter = some c → c < s.nib.outgoingFrameCounter)
    (hf : ∀ c, f.frameCounter = some c → OnAir s.air c ∨ ∀ c', OnAir s.air c' → c' < c) (n : Nat) :
    Drained { s with air := s.air ++ List.replicate n f } := by
  have hsettled : ∀ n, Settled { s with air := s.air ++ List.replicate n f } :=
    fun n e he c hc => onAir_append.mpr (Or.inl (h.settled e he c hc))
  refine ⟨?_, hsettled n⟩
  induction n with
  | zero => simpa using h.ordered
  | succ n ih =>
    refine ih.concat (f := f) ?_ rfl (fun e he => ⟨e, he, rfl⟩) hlt fun c hc => ?_
    · rw [List.replicate_succ', List.append_assoc]
    · cases n with
      | zero =>
        rcases hf c hc with hon | habove
        · exact Or.inl (onAir_append.mpr (Or.inl hon))
        · refine Or.inr ⟨fun c' hc' => habove c' (by simpa using hc'), fun e he c' hc' => Or.inl ?_⟩
          exact hsettled 0 e he c' hc'
      | succ n =>
        refine Or.inl (onAir_append.mpr (Or.inr ⟨f, ?_, hc⟩))
        exact List.mem_replicate.mpr ⟨Nat.succ_ne_zero n, rfl⟩

theorem Drained.emits {n : Nat} (h : Drained s) (he : Emits s s' f n) : Drained s' := by
  rw [he.rest]
  rcases he.counter with ⟨hnone, hcounter⟩ | ⟨hsome, hlt, hcounter⟩
  · have h' : Drained { s with nib := s'.nib, hops := s'.hops } := h.congr rfl hcounter rfl
    refine h'.replicate (fun c hc => ?_) (fun c hc => ?_) n <;>
    · rw [hnone] at hc
      cases hc
  · have h' : Drained { s with nib := s'.nib, hops := s'.hops } := ⟨h.ordered.draw hlt rfl rfl hcounter, h.settled⟩
    refine h'.replicate (fun c hc => ?_) (fun c hc => ?_) n
    · rw [hsome] at hc
      cases hc
      exact hcounter ▸ lt_add_one_of_lt hlt
    · rw [hsome] at hc
      cases hc
      exact Or.inr h.ordered.below

theorem Drained.sendNwkCommand (h : Drained s) (dstAddr srcAddr : ShortAddress) (srcIeee dstIeee : Option IeeeAddress)
    (cmdId : UInt8) (cmdPayload : List UInt8) (radius : UInt8) (aes : Bool) (path : Path) :
    Drained (s.sendNwkCommand dstAddr srcAddr srcIeee dstIeee cmdId cmdPayload radius aes path).1 := by
  obtain ⟨f, n, hemits, -⟩ := sendNwkCommand_emits s dstAddr srcAddr srcIeee dstIeee cmdId cmdPayload radius aes path
  exact h.emits hemits

theorem Drained.discoverRoute (h : Drained s) (dest : ShortAddress) (r : CommandReading) :
    Drained (s.discoverRoute dest r).1 := by
  unfold NwkLayer.discoverRoute
  split
  · exact h
  · split
    · exact h
    · dsimp only [Nib.nextRouteRequestId]
      split
      · exact h.congr rfl rfl rfl
      · rename_i routing _
        have hsend := Drained.sendNwkCommand
          (s := { s with
            nib := { s.nib with routeRequestId := s.nib.routeRequestId + 1 }, routing := routing.markDiscovery dest })
          (h.congr rfl rfl rfl) ShortAddress.BROADCAST s.nib.networkAddress (some s.nib.ieeeAddress) none
          NwkCommandId.routeRequest (RouteRequest.serialize ⟨0x00, s.nib.routeRequestId, dest, 0, none⟩) 30 r.aes r.path
        split
        · rename_i heq
          rw [heq] at hsend
          exact hsend.congr rfl rfl rfl
        · rename_i heq
          rw [heq] at hsend
          exact hsend

theorem Drained.handleUnroutableDestination (h : Drained s) (dstAddr : ShortAddress) (discover : Bool)
    (status : NwkStatus) (r : CommandReading) : Drained (s.handleUnroutableDestination dstAddr discover status r).1 := by
  unfold NwkLayer.handleUnroutableDestination
  split
  · exact h
  · split
    · exact h
    · exact h.discoverRoute dstAddr r

theorem Drained.sendRouteRecordFrom (h : Drained s) (dest source : ShortAddress) (sourceIeee : IeeeAddress)
    (relayList : List ShortAddress) (r : CommandReading) :
    Drained (s.sendRouteRecordFrom dest source sourceIeee relayList r).1 := by
  unfold NwkLayer.sendRouteRecordFrom
  split
  · exact h
  · exact h.sendNwkCommand _ _ _ _ _ _ _ _ _

theorem Drained.sendRequiredRouteRecord (h : Drained s) (dstAddr : ShortAddress) (r : CommandReading) :
    Drained (s.sendRequiredRouteRecord dstAddr r).1 := by
  unfold NwkLayer.sendRequiredRouteRecord
  split
  · have hsend := h.sendRouteRecordFrom dstAddr s.nib.networkAddress s.nib.ieeeAddress [] r
    split
    · rename_i heq
      rw [heq] at hsend
      exact hsend.congr rfl rfl rfl
    · rename_i heq
      rw [heq] at hsend
      exact hsend.congr rfl rfl rfl
  · exact h

theorem Drained.noteLinkFailure (h : Drained s) (destination failedHop : ShortAddress) :
    Drained (s.noteLinkFailure destination failedHop) := by
  unfold NwkLayer.noteLinkFailure
  split
  · exact h.congr rfl rfl rfl
  · exact h

theorem Drained.finishData (h : Drained s) (dstAddr hop : ShortAddress) (sourceRouted : Bool) (r : DataReading) (ok : Bool) :
    Drained (s.finishData dstAddr hop sourceRouted r ok) := by
  have hnote : Drained (if !sourceRouted && r.first == .noAck then s.noteLinkFailure dstAddr hop else s) := by
    split
    · exact h.noteLinkFailure dstAddr hop
    · exact h
  unfold NwkLayer.finishData
  dsimp only
  generalize (if !sourceRouted && r.first == .noAck then s.noteLinkFailure dstAddr hop else s) = t at hnote
  split
  · exact hnote.congr rfl rfl rfl
  · split
    · exact hnote.congr rfl rfl rfl
    · split
      · exact hnote.congr rfl rfl rfl
      · exact hnote

theorem transmit_mem {hop : ShortAddress} {outcome : MacOutcome} (h : outcome.isOk = true) :
    f ∈ (s.transmit f hop outcome).air := by
  have hair : outcome.onAir = true := by
    cases outcome <;> simp_all [MacOutcome.isOk, MacOutcome.onAir]
  rw [NwkLayer.transmit, if_pos hair]
  exact List.mem_append_right _ List.mem_cons_self

/-- A frame that was acknowledged has been on air. -/
theorem sendHop_mem {hop : ShortAddress} {first : MacOutcome} {alternate : Option (ShortAddress × MacOutcome)}
    (h : s.sendHop f hop first alternate = (s', true)) : f ∈ s'.air := by
  unfold sendHop at h
  dsimp only at h
  split at h
  · split at h
    · obtain ⟨rfl, hok⟩ := Prod.mk.inj h
      exact transmit_mem hok
    · obtain ⟨rfl, hok⟩ := Prod.mk.inj h
      exact transmit_mem hok
  · obtain ⟨rfl, hok⟩ := Prod.mk.inj h
    exact transmit_mem hok

/-- A broadcast that has just been on air may be kept for its retransmissions. -/
theorem Drained.trackBroadcast (h : Drained s) {frame : NwkFrame} (hair : frame ∈ s.air) (src : ShortAddress)
    (seq radius : UInt8) (now : UInt32) (allHeard : List ShortAddress → Bool) :
    Drained (s.trackBroadcast src seq frame radius now allHeard) := by
  unfold NwkLayer.trackBroadcast
  split
  · rw [scheduleBroadcast_fst]
    refine ⟨⟨h.ordered.inOrder, h.ordered.below, fun e he c hc => ?_⟩, fun e he c hc => ?_⟩
    · rcases BroadcastTxTable.mem_schedule he with he | rfl
      · exact h.ordered.waiting e he c hc
      · have hon : OnAir s.air c := ⟨frame, hair, hc⟩
        exact ⟨h.ordered.below c hon, Or.inl hon⟩
    · rcases BroadcastTxTable.mem_schedule he with he | rfl
      · exact h.settled e he c hc
      · exact ⟨frame, hair, hc⟩
  · exact h

theorem Drained.sendData (h : Drained s) (dstAddr : ShortAddress) (radius : UInt8) (payload : List UInt8)
    (securityEnable discover : Bool) (sourceRoute : Option SourceRoute) (hop : ShortAddress) (r : DataReading) :
    Drained (s.sendData dstAddr radius payload securityEnable discover sourceRoute hop r).1 := by
  have hseq : Drained { s with nib := s.nib.nextSeq.1 } := h.congr rfl rfl rfl
  unfold NwkLayer.sendData
  dsimp only
  split
  · rename_i s' status hbuild
    obtain ⟨f, hemits, -⟩ := buildNwkFrame_emits hbuild
    exact hseq.emits hemits
  · rename_i s' f hbuild
    obtain ⟨frame, hemits, -, -, hok⟩ := buildNwkFrame_emits hbuild
    cases hok f rfl
    split
    · exact hseq.emits hemits
    · obtain ⟨n, hn⟩ := hemits.sendHop hop r.first (if sourceRoute.isNone then r.alternate else none)
      cases hsend : s'.sendHop f hop r.first (if sourceRoute.isNone then r.alternate else none) with
      | mk s'' ok =>
        rw [hsend] at hn
        have hsent := hseq.emits hn
        refine Drained.finishData ?_ dstAddr hop sourceRoute.isSome r ok
        split
        · rename_i hcond
          simp only [Bool.and_eq_true] at hcond
          obtain ⟨⟨rfl, -⟩, -⟩ := hcond
          exact hsent.trackBroadcast (sendHop_mem hsend) _ _ _ _ _
        · exact hsent

theorem Drained.nldeDataRequest (h : Drained s) (dstAddr : ShortAddress) (radius : UInt8) (payload : List UInt8)
    (securityEnable discover : Bool) (r : DataReading) :
    Drained (s.nldeDataRequest dstAddr radius payload securityEnable discover r).1 := by
  unfold NwkLayer.nldeDataRequest
  split
  · exact h
  · split
    · exact h
    · dsimp only
      split
      · exact h.handleUnroutableDestination _ _ _ _
      · have hdiscover : Drained (if (s.sourceRouteSubframe dstAddr).isNone && discover && r.unconfirmed then
            (s.handleUnroutableDestination dstAddr true .routeError r.discovery).1 else s) := by
          split
          · exact h.handleUnroutableDestination _ _ _ _
          · exact h
        have hrecord := hdiscover.sendRequiredRouteRecord dstAddr r.record
        split
        · rename_i heq
          rw [heq] at hrecord
          exact hrecord
        · rename_i heq
          rw [heq] at hrecord
          exact hrecord.sendData _ _ _ _ _ _ _ _

/-! ## Relays -/

theorem Drained.queueNetworkStatus (h : Drained s) (pending : PendingNetworkStatus) :
    Drained (s.queueNetworkStatus pending) := by
  unfold NwkLayer.queueNetworkStatus
  split
  · exact h.congr rfl rfl rfl
  · exact h

theorem Drained.handleUnroutableRelay (h : Drained s) (header : NwkHeader) (r : CommandReading) :
    Drained (s.handleUnroutableRelay header r) := by
  unfold NwkLayer.handleUnroutableRelay
  split
  · exact h
  · dsimp only
    split
    · split
      · exact h
      · have hdiscover := h.discoverRoute header.dstAddr r
        split
        · rename_i heq
          rw [heq] at hdiscover
          exact hdiscover
        · rename_i heq
          rw [heq] at hdiscover
          exact hdiscover.queueNetworkStatus _
    · exact h.queueNetworkStatus _

theorem Drained.handleRelayFailure (h : Drained s) (header : NwkHeader) (sourceRouted : Bool)
    (neighbor : Option ShortAddress) : Drained (s.handleRelayFailure header sourceRouted neighbor) := by
  have hremove : Drained { s with routing := s.routing.remove header.dstAddr } := h.congr rfl rfl rfl
  unfold NwkLayer.handleRelayFailure
  dsimp only
  split
  · exact hremove
  · split
    · exact hremove.queueNetworkStatus _
    · split
      · split
        · exact hremove
        · exact hremove.queueNetworkStatus _
      · exact hremove.queueNetworkStatus _

/-- A frame that the builder has just made is sent to a hop. -/
theorem Drained.built (h : Drained s) (hbuild : s.buildNwkFrame header payload aes = (s', .ok f)) (hop : ShortAddress)
    (first : MacOutcome) (alternate : Option (ShortAddress × MacOutcome)) :
    Drained s' ∧ Drained (sendHop { s' with nib := s'.nib.nextSeq.1 } f hop first alternate).1 ∧
      ∀ (next : ShortAddress) (outcome : MacOutcome), Drained (NwkLayer.transmit
        { (sendHop { s' with nib := s'.nib.nextSeq.1 } f hop first alternate).1 with
          nib := (sendHop { s' with nib := s'.nib.nextSeq.1 } f hop first alternate).1.nib.nextSeq.1 } f
        next outcome) := by
  obtain ⟨frame, hemits, -, -, hok⟩ := buildNwkFrame_emits hbuild
  cases hok f rfl
  have hseq : ∀ {t : NwkLayer} {n : Nat}, Emits s t f n →
      Emits s { t with nib := t.nib.nextSeq.1 } f n := by
    intro t n ht
    refine ⟨?_, ht.hops, ht.addr, ht.limit, ht.counter⟩
    rw [ht.rest]
  obtain ⟨n, hn⟩ := (hseq hemits).sendHop hop first alternate
  refine ⟨h.emits hemits, h.emits hn, fun next outcome => ?_⟩
  obtain ⟨m, hm⟩ := (hseq hn).transmit next outcome
  exact h.emits hm

theorem Drained.built_error (h : Drained s) {status : NwkStatus}
    (hbuild : s.buildNwkFrame header payload aes = (s', .error status)) : Drained s' := by
  obtain ⟨f, hemits, -⟩ := buildNwkFrame_emits hbuild
  exact h.emits hemits

theorem Drained.relayFrameSourceRouted (h : Drained s) (header : NwkHeader) (payload : List UInt8) (newRadius : UInt8)
    (r : RelayReading) : Drained (s.relayFrameSourceRouted header payload newRadius r).1 := by
  have hclear : Drained { s with routing := s.routing.clearRouteRecordRequired header.srcAddr } := h.congr rfl rfl rfl
  unfold NwkLayer.relayFrameSourceRouted
  split
  · exact h
  · split
    · rename_i hbuild
      exact hclear.built_error hbuild
    · rename_i nextHop _ _ _ _ _ hbuild
      obtain ⟨hbuilt, hsent, -⟩ := hclear.built hbuild nextHop r.first none
      split
      · exact hbuilt
      · split
        · rename_i heq
          rw [heq] at hsent
          exact hsent
        · rename_i heq
          rw [heq] at hsent
          exact hsent.handleRelayFailure header true none

theorem Drained.finishRelay (h : Drained s) (header : NwkHeader) (hop : ShortAddress) (r : RelayReading) (ok : Bool) :
    Drained (s.finishRelay header hop r ok).1 := by
  unfold NwkLayer.finishRelay
  split
  · exact h.congr rfl rfl rfl
  · exact h.handleRelayFailure header false r.neighbor

theorem Drained.sendRelay (h : Drained s) (hbuild : s.buildNwkFrame header payload aes = (s', .ok f)) (original : NwkHeader)
    (isStatus : Bool) (previousHop hop : ShortAddress) (r : RelayReading) :
    Drained (s'.sendRelay original f isStatus previousHop hop r).1 := by
  unfold NwkLayer.sendRelay
  dsimp only
  split
  · obtain ⟨-, hsent, hretry⟩ := h.built hbuild hop r.first none
    split
    · rename_i heq
      rw [heq] at hsent
      exact hsent.congr rfl rfl rfl
    · rename_i heq
      rw [heq] at hsent hretry
      split
      · exact hsent
      · exact hretry _ _
  · obtain ⟨-, hsent, -⟩ := h.built hbuild hop r.first (r.alternate.filter (·.1 != previousHop))
    refine Drained.finishRelay ?_ original _ r _
    split
    · exact hsent.noteLinkFailure _ _
    · exact hsent

/-- The last part of a relay: the frame is built and sent. -/
theorem Drained.buildAndRelay (h : Drained s) (header relayHeader : NwkHeader) (payload : List UInt8) (isStatus : Bool)
    (previousHop hop : ShortAddress) (r : RelayReading) :
    Drained (match s.buildNwkFrame relayHeader payload r.aes with
      | (s, .error status) => (s, .error status)
      | (s, .ok frame) =>
        if r.sleepyChild then (s, if r.buffered then .ok () else .error .frameNotBuffered)
        else s.sendRelay header frame isStatus previousHop hop r : NwkLayer × Except NwkStatus Unit).1 := by
  split
  · rename_i hbuild
    exact h.built_error hbuild
  · rename_i hbuild
    split
    · exact (h.built hbuild hop r.first none).1
    · exact h.sendRelay hbuild _ _ _ _ _

theorem Drained.relayFrame (h : Drained s) (header : NwkHeader) (payload : List UInt8) (previousHop : ShortAddress)
    (r : RelayReading) : Drained (s.relayFrame header payload previousHop r).1 := by
  unfold NwkLayer.relayFrame
  dsimp only
  generalize (if header.radius = 0 then 0 else header.radius - 1) = newRadius
  split
  · exact h
  · split
    · exact h.relayFrameSourceRouted _ _ _ _
    · split
      · exact h
      · split
        · dsimp only
          split
          · exact h
          · exact h.handleUnroutableRelay _ _
        · have hdiscover : Drained (if header.frameControl.discoverRoute ≠ 0 && r.unconfirmed &&
              !s.routing.hasActiveDiscovery header.dstAddr then (s.discoverRoute header.dstAddr r.discovery).1 else s) := by
            split
            · exact h.discoverRoute _ _
            · exact h
          generalize (if header.frameControl.discoverRoute ≠ 0 && r.unconfirmed &&
            !s.routing.hasActiveDiscovery header.dstAddr then (s.discoverRoute header.dstAddr r.discovery).1 else s) = t
            at hdiscover ⊢
          cases r.childIeee with
          | none => exact hdiscover.buildAndRelay _ _ _ _ _ _ _
          | some childIeee =>
            dsimp only
            refine Drained.buildAndRelay ?_ _ _ _ _ _ _ _
            split
            · exact hdiscover.sendRouteRecordFrom _ _ _ _ _
            · exact hdiscover

theorem Drained.relayRouteRecord (h : Drained s) (header : NwkHeader) (payload : List UInt8) (r : RelayReading) :
    Drained (s.relayRouteRecord header payload r).1 := by
  unfold NwkLayer.relayRouteRecord
  dsimp only
  generalize (if header.radius = 0 then 0 else header.radius - 1) = newRadius
  split
  · exact h
  · split
    · exact h
    · split
      · exact h
      · split
        · exact h
        · split
          · rename_i hbuild
            exact h.built_error hbuild
          · rename_i hop _ _ _ _ hbuild
            obtain ⟨-, hsent, -⟩ := h.built hbuild hop r.first none
            split
            · rename_i heq
              rw [heq] at hsent
              exact hsent
            · rename_i heq
              rw [heq] at hsent
              exact hsent.congr rfl rfl rfl

/-! ## Scheduled broadcasts -/

/-- A frame that has just drawn its counter may be scheduled. -/
theorem Ordered.scheduleBuilt (h : Ordered s) (hbuild : s.buildNwkFrame header payload aes = (s', .ok f))
    {pending : PendingBroadcast} (hframe : pending.frame = f) : Ordered (s'.scheduleBroadcast pending).1 := by
  rw [scheduleBroadcast_fst]
  rcases buildNwkFrame_cases hbuild with ⟨rfl, hf⟩ | ⟨hlt, rfl, hf⟩
  · refine ⟨h.inOrder, h.below, fun e he c hc => ?_⟩
    rcases BroadcastTxTable.mem_schedule he with he | rfl
    · exact h.waiting e he c hc
    · rw [hframe, hf f rfl] at hc
      cases hc
  · have hdraw : Ordered { s with nib := { s.nib with outgoingFrameCounter := s.nib.outgoingFrameCounter + 1 } } :=
      h.draw hlt rfl rfl rfl
    refine ⟨h.inOrder, hdraw.below, fun e he c hc => ?_⟩
    rcases BroadcastTxTable.mem_schedule he with he | rfl
    · exact hdraw.waiting e he c hc
    · rw [hframe, hf f rfl] at hc
      cases hc
      exact ⟨lt_add_one_of_lt hlt, Or.inr h.below⟩

theorem Ordered.built_error (h : Ordered s) {status : NwkStatus}
    (hbuild : s.buildNwkFrame header payload aes = (s', .error status)) : Ordered s' := by
  rcases buildNwkFrame_cases hbuild with ⟨rfl, -⟩ | ⟨hlt, rfl, -⟩
  · exact h
  · exact h.draw hlt rfl rfl rfl

theorem Ordered.relayBroadcast (h : Ordered s) (header : NwkHeader) (payload : List UInt8) (previousHop : ShortAddress)
    (now : UInt32) (aes : Bool) : Ordered (s.relayBroadcast header payload previousHop now aes).1 := by
  unfold NwkLayer.relayBroadcast
  dsimp only
  generalize (if header.radius = 0 then 0 else header.radius - 1) = newRadius
  split
  · exact h
  · split
    · exact h
    · split
      · rename_i hbuild
        exact h.built_error hbuild
      · rename_i hbuild
        exact h.scheduleBuilt hbuild rfl

theorem Ordered.forwardIter (h : Ordered s) (r : UInt32 × Bool) : Ordered (s.forwardIter r) := by
  unfold NwkLayer.forwardIter
  split
  · split
    · exact h
    · have hpop : Ordered { s with pendingRreqForwards := s.pendingRreqForwards.dropLast } :=
        h.of_frames rfl rfl fun e he => ⟨e, he, rfl⟩
      unfold scheduleRouteRequestForward
      split
      · exact hpop
      · dsimp only
        split
        · rename_i hbuild
          exact hpop.built_error hbuild
        · rename_i hbuild
          exact hpop.scheduleBuilt hbuild rfl
  · exact h

theorem Ordered.noteBroadcastRelay (h : Ordered s) (src : ShortAddress) (seq : UInt8) (hop : ShortAddress)
    (allHeard : List ShortAddress → Bool) : Ordered (s.noteBroadcastRelay src seq hop allHeard) := by
  obtain ⟨t, heq, ht⟩ := noteBroadcastRelay_entries s src seq hop allHeard
  rw [heq]
  exact h.of_frames rfl rfl fun e he => (ht e he).imp fun e' h => ⟨h.1, h.2.1⟩

/-! ## Reception of Route Requests -/

theorem Ordered.queueRreqForward (h : Ordered s) (header : NwkHeader) (rreq : RouteRequest) (cost : UInt8)
    (improves : Bool) : Ordered (s.queueRreqForward header rreq cost improves) := by
  obtain ⟨t, queue, heq, ht, -⟩ := queueRreqForward_spec s header rreq cost improves
  rw [heq]
  exact h.of_frames rfl rfl fun e he => ⟨e, ht e he, rfl⟩

theorem Ordered.congr (h : Ordered s) (hair : s'.air = s.air)
    (hcounter : s'.nib.outgoingFrameCounter = s.nib.outgoingFrameCounter) (htx : s'.broadcastTx = s.broadcastTx) :
    Ordered s' :=
  h.of_frames hair hcounter fun e he => ⟨e, htx ▸ he, rfl⟩

theorem Ordered.handleStandard (h : Ordered s) (header : NwkHeader) (rreq : RouteRequest) (r : Reception) (cost : UInt8)
    (improves : Bool) : Ordered (s.handleStandard header rreq r cost improves) := by
  unfold NwkLayer.handleStandard
  dsimp only
  split
  · split
    · exact h.congr rfl rfl rfl
    · exact h.congr rfl rfl rfl
  · -- Whether the discovery was known already, and then whether it is recorded.
    split
    · split
      · refine Ordered.queueRreqForward ?_ _ _ _ _
        exact h.congr rfl rfl rfl
      · exact h.congr rfl rfl rfl
    · split
      · refine Ordered.queueRreqForward ?_ _ _ _ _
        exact h.congr rfl rfl rfl
      · exact h.congr rfl rfl rfl

theorem Ordered.handleManyToOne (h : Ordered s) (header : NwkHeader) (rreq : RouteRequest)
    (concentratorType : ConcentratorType) (prevHop : ShortAddress) (cost : UInt8) (improves : Bool) :
    Ordered (s.handleManyToOne header rreq concentratorType prevHop cost improves) := by
  unfold NwkLayer.handleManyToOne
  split
  · exact h.congr rfl rfl rfl
  · refine Ordered.queueRreqForward ?_ _ _ _ _
    exact h.congr rfl rfl rfl

theorem Ordered.handleRouteRequest (h : Ordered s) (header : NwkHeader) (r : Reception) (payload : List UInt8) :
    Ordered (s.handleRouteRequest header r payload) := by
  unfold NwkLayer.handleRouteRequest
  split
  · exact h
  · split
    · exact h
    · split
      · exact h
      · dsimp only
        split
        · exact h
        · split
          · exact h.congr rfl rfl rfl
          · split
            · refine Ordered.handleManyToOne ?_ _ _ _ _ _ _
              exact h.congr rfl rfl rfl
            · refine Ordered.handleStandard ?_ _ _ _ _ _
              exact h.congr rfl rfl rfl

theorem Ordered.receiveRouteRequest (h : Ordered s) (frame : NwkFrame) (r : Reception) :
    Ordered (s.receiveRouteRequest frame r) := by
  unfold NwkLayer.receiveRouteRequest
  split
  · exact h
  · split
    · exact h
    · split
      · exact h.handleRouteRequest _ _ _
      · exact h

/-! ## The service -/

theorem Ordered.serviceIter {p : NwkLayer × Nat} {r : ServiceReading} (h : Ordered p.1) (hturn : InTurn p r) :
    Ordered (NwkLayer.serviceIter p r).1 := by
  obtain ⟨s, index⟩ := p
  cases hiter : NwkLayer.serviceIter (s, index) r with
  | mk s' index' =>
    rcases NwkLayer.serviceIter_cases hiter with
      ⟨rfl, -⟩ | ⟨e, -, -, rfl⟩ | ⟨e, e', seq, t, hget, hdue, hframe, -, ht, rfl⟩
    · exact h
    · exact h.of_frames rfl rfl fun e he => ⟨e, Table.mem_of_mem_swapRemove he, rfl⟩
    · have hmem := List.mem_of_getElem? hget
      have hframes := NwkLayer.sent_frames hmem hframe ht
      unfold NwkLayer.transmit
      split
      · refine h.concat (f := e.frame) rfl rfl hframes (fun c hc => (h.waiting e hmem c hc).1) fun c hc => ?_
        rcases hturn e c hget hc hdue with hon | holdest
        · exact Or.inl hon
        · exact (h.waiting e hmem c hc).2.imp_right fun habove => ⟨habove, holdest⟩
      · exact h.of_frames rfl rfl hframes

theorem Ordered.serviceBroadcastTx (h : Ordered s) {readings : List ServiceReading}
    (hturn : Along NwkLayer.serviceIter InTurn (s, 0) readings) : Ordered (s.serviceBroadcastTx readings) :=
  run_induct (I := fun p : NwkLayer × Nat => Ordered p.1) (fun _ _ h ht => h.serviceIter ht) h hturn

theorem Ordered.step (h : Ordered s) {op : NwkOp} (hop : Unhurried s op) : Ordered (op.step s) := by
  cases op with
  | dataRequest => exact (Drained.nldeDataRequest ⟨h, hop⟩ _ _ _ _ _ _).ordered
  | relay => exact (Drained.relayFrame ⟨h, hop⟩ _ _ _ _).ordered
  | relayRecord => exact (Drained.relayRouteRecord ⟨h, hop⟩ _ _ _).ordered
  | relayBroadcast => exact h.relayBroadcast _ _ _ _ _
  | noteRelay => exact h.noteBroadcastRelay _ _ _ _
  | routeRequest => exact h.receiveRouteRequest _ _
  | forwards readings => exact run_invariant (I := Ordered) (fun _ r h => h.forwardIter r) h readings
  | service => exact h.serviceBroadcastTx hop

end

/-- **On-air frame-counter order.**  A router that has sent and scheduled nothing yet keeps the order
    along every run of data requests, relays, forwards and services that meets the condition. -/
theorem counters_in_order {s : NwkLayer} (hair : s.air = []) (htx : s.broadcastTx = []) {ops : List NwkOp}
    (hops : Along NwkOp.step Unhurried s ops) : InOrder (run NwkOp.step s ops).air := by
  have hinit : Ordered s := by
    refine ⟨hair ▸ InOrder.nil, ?_, ?_⟩
    · rintro c ⟨f, hf, -⟩
      rw [hair] at hf
      cases hf
    · intro e he
      rw [htx] at he
      cases he
  exact (run_induct (I := Ordered) (fun _ _ h ho => h.step ho) hinit hops).inOrder

/-! ## Runs -/

/-- A router with a network key. -/
def securedRouter : NwkLayer :=
  { Mesh.fresh 1 with
    nib := { Nib.new with networkAddress := 1, securityEnabled := true, outgoingFrameCounterLimit := 100 }
    security := NwkSecurity.new.setNetworkKey (.replicate 16 1) 0 }

/-- A secured broadcast of device 5. -/
def announcement : NwkHeader :=
  ⟨⟨NwkFrameType.data, 2, 0, false, true, false, false, false, false⟩, 0xFFFF, 5, 5, 9, none, none, none, none⟩

/-- An answer to a device 2 that acknowledges. -/
def answer : NwkOp :=
  .dataRequest 2 10 [2] true false
    ⟨.ok 2, false, ⟨true, .unroutable, 0⟩, ⟨true, .unroutable, 0⟩, true, false, false, .confirmed, none, 0, fun _ => false⟩

def serveOne : NwkOp := .service [⟨0x70000000, .confirmed, 0x70000000, fun _ => false⟩]

instance OnAir.decidable (air : List NwkFrame) (c : UInt32) : Decidable (OnAir air c) :=
  inferInstanceAs (Decidable (∃ f ∈ air, f.frameCounter = some c))

/-- A relay that is served before the next frame is sent keeps the order. -/
theorem served_relay_in_order :
    InOrder (run NwkOp.step securedRouter [.relayBroadcast announcement [1] 5 0 true, serveOne, answer]).air := by
  refine counters_in_order rfl rfl ⟨trivial, ⟨fun e c he hc hdue => ?_, trivial⟩, fun e he c hc => ?_, trivial⟩
  · have hall : ∀ e' ∈ (securedRouter.relayBroadcast announcement [1] 5 0 true).1.broadcastTx,
        e'.frame.frameCounter = some 0 := by decide +kernel
    refine Or.inr fun e' he' c' hc' => Or.inr ?_
    have hzero := Option.some.inj ((hall e (List.mem_of_getElem? he)).symm.trans hc)
    have hzero' := Option.some.inj ((hall e' he').symm.trans hc')
    rw [← hzero, ← hzero']
    exact UInt32.le_refl 0
  · have hall : ∀ e ∈ (run NwkOp.step securedRouter [.relayBroadcast announcement [1] 5 0 true, serveOne]).broadcastTx,
        e.frame.frameCounter = some 0 := by decide +kernel
    have hair : OnAir (run NwkOp.step securedRouter [.relayBroadcast announcement [1] 5 0 true, serveOne]).air 0 := by
      decide +kernel
    rw [← Option.some.inj ((hall e he).symm.trans hc)]
    exact hair

/-- A data request overtakes the broadcast that waits out its jitter. -/
theorem relay_overtaken :
    ¬ InOrder (run NwkOp.step securedRouter [.relayBroadcast announcement [1] 5 0 true, answer, serveOne]).air := by
  intro h
  have hcounters : (run NwkOp.step securedRouter
      [.relayBroadcast announcement [1] 5 0 true, answer, serveOne]).air.map (·.frameCounter) = [some 1, some 0] := by
    decide +kernel
  obtain ⟨f, rest, hair, hf, hrest⟩ := List.map_eq_cons_iff.mp hcounters
  obtain ⟨g, rest', hair', hg, -⟩ := List.map_eq_cons_iff.mp hrest
  rcases h [f] g rest' 0 (by rw [hair, hair']; rfl) hg with hon | habove
  · rw [onAir_singleton, hf] at hon
    cases hon
  · exact absurd (habove 1 (onAir_singleton.mpr hf)) (by decide)

end Zigbee.Nwk
