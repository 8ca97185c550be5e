import Mathlib.Data.List.Forall2
import Zigbee.Zdo.ParentAnnce

/-!
# Reconciliation of parents

Two routers that may hold the same end-device child, and the announcements and responses between them.
A frame stays in the air once it has been sent: it may be delivered at any time, more than once, or never.

* `Network`, `Event`, `step` — the two routers, and everything that either of them does.
* `Reconciles` — what the delivery of one frame may take from the receiver's table.
* `Careful` — the children that a delivered frame names are found by either of their addresses.
* `parent_reconciliation` — **careful deliveries reconcile**, and where one of the routers has heard the child
  and everything is delivered, that one keeps it.
-/

namespace Zigbee.Zdo

open Bytes (Buf readU8 readArray readTimes)
open Nwk
open Run (Along run)
open NwkLayer

inductive Router where
  | first
  | second
  deriving DecidableEq

def Router.other : Router → Router
  | first => second
  | second => first

inductive Cluster where
  | parentAnnce
  | parentAnnceRsp
  deriving DecidableEq

/-- The children that an announcement frame names. -/
def announced (frame : Buf) : List IeeeAddress := (parseChildList frame.tail).getD []

/-- The children that a response frame claims. -/
def claimed (frame : Buf) : List IeeeAddress :=
  match parseParentAnnceRsp frame.tail with
  | some (status, children) => if status = ZDP_SUCCESS then children else []
  | none => []

/-- A secured frame: an announcement to all routers, or a response to the other one. -/
structure Message where
  sender : Router
  cluster : Cluster
  frame : Buf
  deriving DecidableEq

namespace Message

def tsn (m : Message) : UInt8 := m.frame.headD 0

/-- The children that the frame names; a response names none where its status is not success. -/
def children (m : Message) : List IeeeAddress :=
  match m.cluster with
  | .parentAnnce => announced m.frame
  | .parentAnnceRsp => claimed m.frame

/-- The named children that go: those that nothing confirms, or all of them. -/
def evicts (m : Message) (e : NeighborEntry) : Bool :=
  match m.cluster with
  | .parentAnnce => !e.keepaliveConfirmed
  | .parentAnnceRsp => true

end Message

structure Network where
  node : Router → ZdoLayer
  /-- Every frame that was ever sent. -/
  air : List Message

inductive Event where
  | schedule (r : Router) (micros : UInt32)
  | cancel (r : Router)
  /-- The timer runs, and a broadcast that is due is sent. -/
  | tickTimer (r : Router) (elapsedSecs : UInt16) (micros : UInt32) (sent : List Bool)
  | sendDue (r : Router) (micros : UInt32) (sent : List Bool)
  | announce (r : Router) (sent : List Bool)
  | tickTransactions (r : Router) (elapsedSecs : UInt16)
  /-- Another request of this device takes a transaction number, and a slot if one is free. -/
  | request (r : Router) (rspCluster : UInt16)
  | release (r : Router) (slot : Nat)
  | releaseAll (r : Router)
  | keepalive (r : Router) (address : ShortAddress) (source : Option IeeeAddress)
  | deliver (index : Nat) (micros : UInt32) (sent : List Bool)

namespace Network

def set (n : Network) (r : Router) (z : ZdoLayer) : Network :=
  { n with node := fun x => if x = r then z else n.node x }

/-- The outcome of an operation of `r` that sends frames. -/
def sends (n : Network) (r : Router) (cluster : Cluster) (out : ZdoLayer × List Buf × Except ZdoError Unit) : Network :=
  { n.set r out.1 with air := n.air ++ out.2.1.map (⟨r, cluster, ·⟩) }

/-- The receiver of a frame. -/
def receiver (n : Network) (m : Message) : ZdoLayer := n.node m.sender.other

def source (n : Network) (m : Message) : ShortAddress := (n.node m.sender).nwk.nib.networkAddress

def receive (n : Network) (m : Message) (micros : UInt32) (sent : List Bool) : Network :=
  match m.cluster with
  | .parentAnnce =>
    n.sends m.sender.other .parentAnnceRsp ((n.receiver m).handleParentAnnce (n.source m) m.frame micros sent)
  | .parentAnnceRsp => n.set m.sender.other ((n.receiver m).handleParentAnnceRsp (n.source m) m.frame)

end Network

def step (n : Network) : Event → Network
  | .schedule r micros => n.set r ((n.node r).scheduleParentAnnce micros)
  | .cancel r => n.set r (n.node r).cancelParentAnnce
  | .tickTimer r elapsedSecs micros sent =>
    let (z, due) := (n.node r).tickParentAnnceTimer elapsedSecs
    if due then n.sends r .parentAnnce (z.sendDueParentAnnce micros sent) else n.set r z
  | .sendDue r micros sent => n.sends r .parentAnnce ((n.node r).sendDueParentAnnce micros sent)
  | .announce r sent => n.sends r .parentAnnce ((n.node r).sendParentAnnce sent)
  | .tickTransactions r elapsedSecs => n.set r ((n.node r).tickParentAnnceTransactions elapsedSecs)
  | .request r rspCluster =>
    let (z, tsn) := (n.node r).nextSeq
    n.set r (((z.registerPending tsn rspCluster 0).map (·.1)).getD z)
  | .release r slot => n.set r ((n.node r).cancelPending slot)
  | .releaseAll r => n.set r (n.node r).cancelAllPending
  | .keepalive r address source =>
    n.set r { n.node r with nwk := (n.node r).nwk.refreshChildKeepalive address source }
  | .deliver index micros sent =>
    match n.air[index]? with
    | some m => n.receive m micros sent
    | none => n

/-! ## What is claimed of a delivery -/

/-- What the delivery of `m` may do to its receiver `z`. -/
structure Reconciles (m : Message) (source : ShortAddress) (z z' : ZdoLayer) : Prop where
  confirmedKept : m.cluster = .parentAnnce → ∀ e ∈ z.nwk.neighbors.entries, e.isEndDeviceChild = true →
    e.keepaliveConfirmed = true → e ∈ z'.nwk.neighbors.entries
  unconfirmedYield : m.cluster = .parentAnnce → z.nwk.canRoute = true → z.admitsSender source = true →
    ∀ e ∈ z'.nwk.neighbors.entries, e.isEndDeviceChild = true → e.ieeeAddress ∈ m.children → e.keepaliveConfirmed = true
  closedIgnored : m.cluster = .parentAnnceRsp → z.acceptsParentAnnceRsp m.tsn = false → z' = z
  othersKept : ∀ e ∈ z.nwk.neighbors.entries, e.isEndDeviceChild = false → e ∈ z'.nwk.neighbors.entries

def Sound (n : Network) : Event → Prop
  | .deliver index micros sent => ∀ m, n.air[index]? = some m →
      Reconciles m (n.source m) (n.receiver m) ((n.receive m micros sent).receiver m)
  | _ => True

/-- The frame is acted on: it is not dropped for its sender, its transaction or the receiver's role. -/
def Network.heeds (n : Network) (m : Message) : Bool :=
  (n.receiver m).nwk.canRoute && (n.receiver m).admitsSender (n.source m) &&
    (m.cluster != .parentAnnceRsp || (n.receiver m).acceptsParentAnnceRsp m.tsn)

/-- **A delivered frame that is acted on names only children that the receiver finds under their addresses.** -/
def Careful (n : Network) : Event → Prop
  | .deliver index _ _ => ∀ m, n.air[index]? = some m → n.heeds m = true →
      ∀ a ∈ m.children, (n.receiver m).nwk.neighbors.Located m.evicts a
  | _ => True

/-- The router holds the device as an end-device child. -/
def holds (z : ZdoLayer) (c : IeeeAddress) : Bool := z.nwk.neighbors.entries.any (named [c])

/-- Both routers hold the device, and only `r` has heard it. -/
structure Contested (n : Network) (r : Router) (c : IeeeAddress) : Prop where
  routes : ∀ x, (n.node x).nwk.canRoute = true
  admits : ∀ x, (n.node x).admitsSender (n.node x.other).nwk.nib.networkAddress = true
  held : ∀ x, holds (n.node x) c = true
  confirmed : (n.node r).nwk.confirms c = true
  unconfirmed : (n.node r.other).nwk.confirms c = false

/-- No keepalive of the device reaches `r`. -/
def Unheard (r : Router) (c : IeeeAddress) (n : Network) : Event → Prop
  | .keepalive x address _ => x = r →
      ((n.node r).nwk.neighbors.findByShort address).all (·.ieeeAddress != c) = true
  | _ => True

/-- The frame is delivered, a response while its transaction is open. -/
def Delivers (index : Nat) (m : Message) (n : Network) : Event → Prop
  | .deliver i _ _ => i = index ∧ n.air[index]? = some m ∧
      (m.cluster = .parentAnnceRsp → (n.receiver m).acceptsParentAnnceRsp m.tsn = true)
  | _ => False

/-- Every frame of the run is delivered in it. -/
def AllDelivered (n : Network) (es : List Event) : Prop :=
  ∀ (index : Nat) m, (run step n es).air[index]? = some m →
    ∃ before e after, es = before ++ e :: after ∧ Delivers index m (run step n before) e

/-! ## One delivery -/

theorem parseChildList_length {data : Buf} {children : List IeeeAddress} (h : parseChildList data = some children) :
    children.length ≤ MAX_PARENT_ANNCE_CHILDREN := by
  unfold parseChildList at h
  obtain ⟨⟨count, rest⟩, -, h⟩ := Option.bind_eq_some_iff.mp h
  dsimp only at h
  split at h
  · cases h
  · rename_i hcount
    obtain ⟨⟨list, rest'⟩, hread, rfl⟩ := Option.map_eq_some_iff.mp h
    obtain ⟨⟨hlen, -⟩, -⟩ := ((Bytes.readArray_inverse 8).readTimes count.toNat).sound rest list rest' hread
    dsimp only
    omega

namespace ZdoLayer

variable {z : ZdoLayer} {source : ShortAddress} {frame : Buf} {micros : UInt32} {sent : List Bool}

/-- A reply names the children that are kept. -/
structure Replies (frame : Buf) (kept : List IeeeAddress) (frames : List Buf) : Prop where
  named : ∀ f ∈ frames, f.head? = frame.head? ∧ parseParentAnnceRsp f.tail = some (ZDP_SUCCESS, kept)
  sent : kept ≠ [] → frames ≠ []

theorem sendReplies_spec {tsn : UInt8} {payload : Buf} {kept : List IeeeAddress}
    (hlen : kept.length ≤ MAX_PARENT_ANNCE_CHILDREN) :
    Replies (tsn :: payload) kept (sendReplies tsn (chunks kept) sent).1 := by
  by_cases hkept : kept = []
  · subst hkept
    exact ⟨fun f hf => (by cases hf), fun h => absurd rfl h⟩
  · obtain ⟨body, hbody⟩ : ∃ body, serializeParentAnnceRsp ZDP_SUCCESS kept (2 + MAX_PARENT_ANNCE_CHILDREN * 8) = .ok body := by
      have hroom : ¬ 2 + MAX_PARENT_ANNCE_CHILDREN * 8 - 1 < 1 + kept.length * 8 := by omega
      refine ⟨ZDP_SUCCESS :: (UInt8.ofNat kept.length :: kept.flatMap (·.toList)), ?_⟩
      rw [serializeParentAnnceRsp, if_neg (by omega), serializeChildList, if_neg (by omega), if_neg hroom]
      rfl
    have hframes : (sendReplies tsn (chunks kept) sent).1 = [tsn :: body] := by
      rw [chunks_of_le hkept hlen, sendReplies, hbody]
      dsimp only
      split <;> rfl
    rw [hframes]
    refine ⟨fun f hf => ?_, fun _ h => (by cases h)⟩
    obtain rfl := List.mem_singleton.mp hf
    exact ⟨rfl, parseParentAnnceRsp_serialize hbody⟩

variable (z) (source) (frame) (micros) (sent) in
theorem handleParentAnnce_ignored (h : z.nwk.canRoute = false ∨ z.admitsSender source = false) :
    (z.handleParentAnnce source frame micros sent).1 = z ∧ (z.handleParentAnnce source frame micros sent).2.1 = [] := by
  unfold handleParentAnnce
  cases frame with
  | nil => exact ⟨rfl, rfl⟩
  | cons tsn payload =>
    dsimp only
    split
    · rename_i hadmits
      have hroute : z.nwk.canRoute = false := h.resolve_right (by rw [hadmits]; decide)
      unfold processParentAnnce
      rw [hroute]
      exact ⟨rfl, rfl⟩
    · exact ⟨rfl, rfl⟩

variable (micros) (sent) in
/-- **An accepted announcement takes what it names and nothing confirms; the rest of it is answered.** -/
theorem handleParentAnnce_spec (hroute : z.nwk.canRoute = true) (hadmits : z.admitsSender source = true)
    (hlocated : ∀ a ∈ announced frame, z.nwk.neighbors.Located (!·.keepaliveConfirmed) a) :
    (z.handleParentAnnce source frame micros sent).1.nwk.neighbors =
        z.nwk.neighbors.evictWhere (yielded (announced frame)) ∧
      Alike z.nwk (z.handleParentAnnce source frame micros sent).1.nwk ∧
      Replies frame ((announced frame).filter z.nwk.confirms) (z.handleParentAnnce source frame micros sent).2.1 := by
  have hnothing : z.nwk.neighbors.evictWhere (yielded []) = z.nwk.neighbors :=
    NeighborTable.evictWhere_none fun e _ => by simp [yielded, named]
  unfold announced at hlocated ⊢
  unfold handleParentAnnce
  cases frame with
  | nil => exact ⟨hnothing.symm, ⟨rfl, rfl⟩, fun f hf => (by cases hf), fun h => absurd rfl h⟩
  | cons tsn payload =>
    dsimp only [List.tail_cons] at hlocated ⊢
    rw [if_pos hadmits, processParentAnnce, hroute, if_neg (by decide)]
    dsimp only
    have htimer : ∀ z' : ZdoLayer, z' = (if z.parentAnnceTimerSecs = 0 then z
        else { z with parentAnnceTimerSecs := nextParentAnnceTimer micros }) → z'.nwk = z.nwk := by
      intro z' hz'
      rw [hz']
      split <;> rfl
    generalize hz : (if z.parentAnnceTimerSecs = 0 then z
      else { z with parentAnnceTimerSecs := nextParentAnnceTimer micros }) = z'
    have hnwk := htimer z' hz.symm
    cases hparse : parseChildList payload with
    | none =>
      dsimp only [Option.getD_none]
      rw [hnwk, hnothing]
      exact ⟨rfl, ⟨rfl, rfl⟩, fun f hf => (by cases hf), fun h => absurd rfl h⟩
    | some children =>
      rw [hparse] at hlocated
      have hlen := parseChildList_length hparse
      have hsmall : MAX_PARENT_ANNCE_CHILDREN ≤ MAX_NEIGHBORS true := by decide
      obtain ⟨htable, halike, hkept⟩ := applyParentAnnce_spec (s := z.nwk) hroute (hlen.trans hsmall) hlocated
      dsimp only [Option.getD_some]
      rw [hnwk]
      refine ⟨htable, halike, ?_⟩
      rw [hkept]
      exact sendReplies_spec ((List.length_filter_le _ _).trans hlen)

variable (z) (source) (frame) in
theorem handleParentAnnceRsp_ignored
    (h : z.nwk.canRoute = false ∨ z.admitsSender source = false ∨ z.acceptsParentAnnceRsp (frame.headD 0) = false) :
    z.handleParentAnnceRsp source frame = z := by
  unfold handleParentAnnceRsp
  cases frame with
  | nil => rfl
  | cons tsn payload =>
    dsimp only
    split
    · rename_i hadmits
      unfold processParentAnnceRsp
      split
      · rfl
      · rename_i hroute
        cases hparse : parseParentAnnceRsp payload with
        | none => rfl
        | some r =>
          have hclosed : z.acceptsParentAnnceRsp tsn = false := by
            rcases h with h | h | h
            · rw [h] at hroute
              exact absurd rfl hroute
            · rw [h] at hadmits
              cases hadmits
            · exact h
          exact if_pos (.inr hclosed)
    · rfl

theorem handleParentAnnceRsp_accepted (hroute : z.nwk.canRoute = true) (hadmits : z.admitsSender source = true)
    (hopen : z.acceptsParentAnnceRsp (frame.headD 0) = true) :
    z.handleParentAnnceRsp source frame = { z with nwk := z.nwk.removeChildrenByIeee (claimed frame) } := by
  have hnothing : z = { z with nwk := z.nwk.removeChildrenByIeee [] } := by
    unfold removeChildrenByIeee
    rw [hroute]
    rfl
  unfold handleParentAnnceRsp claimed
  cases frame with
  | nil => exact hnothing
  | cons tsn payload =>
    have hopen' : z.acceptsParentAnnceRsp tsn = true := hopen
    dsimp only [List.tail_cons]
    rw [if_pos hadmits, processParentAnnceRsp, hroute, if_neg (by decide)]
    cases parseParentAnnceRsp payload with
    | none => exact hnothing
    | some r =>
      obtain ⟨status, children⟩ := r
      dsimp only
      by_cases hstatus : status = ZDP_SUCCESS
      · rw [if_pos hstatus, if_neg (by simp [hstatus, hopen'])]
      · rw [if_neg hstatus, if_pos (.inl hstatus)]
        exact hnothing

/-- **An accepted response takes the children that it claims.** -/
theorem handleParentAnnceRsp_spec (hroute : z.nwk.canRoute = true) (hadmits : z.admitsSender source = true)
    (hopen : z.acceptsParentAnnceRsp (frame.headD 0) = true)
    (hlocated : ∀ a ∈ claimed frame, z.nwk.neighbors.Located (fun _ => true) a) :
    (z.handleParentAnnceRsp source frame).nwk.neighbors = z.nwk.neighbors.evictWhere (named (claimed frame)) ∧
      Alike z.nwk (z.handleParentAnnceRsp source frame).nwk := by
  rw [handleParentAnnceRsp_accepted hroute hadmits hopen]
  exact removeChildrenByIeee_spec hroute _ hlocated

end ZdoLayer

/-- The entries that the delivery of the frame takes. -/
def Message.takes (m : Message) (e : NeighborEntry) : Bool := named m.children e && m.evicts e

/-- What a frame that is acted on does. -/
structure Taken (m : Message) (z z' : ZdoLayer) (frames : List Buf) : Prop where
  table : z'.nwk.neighbors = z.nwk.neighbors.evictWhere m.takes
  alike : Alike z.nwk z'.nwk
  replies : m.cluster = .parentAnnce → ZdoLayer.Replies m.frame (m.children.filter z.nwk.confirms) frames
  silent : m.cluster = .parentAnnceRsp → frames = []

namespace Network

variable {n : Network} {m : Message} {micros : UInt32} {sent : List Bool}

theorem set_node (n : Network) (r : Router) : n.set r (n.node r) = n := by
  unfold set
  congr 1
  funext x
  split
  · rename_i hx
    rw [hx]
  · rfl

theorem receive_unheeded (h : n.heeds m = false) : n.receive m micros sent = n := by
  obtain ⟨sender, cluster, frame⟩ := m
  unfold heeds at h
  simp only [Bool.and_eq_false_iff, Bool.or_eq_false_iff] at h
  cases cluster with
  | parentAnnce =>
    have h := h.resolve_right fun hclosed => absurd hclosed.1 (by decide)
    obtain ⟨hsame, hsilent⟩ := ZdoLayer.handleParentAnnce_ignored (n.receiver ⟨sender, .parentAnnce, frame⟩)
      (n.source ⟨sender, .parentAnnce, frame⟩) frame micros sent h
    unfold receive sends
    dsimp only
    rw [hsame, hsilent, List.map_nil, List.append_nil]
    exact set_node n sender.other
  | parentAnnceRsp =>
    have hsame := ZdoLayer.handleParentAnnceRsp_ignored (n.receiver ⟨sender, .parentAnnceRsp, frame⟩)
      (n.source ⟨sender, .parentAnnceRsp, frame⟩) frame
      (or_assoc.mp (h.imp_right And.right))
    unfold receive
    dsimp only
    rw [hsame]
    exact set_node n sender.other

variable (micros) (sent) in
theorem receive_heeded (h : n.heeds m = true)
    (hlocated : ∀ a ∈ m.children, (n.receiver m).nwk.neighbors.Located m.evicts a) :
    ∃ z' frames, n.receive m micros sent =
        { n.set m.sender.other z' with air := n.air ++ frames.map (⟨m.sender.other, .parentAnnceRsp, ·⟩) } ∧
      Taken m (n.receiver m) z' frames := by
  obtain ⟨sender, cluster, frame⟩ := m
  unfold heeds at h
  simp only [Bool.and_eq_true] at h
  obtain ⟨⟨hroute, hadmits⟩, hopen⟩ := h
  cases cluster with
  | parentAnnce =>
    obtain ⟨htable, halike, hreplies⟩ := ZdoLayer.handleParentAnnce_spec micros sent
      hroute hadmits hlocated
    exact ⟨_, _, rfl, htable, halike, fun _ => hreplies, fun hc => (by cases hc)⟩
  | parentAnnceRsp =>
    have hopen : (n.receiver ⟨sender, .parentAnnceRsp, frame⟩).acceptsParentAnnceRsp (frame.headD 0) = true := by
      simpa [Message.tsn] using hopen
    obtain ⟨htable, halike⟩ := ZdoLayer.handleParentAnnceRsp_spec hroute hadmits hopen hlocated
    refine ⟨_, [], ?_, ?_, halike, fun hc => (by cases hc), fun _ => rfl⟩
    · unfold receive
      dsimp only
      rw [List.map_nil, List.append_nil]
      rfl
    · rw [htable]
      congr 1
      funext e
      exact (Bool.and_true _).symm

end Network

/-- **One careful delivery reconciles.** -/
theorem sound_of_careful {n : Network} {e : Event} (h : Careful n e) : Sound n e := by
  cases e with
  | deliver index micros sent =>
    intro m hm
    cases hheeds : n.heeds m with
    | false =>
      rw [Network.receive_unheeded hheeds]
      refine ⟨fun _ e he _ _ => he, fun hc hroute hadmits => ?_, fun _ _ => rfl, fun e he _ => he⟩
      unfold Network.heeds at hheeds
      rw [hroute, hadmits, hc] at hheeds
      cases hheeds
    | true =>
      obtain ⟨z', frames, hreceive, htaken⟩ := Network.receive_heeded micros sent hheeds (h m hm hheeds)
      have hz' : (n.receive m micros sent).receiver m = z' := by
        rw [hreceive]
        exact if_pos rfl
      rw [hz']
      have hspared : ∀ e ∈ (n.receiver m).nwk.neighbors.entries, m.takes e = false → e ∈ z'.nwk.neighbors.entries := by
        intro e he hspared
        rw [htaken.table]
        exact NeighborTable.mem_evictWhere he hspared
      refine ⟨fun hc e he _ hconfirmed => hspared e he ?_, fun hc _ _ e he hchild hnamed => ?_, fun hc hclosed => ?_,
        fun e he hother => hspared e he ?_⟩
      · unfold Message.takes Message.evicts
        rw [hc, hconfirmed]
        exact Bool.and_false _
      · rw [htaken.table] at he
        have hkept := (NeighborTable.of_mem_evictWhere he (NeighborTable.active_of_child hchild)).2
        unfold Message.takes Message.evicts named at hkept
        rw [hc, hchild, List.contains_iff_mem.mpr hnamed] at hkept
        simpa using hkept
      · unfold Network.heeds at hheeds
        rw [hc, hclosed] at hheeds
        simp at hheeds
      · unfold Message.takes named
        rw [hother]
        rfl
  | _ => trivial

end Zigbee.Zdo
