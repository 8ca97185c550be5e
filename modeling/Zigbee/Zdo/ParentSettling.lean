import Zigbee.Nwk.NeighborIdentity
import Zigbee.Zdo.ParentReconciliation

/-!
# How a contest for a child ends

What the steps of two routers leave alone, and from it how their runs end.

* `ZdoLayer.Quiet` — the neighbour table has changed at most in its announcement flags.
* `Steady` — a router that has heard the child stays its parent, and one that has not does not become it.
* `parent_reconciliation` — **careful deliveries reconcile**, and where one of the routers has heard the child
  and everything is delivered, that one keeps it.
-/

namespace Zigbee.Zdo

open Bytes (Buf)
open Nwk
open Run (Along run)
open NeighborEntry NwkLayer NeighborTable

/-! ## Announcement flags -/

namespace ZdoLayer

variable {z : ZdoLayer}

theorem registerPending_nwk {tsn : UInt8} {rspCluster remainingSecs : UInt16} {r : ZdoLayer × Nat}
    (h : z.registerPending tsn rspCluster remainingSecs = some r) : r.1.nwk = z.nwk := by
  obtain ⟨i, -, rfl⟩ := Option.map_eq_some_iff.mp h
  rfl

/-- A request that finds no free slot is not sent. -/
theorem takeSlot_nwk (z : ZdoLayer) (tsn : UInt8) (rspCluster : UInt16) :
    (((z.registerPending tsn rspCluster 0).map (·.1)).getD z).nwk = z.nwk := by
  cases hregister : z.registerPending tsn rspCluster 0 with
  | none => rfl
  | some slot => exact registerPending_nwk hregister

theorem sendChunk_nwk (z : ZdoLayer) (chunk : List IeeeAddress) (sent : Bool) : (z.sendChunk chunk sent).1.nwk = z.nwk := by
  unfold sendChunk
  dsimp only
  split
  · rfl
  · split
    · rfl
    · rename_i z' pending hregister
      have hnwk : z'.nwk = z.nwk := registerPending_nwk hregister
      split
      · exact hnwk
      · exact hnwk

theorem sendChunks_nwk (chunks : List (List IeeeAddress)) (sent : List Bool) (z : ZdoLayer) :
    (sendChunks chunks sent z).1.nwk = z.nwk := by
  induction chunks generalizing sent z with
  | nil => rfl
  | cons chunk chunks ih =>
    have hchunk := sendChunk_nwk z chunk (sent.headD true)
    rw [sendChunks]
    split
    · rename_i h
      rw [h] at hchunk
      exact hchunk
    · rename_i h
      rw [h] at hchunk
      exact (ih sent.tail _).trans hchunk

theorem sendParentAnnceChildren_nwk (z : ZdoLayer) (children : List IeeeAddress) (sent : List Bool) :
    (z.sendParentAnnceChildren children sent).1.nwk = z.nwk := sendChunks_nwk _ _ _

theorem sendParentAnnce_nwk (z : ZdoLayer) (sent : List Bool) : (z.sendParentAnnce sent).1.nwk = z.nwk := by
  unfold sendParentAnnce
  split
  · rfl
  · exact sendParentAnnceChildren_nwk _ _ _

theorem sendNextChunk_quiet (z : ZdoLayer) (micros : UInt32) (sent : List Bool) :
    z.nwk.Quiet (z.sendNextChunk micros sent).1.nwk := by
  have htake := z.nwk.takeParentAnnceChunk_quiet MAX_PARENT_ANNCE_CHILDREN
  unfold sendNextChunk
  dsimp only
  split
  · exact htake
  · have hnwk := sendParentAnnceChildren_nwk { z with nwk := (z.nwk.takeParentAnnceChunk MAX_PARENT_ANNCE_CHILDREN).1 } (z.nwk.takeParentAnnceChunk MAX_PARENT_ANNCE_CHILDREN).2 sent
    split
    · rename_i h
      rw [h] at hnwk
      exact hnwk ▸ htake
    · rename_i h
      rw [h] at hnwk
      dsimp only at hnwk ⊢
      split
      · exact hnwk ▸ htake
      · exact hnwk ▸ htake

theorem sendDueParentAnnce_quiet (z : ZdoLayer) (micros : UInt32) (sent : List Bool) :
    z.nwk.Quiet (z.sendDueParentAnnce micros sent).1.nwk := by
  have hmark := z.nwk.markParentAnncePending_quiet
  unfold sendDueParentAnnce
  split
  · exact .refl _
  · split
    · dsimp only
      split
      · exact hmark
      · exact hmark.trans (sendNextChunk_quiet
          { z with nwk := z.nwk.markParentAnncePending.1, parentAnnceSequenceActive := true } micros sent)
    · split
      · exact .refl _
      · exact sendNextChunk_quiet z micros sent

theorem scheduleParentAnnce_quiet (z : ZdoLayer) (micros : UInt32) : z.nwk.Quiet (z.scheduleParentAnnce micros).nwk := by
  unfold scheduleParentAnnce
  split
  · exact .refl _
  · exact z.nwk.clearParentAnncePending_quiet

theorem tickParentAnnceTimer_nwk (z : ZdoLayer) (elapsedSecs : UInt16) : (z.tickParentAnnceTimer elapsedSecs).1.nwk = z.nwk := by
  unfold tickParentAnnceTimer
  split
  · rfl
  · rfl

end ZdoLayer

/-! ## Steady steps -/

namespace ZdoLayer

variable {z z' : ZdoLayer}

theorem admitsSender_of_bare (hcount : z'.nwk.neighbors.count = z.nwk.neighbors.count)
    (hbare : z'.nwk.neighbors.entries.map bare = z.nwk.neighbors.entries.map bare)
    (a : ShortAddress) : z'.admitsSender a = z.admitsSender a := by
  have hfind := findByShort_bare hcount hbare a
  have hany : ∀ o : Option NeighborEntry, o.any (·.deviceType == .endDevice) =
      (o.map bare).any (·.deviceType == .endDevice) := by
    intro o
    cases o <;> rfl
  unfold admitsSender
  rw [hany, hany (z.nwk.neighbors.findByShort a), hfind]

theorem holds_of_bare (hbare : z'.nwk.neighbors.entries.map bare = z.nwk.neighbors.entries.map bare)
    (c : IeeeAddress) : holds z' c = holds z c := by
  have hany : ∀ l : List NeighborEntry, l.any (named [c]) = (l.map bare).any (named [c]) := by
    intro l
    rw [List.any_map]
    rfl
  unfold holds
  rw [hany, hany z.nwk.neighbors.entries, hbare]

/-- The first match of a short address is no end device, also once end-device children are gone. -/
theorem find?_evict {p : NeighborEntry → Bool} (hp : ∀ e, p e = true → e.isEndDeviceChild = true) (a : ShortAddress)
    (l : List NeighborEntry)
    (h : (l.find? fun e => e.active && e.networkAddress == a).any (·.deviceType == .endDevice) = false) :
    ((l.map fun e => if p e then e.drop else e).find? fun e => e.active && e.networkAddress == a).any
      (·.deviceType == .endDevice) = false := by
  induction l with
  | nil => rfl
  | cons e l ih =>
    rw [List.map_cons, List.find?_cons]
    rw [List.find?_cons] at h
    cases hpe : p e with
    | true =>
      have hmatch : (e.drop.active && e.drop.networkAddress == a) = false := rfl
      rw [if_pos rfl, hmatch]
      refine ih ?_
      split at h
      · have hchild := hp e hpe
        simp only [isEndDeviceChild, Bool.and_eq_true] at hchild
        rw [Option.any_some, hchild.2] at h
        cases h
      · exact h
    | false =>
      rw [if_neg (by decide)]
      split
      · rename_i hmatch
        rw [hmatch] at h
        exact h
      · rename_i hmatch
        rw [hmatch] at h
        exact ih h

theorem admitsSender_evict {p : NeighborEntry → Bool} (hp : ∀ e, p e = true → e.isEndDeviceChild = true)
    (htable : z'.nwk.neighbors = z.nwk.neighbors.evictWhere p) {a : ShortAddress} (h : z.admitsSender a = true) :
    z'.admitsSender a = true := by
  unfold admitsSender at h ⊢
  rw [Bool.and_eq_true, Bool.not_eq_true'] at h ⊢
  refine ⟨h.1, ?_⟩
  have hfind := find?_evict hp a (z.nwk.neighbors.entries.take z.nwk.neighbors.count) h.2
  rw [List.map_take] at hfind
  rw [htable]
  exact hfind

end ZdoLayer

/-- `x` goes from `z` to `z'` without deciding the contest against `r`: what `r` has heard it keeps, and the other
    router hears nothing of the child and does not take it back. -/
structure Steady (r x : Router) (c : IeeeAddress) (z z' : ZdoLayer) : Prop where
  alike : Alike z.nwk z'.nwk
  admits : ∀ a, z.admitsSender a = true → z'.admitsSender a = true
  confirmed : x = r → z.nwk.confirms c = true → z'.nwk.confirms c = true
  unconfirmed : x = r.other → z.nwk.confirms c = false → z'.nwk.confirms c = false
  lost : holds z c = false → holds z' c = false

namespace Steady

variable {r x : Router} {c : IeeeAddress} {z z' : ZdoLayer}

theorem refl (z : ZdoLayer) : Steady r x c z z := ⟨⟨rfl, rfl⟩, fun _ h => h, fun _ h => h, fun _ h => h, id⟩

theorem of_quiet (h : z.nwk.Quiet z'.nwk) : Steady r x c z z' := by
  have hbare : z'.nwk.neighbors.entries.map bare = z.nwk.neighbors.entries.map bare := by
    have hcompose : ∀ l : List NeighborEntry, l.map bare = (l.map unmarked).map bare := by
      intro l
      rw [List.map_map]
      rfl
    rw [hcompose, h.entries, ← hcompose]
  have hconfirms : z'.nwk.confirms c = z.nwk.confirms c := by
    have hany : ∀ l : List NeighborEntry, (l.any fun e => named [c] e && e.keepaliveConfirmed) =
        (l.map unmarked).any fun e => named [c] e && e.keepaliveConfirmed := by
      intro l
      rw [List.any_map]
      rfl
    unfold confirms
    rw [hany, hany z.nwk.neighbors.entries, h.entries]
  refine ⟨h.alike, fun a ha => ?_, fun _ hc => ?_, fun _ hc => ?_, fun hlost => ?_⟩
  · rw [ZdoLayer.admitsSender_of_bare h.count hbare]
    exact ha
  · rw [hconfirms, hc]
  · rw [hconfirms, hc]
  · rw [ZdoLayer.holds_of_bare hbare, hlost]

theorem of_nwk (h : z'.nwk = z.nwk) : Steady r x c z z' := of_quiet (h ▸ .refl z'.nwk)

end Steady

variable {c : IeeeAddress} {z : ZdoLayer}

/-- A keepalive decides nothing unless it is the child's, and does not reach `r`. -/
theorem Steady.of_keepalive {r x : Router} {address : ShortAddress} {source : Option IeeeAddress}
    (hunheard : x = r.other → (z.nwk.neighbors.findByShort address).all (·.ieeeAddress != c) = true) :
    Steady r x c z { z with nwk := z.nwk.refreshChildKeepalive address source } := by
  rcases z.nwk.refreshChildKeepalive_cases address source with hsame | ⟨i, e, hi, hfind, hset⟩
  · exact of_nwk hsame
  · obtain ⟨hlt, -⟩ := List.getElem?_eq_some_iff.mp hi
    have hbare := Table.map_set_same hi (refresh_bare source e)
    rw [hset]
    refine ⟨⟨rfl, rfl⟩, fun a ha => ?_, fun _ hc => ?_, fun hx hc => ?_, fun hlost => ?_⟩
    · refine Eq.trans (ZdoLayer.admitsSender_of_bare ?_ ?_ a) ha
      · rfl
      · exact hbare
    · unfold confirms at hc ⊢
      obtain ⟨y, hy, hboth⟩ := List.any_eq_true.mp hc
      refine List.any_eq_true.mpr ?_
      rcases Table.mem_set_of_mem (i := i) (e.refresh source) hy with hslot | hmem
      · rw [hi] at hslot
        obtain rfl := Option.some.inj hslot
        exact ⟨_, List.mem_set hlt _, refresh_confirmed source hboth⟩
      · exact ⟨y, hmem, hboth⟩
    · have hother := hunheard hx
      rw [hfind, Option.all_some, bne_iff_ne] at hother
      unfold confirms at hc ⊢
      refine List.any_eq_false.mpr fun y hy => ?_
      rcases List.mem_or_eq_of_mem_set hy with hmem | rfl
      · exact List.any_eq_false.mp hc y hmem
      · intro hboth
        rw [Bool.and_eq_true] at hboth
        have hieee := (named_single.mp hboth.1).2
        have hsame := congrArg (fun b : NeighborEntry => b.ieeeAddress) (refresh_bare source e)
        exact hother (hsame.symm.trans hieee)
    · refine Eq.trans (ZdoLayer.holds_of_bare ?_ c) hlost
      exact hbare

theorem Router.other_other (r : Router) : r.other.other = r := by cases r <;> rfl

variable {m : Message}

theorem Message.takes_child {e : NeighborEntry} (h : m.takes e = true) : e.isEndDeviceChild = true := by
  unfold Message.takes named at h
  simp only [Bool.and_eq_true] at h
  exact h.1.1

/-- A delivery decides nothing against `r` unless it is a response that claims the child from `r`. -/
theorem Steady.of_taken {r : Router} {z' : ZdoLayer} {frames : List Buf} (h : Taken m z z' frames)
    (hsilent : m.sender = r.other → m.cluster = .parentAnnceRsp → c ∉ m.children) : Steady r m.sender.other c z z' := by
  refine ⟨h.alike, fun a ha => ?_, fun hx hc => ?_, fun _ hc => ?_, fun hlost => ?_⟩
  · exact ZdoLayer.admitsSender_evict (fun _ => Message.takes_child) h.table ha
  · have hsender : m.sender = r.other := by rw [← hx, Router.other_other]
    unfold confirms at hc ⊢
    obtain ⟨e, he, hboth⟩ := List.any_eq_true.mp hc
    refine List.any_eq_true.mpr ⟨e, ?_, hboth⟩
    rw [h.table]
    refine mem_evictWhere he ?_
    rw [Bool.and_eq_true] at hboth
    unfold Message.takes Message.evicts
    cases hcluster : m.cluster with
    | parentAnnce =>
      dsimp only
      rw [hboth.2]
      exact Bool.and_false _
    | parentAnnceRsp =>
      have habsent := hsilent hsender hcluster
      rw [← (named_single.mp hboth.1).2] at habsent
      unfold named
      rw [List.contains_eq_mem, decide_eq_false habsent, Bool.and_false]
      rfl
  · unfold confirms
    rw [h.table]
    refine any_evictWhere (fun e hboth => ?_) hc
    rw [Bool.and_eq_true] at hboth
    exact active_of_child (named_single.mp hboth.1).1
  · unfold holds
    rw [h.table]
    exact any_evictWhere
      (fun e hnamed => active_of_child (named_single.mp hnamed).1) hlost

/-! ## The contest along a run -/

/-- The router that has heard the child is `r`, and no response takes the child from it. -/
structure Settling (r : Router) (c : IeeeAddress) (n : Network) : Prop where
  routes : ∀ x, (n.node x).nwk.canRoute = true
  admits : ∀ x, (n.node x).admitsSender (n.node x.other).nwk.nib.networkAddress = true
  confirmed : (n.node r).nwk.confirms c = true
  unconfirmed : (n.node r.other).nwk.confirms c = false
  silent : ∀ m ∈ n.air, m.sender = r.other → m.cluster = .parentAnnceRsp → c ∉ m.children

/-- Neither router's step decides the contest against `r`, and no new response takes the child from it. -/
structure Settles (r : Router) (c : IeeeAddress) (n n' : Network) : Prop where
  steady : ∀ x, Steady r x c (n.node x) (n'.node x)
  silent : ∀ m ∈ n'.air, m ∈ n.air ∨ (m.sender = r.other → m.cluster = .parentAnnceRsp → c ∉ m.children)

variable {e : Event}

section Step

variable {r x : Router} {c : IeeeAddress} {n n' : Network}

theorem Settling.next (h : Settling r c n) (hs : Settles r c n n') : Settling r c n' where
  routes x := (hs.steady x).alike.1.trans (h.routes x)
  admits x := by
    rw [(hs.steady x.other).alike.2]
    exact (hs.steady x).admits _ (h.admits x)
  confirmed := (hs.steady r).confirmed rfl h.confirmed
  unconfirmed := (hs.steady r.other).unconfirmed rfl h.unconfirmed
  silent m hm := by
    rcases hs.silent m hm with hold | hnew
    · exact h.silent m hold
    · exact hnew

theorem Settles.set (h : Steady r x c (n.node x) z) : Settles r c n (n.set x z) := by
  refine ⟨fun y => ?_, fun m hm => Or.inl hm⟩
  unfold Network.set
  dsimp only
  split
  · rename_i hy
    rw [hy]
    exact h
  · exact .refl _

theorem Settles.sends (cluster : Cluster) (out : ZdoLayer × List Buf × Except ZdoError Unit)
    (h : Steady r x c (n.node x) out.1)
    (hsilent : x = r.other → cluster = .parentAnnceRsp → ∀ f ∈ out.2.1, c ∉ (Message.mk x cluster f).children) :
    Settles r c n (n.sends x cluster out) := by
  refine ⟨(Settles.set h).steady, fun m hm => ?_⟩
  rcases List.mem_append.mp hm with hold | hnew
  · exact Or.inl hold
  · obtain ⟨f, hf, rfl⟩ := List.mem_map.mp hnew
    exact Or.inr fun hx hc => hsilent hx hc f hf

theorem Settles.announces {out : ZdoLayer × List Buf × Except ZdoError Unit}
    (h : Steady r x c (n.node x) out.1) : Settles r c n (n.sends x .parentAnnce out) :=
  .sends .parentAnnce out h fun _ hc => (by cases hc)

theorem Settles.refl (n : Network) : Settles r c n n := ⟨fun _ => .refl _, fun _ hm => Or.inl hm⟩

/-- A router that has not heard the child does not claim it. -/
theorem Settles.receive (h : Settling r c n) (hm : m ∈ n.air)
    (hcareful : n.heeds m = true → ∀ a ∈ m.children, (n.receiver m).nwk.neighbors.Located m.evicts a) (micros : UInt32) (sent : List Bool) :
    Settles r c n (n.receive m micros sent) := by
  cases hheeds : n.heeds m with
  | false =>
    rw [Network.receive_unheeded hheeds]
    exact .refl n
  | true =>
    obtain ⟨z', frames, hreceive, htaken⟩ := Network.receive_heeded micros sent hheeds (hcareful hheeds)
    rw [hreceive]
    refine Settles.sends .parentAnnceRsp (z', frames, .ok ()) (Steady.of_taken htaken (h.silent m hm)) fun hx _ f hf => ?_
    cases hcluster : m.cluster with
    | parentAnnce =>
      have hchildren : (Message.mk m.sender.other .parentAnnceRsp f).children = m.children.filter (n.receiver m).nwk.confirms := by
        change claimed f = _
        unfold claimed
        rw [((htaken.replies hcluster).named f hf).2]
        exact if_pos rfl
      rw [hchildren, List.mem_filter]
      rintro ⟨-, hconfirms⟩
      have hother : n.receiver m = n.node r.other := congrArg n.node hx
      rw [hother, h.unconfirmed] at hconfirms
      cases hconfirms
    | parentAnnceRsp =>
      rw [htaken.silent hcluster] at hf
      cases hf

/-- **No step decides the contest against the router that has heard the child.** -/
theorem Settling.step_settles (h : Settling r c n) (hcareful : Careful n e) (hunheard : Unheard r.other c n e) :
    Settles r c n (step n e) := by
  cases e with
  | schedule x micros => exact .set (.of_quiet (ZdoLayer.scheduleParentAnnce_quiet _ micros))
  | cancel x => exact .set (.of_quiet (n.node x).nwk.clearParentAnncePending_quiet)
  | tickTimer x elapsedSecs micros sent =>
    have htimer := (n.node x).tickParentAnnceTimer_nwk elapsedSecs
    unfold step
    dsimp only
    split
    · refine .announces (.of_quiet ?_)
      rw [← htimer]
      exact ZdoLayer.sendDueParentAnnce_quiet _ micros sent
    · exact .set (.of_nwk htimer)
  | sendDue x micros sent => exact .announces (.of_quiet (ZdoLayer.sendDueParentAnnce_quiet _ micros sent))
  | announce x sent => exact .announces (.of_nwk (ZdoLayer.sendParentAnnce_nwk _ sent))
  | tickTransactions x elapsedSecs => exact .set (.of_nwk rfl)
  | request x rspCluster =>
    exact .set (.of_nwk (ZdoLayer.takeSlot_nwk (n.node x).nextSeq.1 _ rspCluster))
  | release x slot => exact .set (.of_nwk rfl)
  | releaseAll x => exact .set (.of_nwk rfl)
  | keepalive x address source => exact .set (.of_keepalive fun hx => hx ▸ hunheard hx)
  | deliver index micros sent =>
    unfold step
    dsimp only
    split
    · rename_i m hm
      exact .receive h (List.mem_of_getElem? hm) (hcareful m hm) micros sent
    · exact .refl n

end Step

variable {index : Nat}

theorem step_deliver {n : Network} {micros : UInt32} {sent : List Bool} (hm : n.air[index]? = some m) :
    step n (.deliver index micros sent) = n.receive m micros sent := by
  unfold step
  dsimp only
  rw [hm]

theorem Network.receive_air (n : Network) (m : Message) (micros : UInt32) (sent : List Bool) :
    n.air <+: (n.receive m micros sent).air := by
  unfold receive
  split
  · exact List.prefix_append _ _
  · exact List.prefix_refl _

/-- A frame that was sent stays in the air. -/
theorem step_air (n : Network) (e : Event) : n.air <+: (step n e).air := by
  cases e with
  | tickTimer x elapsedSecs micros sent =>
    unfold step
    dsimp only
    split
    · exact List.prefix_append _ _
    · exact List.prefix_refl _
  | deliver index micros sent =>
    unfold step
    dsimp only
    split
    · exact n.receive_air _ micros sent
    · exact List.prefix_refl _
  | sendDue x micros sent => exact List.prefix_append _ _
  | announce x sent => exact List.prefix_append _ _
  | _ => exact List.prefix_refl _

theorem run_air (n : Network) (es : List Event) : n.air <+: (run step n es).air := by
  induction es generalizing n with
  | nil => exact List.prefix_refl _
  | cons e es ih => exact (step_air n e).trans (ih (step n e))

section Contest

variable {r : Router} {c : IeeeAddress} {n : Network} {es : List Event}

theorem Settling.run (h : Settling r c n) (hcareful : Along step Careful n es) (hunheard : Along step (Unheard r.other c) n es) :
    Settling r c (run step n es) :=
  Run.run_induct (P := fun n e => Careful n e ∧ Unheard r.other c n e)
    (fun _ _ hn he => hn.next (hn.step_settles he.1 he.2)) h (Run.along_and.mpr ⟨hcareful, hunheard⟩)

/-- A child that is given up is not taken back. -/
theorem Settling.run_lost (h : Settling r c n) (hlost : holds (n.node r.other) c = false) (hcareful : Along step Careful n es)
    (hunheard : Along step (Unheard r.other c) n es) : holds ((Run.run step n es).node r.other) c = false :=
  (Run.run_induct (I := fun n => Settling r c n ∧ holds (n.node r.other) c = false)
    (P := fun n e => Careful n e ∧ Unheard r.other c n e)
    (fun _ _ hn he => ⟨hn.1.next (hn.1.step_settles he.1 he.2), ((hn.1.step_settles he.1 he.2).steady r.other).lost hn.2⟩)
    ⟨h, hlost⟩ (Run.along_and.mpr ⟨hcareful, hunheard⟩)).2

theorem Settling.heeds (h : Settling r c n) (hopen : m.cluster = .parentAnnceRsp → (n.receiver m).acceptsParentAnnceRsp m.tsn = true) :
    n.heeds m = true := by
  have hadmits := h.admits m.sender.other
  rw [Router.other_other] at hadmits
  unfold Network.heeds
  rw [show (n.receiver m).nwk.canRoute = true from h.routes m.sender.other,
    show (n.receiver m).admitsSender (n.source m) = true from hadmits, Bool.true_and, Bool.true_and]
  cases hcluster : m.cluster with
  | parentAnnce => rfl
  | parentAnnceRsp => rw [hopen hcluster]; rfl

/-- **A frame of `r` that names the child takes it from the other router.** -/
theorem Settling.delivery_takes (h : Settling r c n) (hsender : m.sender = r) (hnamed : c ∈ m.children) (hdelivers : Delivers index m n e)
    (hcareful : Careful n e) : holds ((step n e).node r.other) c = false := by
  cases e with
  | deliver i micros sent =>
    obtain ⟨rfl, hm, hopen⟩ := hdelivers
    have hheeds := h.heeds hopen
    obtain ⟨z', frames, hreceive, htaken⟩ := Network.receive_heeded micros sent hheeds (hcareful m hm hheeds)
    have hstep : (step n (.deliver i micros sent)).node r.other = z' := by
      rw [step_deliver hm, hreceive, ← hsender]
      exact if_pos rfl
    rw [hstep]
    unfold holds
    rw [htaken.table]
    refine List.any_eq_false.mpr fun x hx hchild => ?_
    have hactive := active_of_child (named_single.mp hchild).1
    obtain ⟨hold, hkept⟩ := of_mem_evictWhere hx hactive
    have hx' : named m.children x = true := by
      unfold named
      rw [(named_single.mp hchild).1, (named_single.mp hchild).2, List.contains_iff_mem.mpr hnamed]
      rfl
    unfold Message.takes Message.evicts at hkept
    rw [hx', Bool.true_and] at hkept
    cases hcluster : m.cluster with
    | parentAnnce =>
      rw [hcluster] at hkept
      have hconfirmed : x.keepaliveConfirmed = true := by simpa using hkept
      have hunconfirmed := h.unconfirmed
      unfold confirms at hunconfirmed
      rw [← hsender] at hunconfirmed
      exact List.any_eq_false.mp hunconfirmed x hold (by rw [hchild, hconfirmed]; rfl)
    | parentAnnceRsp =>
      rw [hcluster] at hkept
      cases hkept
  | _ => exact hdelivers.elim

/-- **An announcement of the other router that names the child is answered.** -/
theorem Settling.delivery_answers (h : Settling r c n) (hsender : m.sender = r.other) (hcluster : m.cluster = .parentAnnce)
    (hnamed : c ∈ m.children) (hdelivers : Delivers index m n e) (hcareful : Careful n e) :
    ∃ m' ∈ (step n e).air, m'.sender = r ∧ c ∈ m'.children := by
  cases e with
  | deliver i micros sent =>
    obtain ⟨rfl, hm, hopen⟩ := hdelivers
    have hheeds := h.heeds hopen
    obtain ⟨z', frames, hreceive, htaken⟩ := Network.receive_heeded micros sent hheeds (hcareful m hm hheeds)
    have hr : m.sender.other = r := by rw [hsender, Router.other_other]
    have hkept : c ∈ m.children.filter (n.receiver m).nwk.confirms := by
      refine List.mem_filter.mpr ⟨hnamed, ?_⟩
      change (n.node m.sender.other).nwk.confirms c = true
      rw [hr]
      exact h.confirmed
    have hreplies := htaken.replies hcluster
    obtain ⟨f, hf⟩ := List.exists_mem_of_ne_nil _ (hreplies.sent (List.ne_nil_of_mem hkept))
    have hstep : (step n (.deliver i micros sent)).air = n.air ++ frames.map (⟨m.sender.other, .parentAnnceRsp, ·⟩) := by
      rw [step_deliver hm, hreceive]
    refine ⟨⟨m.sender.other, .parentAnnceRsp, f⟩, ?_, hr, ?_⟩
    · rw [hstep]
      exact List.mem_append_right _ (List.mem_map.mpr ⟨f, hf, rfl⟩)
    · change c ∈ claimed f
      unfold claimed
      rw [(hreplies.named f hf).2]
      dsimp only
      rw [if_pos rfl]
      exact hkept
  | _ => exact hdelivers.elim

theorem Contested.settling (h : Contested n r c) (hair : n.air = []) : Settling r c n := by
  refine ⟨h.routes, h.admits, h.confirmed, h.unconfirmed, fun m hm => ?_⟩
  rw [hair] at hm
  cases hm

/-- The delivery of a frame of the run, and what the run does before and after it. -/
theorem Settling.delivery (h : Settling r c n) (hcareful : Along step Careful n es) (hunheard : Along step (Unheard r.other c) n es)
    (hall : AllDelivered n es) (hm : m ∈ (Run.run step n es).air) :
    ∃ index n' e after, Settling r c n' ∧ Delivers index m n' e ∧ Careful n' e ∧ Settling r c (step n' e) ∧
      Along step Careful (step n' e) after ∧ Along step (Unheard r.other c) (step n' e) after ∧
      Run.run step n es = Run.run step (step n' e) after := by
  obtain ⟨index, hindex⟩ := List.mem_iff_getElem?.mp hm
  obtain ⟨before, e, after, rfl, hdelivers⟩ := hall index m hindex
  obtain ⟨hcareful, hcareful'⟩ := Run.along_append.mp hcareful
  obtain ⟨hunheard, hunheard'⟩ := Run.along_append.mp hunheard
  have hbefore := h.run hcareful hunheard
  exact ⟨index, _, e, after, hbefore, hdelivers, hcareful'.1, hbefore.next (hbefore.step_settles hcareful'.1 hunheard'.1),
    hcareful'.2, hunheard'.2, Run.run_append n before (e :: after)⟩

/-- Once every frame is delivered, what `r` names the other router has given up. -/
theorem Settling.given_up (h : Settling r c n) (hcareful : Along step Careful n es) (hunheard : Along step (Unheard r.other c) n es)
    (hall : AllDelivered n es) (hm : m ∈ (Run.run step n es).air) (hsender : m.sender = r) (hnamed : c ∈ m.children) :
    holds ((Run.run step n es).node r.other) c = false := by
  obtain ⟨index, n', e, after, hbefore, hdelivers, hcare, hafter, hcareful', hunheard', hrun⟩ := h.delivery hcareful hunheard hall hm
  rw [hrun]
  exact hafter.run_lost (hbefore.delivery_takes hsender hnamed hdelivers hcare) hcareful' hunheard'

end Contest

theorem holds_of_confirms (h : z.nwk.confirms c = true) : holds z c = true := by
  obtain ⟨e, he, hboth⟩ := List.any_eq_true.mp h
  rw [Bool.and_eq_true] at hboth
  exact List.any_eq_true.mpr ⟨e, he, hboth.1⟩

/-- **Careful deliveries reconcile; and where only `r` has heard the child, an announcement names it and every frame
    is delivered, `r` keeps it and the other router does not.** -/
theorem parent_reconciliation (n : Network) (es : List Event) (hcareful : Along step Careful n es) :
    Along step Sound n es ∧
      ∀ r c, Contested n r c → n.air = [] → Along step (Unheard r.other c) n es →
        (∃ m ∈ (run step n es).air, m.cluster = .parentAnnce ∧ c ∈ m.children) → AllDelivered n es →
        holds ((run step n es).node r) c = true ∧ holds ((run step n es).node r.other) c = false := by
  refine ⟨hcareful.mono fun _ _ => sound_of_careful, fun r c hcontested hair hunheard hnamed hall => ?_⟩
  have hsettling := hcontested.settling hair
  refine ⟨holds_of_confirms (hsettling.run hcareful hunheard).confirmed, ?_⟩
  obtain ⟨m, hm, hcluster, hchild⟩ := hnamed
  by_cases hsender : m.sender = r
  · exact hsettling.given_up hcareful hunheard hall hm hsender hchild
  · have hsender : m.sender = r.other := by
      cases hs : m.sender <;> cases r <;> simp_all [Router.other]
    obtain ⟨index, n', e, after, hbefore, hdelivers, hcare, -, -, -, hrun⟩ := hsettling.delivery hcareful hunheard hall hm
    obtain ⟨m', hm', hsender', hchild'⟩ := hbefore.delivery_answers hsender hcluster hchild hdelivers hcare
    refine hsettling.given_up hcareful hunheard hall ?_ hsender' hchild'
    rw [hrun]
    exact (run_air _ after).subset hm'

/-! ## Two routers -/

/-- A router in operation whose NWK layer has met these events. -/
def parentWith (networkAddress : ShortAddress) (events : List Identity.Event) : ZdoLayer where
  nwk := run Identity.step { NwkLayer.new true .router with joined := true, nib := { Nib.new with networkAddress } } events
  seq := 0
  pendingResponses := List.replicate MAX_PENDING_ZDP .empty
  parentAnnceTimerSecs := 0
  parentAnnceSequenceActive := false

def sleepyIeee : IeeeAddress := Vector.replicate 8 7

def siblingIeee : IeeeAddress := Vector.replicate 8 2

/-- An end device whose keepalive may have arrived. -/
def sleepyChild (heard : Bool) : NeighborEntry := { admitted sleepyIeee 5 .endDevice true with keepaliveConfirmed := heard }

/-- The sleepy child has moved from the second router to the first one. -/
def moved : Network where
  node
    | .first => parentWith 0x10 [.addOrUpdate (sleepyChild true)]
    | .second => parentWith 0x11 [.addOrUpdate (sleepyChild false)]
  air := []

def announcement : List Event := [.announce .first [true], .deliver 0 0 [true]]

theorem parentWith_located (networkAddress : ShortAddress) (heard : Bool) (evicts : NeighborEntry → Bool) (a : IeeeAddress) :
    (parentWith networkAddress [.addOrUpdate (sleepyChild heard)]).nwk.neighbors.Located evicts a := by
  have hentries : ∃ e, (parentWith networkAddress [.addOrUpdate (sleepyChild heard)]).nwk.neighbors.entries =
      e :: List.replicate 31 .empty := ⟨_, rfl⟩
  obtain ⟨e, hentries⟩ := hentries
  have hfirst : ∀ (i : Nat) (x : NeighborEntry),
      (parentWith networkAddress [.addOrUpdate (sleepyChild heard)]).nwk.neighbors.entries[i]? = some x → x.active = true → i = 0 := by
    intro i x hi hactive
    rw [hentries] at hi
    cases i with
    | zero => rfl
    | succ i =>
      rw [List.getElem?_cons_succ] at hi
      rw [List.eq_of_mem_replicate (List.mem_of_getElem? hi)] at hactive
      cases hactive
  intro i x hi hchild _
  rw [hfirst i x hi (active_of_child hchild)]
  exact ⟨Nat.one_pos, fun j _ _ _ _ => Nat.zero_le j⟩

theorem moved_child_reconciles :
    Along step Sound moved announcement ∧
      holds ((run step moved announcement).node .first) sleepyIeee = true ∧
        holds ((run step moved announcement).node .second) sleepyIeee = false := by
  have hcareful : Along step Careful moved announcement := by
    refine ⟨trivial, fun m hm _ a _ => ?_, trivial⟩
    have hsender : m.sender = .first := by
      have hair : ((step moved (.announce .first [true])).air[0]?).map (·.sender) = some .first := by decide +kernel
      rw [hm] at hair
      exact Option.some.inj hair
    have hreceiver : ((step moved (.announce .first [true])).receiver m).nwk =
        (parentWith 0x11 [.addOrUpdate (sleepyChild false)]).nwk := by
      unfold Network.receiver
      rw [hsender]
      rfl
    rw [hreceiver]
    exact parentWith_located 0x11 false m.evicts a
  obtain ⟨hsound, hkept⟩ := parent_reconciliation moved announcement hcareful
  refine ⟨hsound, hkept .first sleepyIeee ⟨?_, ?_, ?_, ?_, ?_⟩ rfl ⟨trivial, trivial, trivial⟩ ?_ ?_⟩
  · intro x
    cases x <;> rfl
  · intro x
    cases x <;> decide +kernel
  · intro x
    cases x <;> decide +kernel
  · decide +kernel
  · decide +kernel
  · decide +kernel
  · have hlength : (run step moved announcement).air.length = 1 := by decide +kernel
    intro index m hm
    obtain ⟨hlt, -⟩ := List.getElem?_eq_some_iff.mp hm
    obtain rfl : index = 0 := by omega
    have hsame : (run step moved announcement).air = (run step moved [.announce .first [true]]).air := by decide +kernel
    have hcluster : ((run step moved announcement).air[0]?).map (·.cluster) = some .parentAnnce := by decide +kernel
    rw [hsame] at hm
    refine ⟨[.announce .first [true]], .deliver 0 0 [true], [], rfl, rfl, hm, fun hc => ?_⟩
    rw [hsame, hm, Option.map_some, hc] at hcluster
    cases hcluster

/-- The child has moved as before, but a sibling of the second router has taken the short address of the child. -/
def sharedShort : Network where
  node
    | .first => parentWith 0x10 [.addOrUpdate (sleepyChild true)]
    | .second => parentWith 0x11
        [.addOrUpdate (.newFromAnnce 2 siblingIeee), .addOrUpdate (sleepyChild false), .updateAddressMap 5 siblingIeee]
  air := []

/-- The announcement takes the sibling, and leaves the child that it names. -/
theorem announcement_takes_sibling : ¬ Along step Sound sharedShort announcement := by
  rintro ⟨-, hsound, -⟩
  have hair : (step sharedShort (.announce .first [true])).air = [⟨.first, .parentAnnce, [0, 1, 7, 7, 7, 7, 7, 7, 7, 7]⟩] := by
    decide +kernel
  have hyield := (hsound ⟨.first, .parentAnnce, [0, 1, 7, 7, 7, 7, 7, 7, 7, 7]⟩ (by rw [hair]; rfl)).unconfirmedYield rfl
    (by decide +kernel) (by decide +kernel) (sleepyChild false) (by decide +kernel) rfl (by decide +kernel)
  cases hyield

end Zigbee.Zdo
