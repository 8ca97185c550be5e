import Zigbee.Nwk.Indirect

/-!
# The indirect queue is a queue for each child

* `Represents` — the used slots of the array are the frames of the queue, in any order.
* `Represents.oldest` — the slot with the greatest wrapping age has the child's first frame.
* `Represents.call` — **one call** answers as the queue does.
* `indirect_fifo` — so does every run whose frames do not wait for `2 ^ 32` others.
* `wrapped_counter` — a run with as many frames serves a child out of order.
-/

namespace Zigbee.Nwk.Indirect

open Bytes Slots Serial Run IndirectQueue

/-- What an entry and a frame have in common. -/
structure View where
  child : ShortAddress
  bytes : Buf
  len : Nat
  kind : IndirectFrameKind
  ttl : Nat
  order : UInt32
  slot : Nat

def viewEntry (r : IndirectEntry × Nat) : View := ⟨r.1.dstAddr, r.1.bytes, r.1.len, r.1.kind, r.1.ttl, r.1.order, r.2⟩

def viewFrame (f : Frame) : View := ⟨f.child, f.bytes, f.bytes.length, f.kind, f.ttl, UInt32.ofNat f.seq, f.slot⟩

/-- The used slots of a queue. -/
def waiting (q : IndirectQueue) : List (IndirectEntry × Nat) := live IndirectEntry.active q.entries

/-- **The used slots are the frames of the queue.** -/
structure Represents (maxIndirect : Nat) (q : IndirectQueue) (a : Fifo) : Prop where
  size : q.entries.length = maxIndirect
  counter : q.nextOrder = UInt32.ofNat a.enqueued
  frames : ((waiting q).map viewEntry).Perm (a.frames.map viewFrame)
  sorted : a.frames.Pairwise fun f g => f.seq < g.seq
  past : ∀ f ∈ a.frames, f.seq < a.enqueued

theorem represents_new (maxIndirect : Nat) : Represents maxIndirect (.new maxIndirect) .empty where
  size := List.length_replicate
  counter := rfl
  frames := by
    have hnone : waiting (.new maxIndirect) = [] := by
      unfold waiting live
      rw [liveFrom_eq_filter, List.filter_eq_nil_iff]
      rintro ⟨e, i⟩ hmem
      have hempty := List.eq_of_mem_replicate (List.mem_of_getElem? (List.mem_zipIdx_iff_getElem?.mp hmem))
      subst hempty
      exact Bool.false_ne_true
    rw [hnone]
    exact List.Perm.nil
  sorted := List.Pairwise.nil
  past := by simp [Fifo.empty]

section

variable {maxIndirect : Nat} {q : IndirectQueue} {a : Fifo} {child : ShortAddress} {f : Frame}

/-! ## Questions -/

/-- A question about used slots is one about frames. -/
theorem Represents.any (h : Represents maxIndirect q a) (p : View → Bool) :
    (waiting q).any (fun r => p (viewEntry r)) = a.frames.any fun f => p (viewFrame f) := by
  have hany := h.frames.any_eq (f := p)
  rw [List.any_map, List.any_map] at hany
  exact hany

/-- Slots that a child's frames wait in. -/
theorem Represents.filter (h : Represents maxIndirect q a) (p : View → Bool) :
    (((waiting q).filter fun r => p (viewEntry r)).map viewEntry).Perm ((a.frames.filter fun f => p (viewFrame f)).map viewFrame) := by
  have hfilter := h.frames.filter p
  rw [List.filter_map, List.filter_map] at hfilter
  exact hfilter

theorem Represents.hasPending (h : Represents maxIndirect q a) (child : ShortAddress) :
    q.hasPending child = a.frames.any fun f => f.child == child := by
  unfold IndirectQueue.hasPending
  rw [any_live (u := IndirectEntry.active) fun e : IndirectEntry => e.dstAddr == child]
  exact h.any fun v => v.child == child

theorem Represents.hasPendingKind (h : Represents maxIndirect q a) (child : ShortAddress) (kind : IndirectFrameKind) :
    q.hasPendingKind child kind = a.frames.any fun f => f.child == child && f.kind == kind := by
  unfold IndirectQueue.hasPendingKind
  simp only [Bool.and_assoc]
  rw [any_live (u := IndirectEntry.active) fun e : IndirectEntry => e.dstAddr == child && e.kind == kind]
  exact h.any fun v => v.child == child && v.kind == kind

theorem Represents.pendingCount (h : Represents maxIndirect q a) (child : ShortAddress) :
    q.pendingCount child = (a.of child).length := by
  have hperm := (h.filter fun v => v.child == child).length_eq
  rw [List.length_map, List.length_map] at hperm
  unfold IndirectQueue.pendingCount Fifo.of
  refine Eq.trans ?_ hperm
  show _ = ((waiting q).filter fun r => r.1.dstAddr == child).length
  unfold waiting live
  rw [liveFrom_filter (fun e : IndirectEntry => e.dstAddr == child), ← List.length_map (f := Prod.fst), liveFrom_values]

theorem Represents.pendingChildren (h : Represents maxIndirect q a) : q.pendingChildren.Perm (a.frames.map (·.child)) := by
  have hchildren := h.frames.map View.child
  rw [List.map_map, List.map_map] at hchildren
  have hvalues : q.pendingChildren = (waiting q).map (View.child ∘ viewEntry) := by
    unfold IndirectQueue.pendingChildren waiting live
    rw [← liveFrom_values (k := 0), List.map_map]
    rfl
  rw [hvalues]
  exact hchildren

theorem any_of (a : Fifo) (child : ShortAddress) : (a.frames.any fun f => f.child == child) = !(a.of child).isEmpty := by
  unfold Fifo.of
  rw [Bool.eq_iff_iff, List.any_eq_true, Bool.not_eq_true', List.isEmpty_eq_false_iff_exists_mem]
  simp only [List.mem_filter]

theorem any_of_kind (a : Fifo) (child : ShortAddress) (kind : IndirectFrameKind) :
    (a.frames.any fun f => f.child == child && f.kind == kind) = (a.of child).any fun f => f.kind == kind := by
  unfold Fifo.of
  rw [List.any_filter]

/-! ## Changes in place -/

/-- **Slots are changed in place** as the frames are. -/
theorem Represents.change (h : Represents maxIndirect q a) {F : Nat → IndirectEntry → IndirectEntry} {G : Frame → Option Frame}
    {H : View → Option View} (hfree : ∀ i e, e.active = false → (F i e).active = false)
    (hentry : ∀ r : IndirectEntry × Nat, r.1.active = true →
      (if (F r.2 r.1).active then some (viewEntry (F r.2 r.1, r.2)) else none) = H (viewEntry r))
    (hframe : ∀ f, (G f).map viewFrame = H (viewFrame f)) (hseq : ∀ f g, G f = some g → g.seq = f.seq) :
    Represents maxIndirect { q with entries := q.entries.mapIdx F } { a with frames := a.frames.filterMap G } where
  size := by
    rw [← h.size]
    exact List.length_mapIdx
  counter := h.counter
  frames := by
    have hviews : ((waiting { q with entries := q.entries.mapIdx F }).map viewEntry) = ((waiting q).map viewEntry).filterMap H := by
      unfold waiting
      rw [live_mapIdx (u := IndirectEntry.active) hfree, List.map_filterMap, List.filterMap_map]
      apply List.filterMap_congr
      rintro ⟨e, i⟩ hmem
      rw [Function.comp_apply, ← hentry (e, i) (mem_live.mp hmem).2]
      dsimp only
      split <;> rfl
    have hframes : (a.frames.filterMap G).map viewFrame = (a.frames.map viewFrame).filterMap H := by
      rw [List.map_filterMap, List.filterMap_map]
      exact List.filterMap_congr fun f _ => hframe f
    rw [hviews, hframes]
    exact h.frames.filterMap H
  sorted := by
    rw [List.pairwise_filterMap]
    exact h.sorted.imp fun hlt f' hf g' hg => by rw [hseq _ _ hf, hseq _ _ hg]; exact hlt
  past := by
    intro f' hf'
    obtain ⟨f, hf, hG⟩ := List.mem_filterMap.mp hf'
    rw [hseq f f' hG]
    exact h.past f hf

/-- Slots become free as frames are dropped. -/
theorem Represents.drop (h : Represents maxIndirect q a) (p : View → Bool) {entries : List IndirectEntry}
    (hentries : entries = q.entries.mapIdx fun i e => if e.active && p (viewEntry (e, i)) then { e with active := false } else e) :
    Represents maxIndirect { q with entries := entries } (a.drop fun f => p (viewFrame f)) := by
  have hfilter : a.drop (fun f => p (viewFrame f)) =
      { a with frames := a.frames.filterMap (Option.guard fun f => !p (viewFrame f)) } := by
    unfold Fifo.drop
    rw [List.filterMap_eq_filter]
  rw [hentries, hfilter]
  apply h.change (H := Option.guard fun v => !p v)
  · intro i e hfree
    split
    · rfl
    · exact hfree
  · rintro ⟨e, i⟩ hactive
    dsimp only
    rw [show e.active = true from hactive, Bool.true_and]
    cases hp : p (viewEntry (e, i)) with
    | false =>
      rw [if_neg Bool.false_ne_true, if_pos (show e.active = true from hactive), Option.guard, if_pos (by rw [hp]; rfl)]
    | true => simp [hp, Option.guard]
  · intro f
    cases hp : p (viewFrame f) <;> simp [hp, Option.guard]
  · intro f g hG
    rw [Option.guard_eq_some_iff] at hG
    rw [hG.1]

theorem Represents.removeWhere (h : Represents maxIndirect q a) (p : ShortAddress → IndirectFrameKind → Bool) :
    Represents maxIndirect (q.deactivateWhere fun e => p e.dstAddr e.kind) (a.drop fun f => p f.child f.kind) :=
  h.drop (fun v => p v.child v.kind) (mapIdx_const _ _).symm

theorem Represents.deactivate (h : Represents maxIndirect q a) (index : Nat) :
    Represents maxIndirect (q.deactivate index) (a.drop fun f => f.slot == index) := by
  apply h.drop fun v => v.slot == index
  rw [modify_eq_mapIdx]
  congr 1
  funext i e
  by_cases hi : i = index
  · obtain ⟨dstAddr, frame, len, kind, ttl, order, active⟩ := e
    cases active <;> simp [viewEntry, hi]
  · simp [viewEntry, hi]

theorem Represents.slots_nodup (h : Represents maxIndirect q a) : (a.frames.map (·.slot)).Nodup := by
  have hslots := h.frames.map View.slot
  rw [List.map_map, List.map_map] at hslots
  exact hslots.nodup_iff.mp live_nodup

/-! ## The oldest frame -/

/-- An element of a permuted image and those beside it. -/
theorem perm_map_cons {α β : Type} {g : α → β} {l : List α} {b : β} {bs : List β} (h : (l.map g).Perm (b :: bs)) :
    ∃ x rest, l.Perm (x :: rest) ∧ g x = b ∧ (rest.map g).Perm bs := by
  obtain ⟨x, hx, rfl⟩ := List.mem_map.mp (h.mem_iff.mpr List.mem_cons_self)
  obtain ⟨before, after, rfl⟩ := List.append_of_mem hx
  refine ⟨x, before ++ after, List.perm_middle, rfl, ?_⟩
  have hmap := List.perm_middle.symm.trans (by simpa using h)
  rw [List.map_append]
  exact hmap.cons_inv

theorem waiting_for (q : IndirectQueue) (child : ShortAddress) :
    (q.entries.zipIdx.filter fun r => r.1.active && r.1.dstAddr == child) = (waiting q).filter fun r => r.1.dstAddr == child := by
  unfold waiting live
  rw [liveFrom_filter (fun e : IndirectEntry => e.dstAddr == child), liveFrom_eq_filter]

/-- **The oldest slot of a child has its first frame.** -/
theorem Represents.oldest (h : Represents maxIndirect q a) {rest : List Frame} (hof : a.of child = f :: rest)
    (hyoung : ∀ f g rest, a.of child = f :: g :: rest → a.enqueued - f.seq < 2 ^ 32) :
    q.oldestIndex child = some f.slot ∧ ∃ e, q.entries[f.slot]? = some e ∧ viewEntry (e, f.slot) = viewFrame f := by
  have hfirst {g : Frame} (hg : g ∈ rest) : a.enqueued - f.seq < 2 ^ 32 := by
    obtain ⟨g', rest', rfl⟩ := List.exists_cons_of_ne_nil (List.ne_nil_of_mem hg)
    exact hyoung f g' rest' hof
  have hfilter := h.filter fun v => v.child == child
  rw [show (a.frames.filter fun f => (viewFrame f).child == child) = f :: rest from hof, List.map_cons] at hfilter
  obtain ⟨⟨e, i⟩, others, hperm, hview, hothers⟩ := perm_map_cons hfilter
  have hslot : i = f.slot := congrArg View.slot hview
  subst hslot
  have hframes : ∀ g ∈ f :: rest, g ∈ a.frames := by
    rw [← hof]
    exact fun g hg => List.mem_of_mem_filter hg
  have hsorted := h.sorted.filter fun f => f.child == child
  rw [show (a.frames.filter fun f => f.child == child) = f :: rest from hof, List.pairwise_cons] at hsorted
  have hkey : ∀ (r : IndirectEntry × Nat) (g : Frame), viewEntry r = viewFrame g →
      q.waited r.1 = (UInt32.ofNat a.enqueued - UInt32.ofNat g.seq).toNat := by
    intro r g hrg
    unfold waited
    rw [h.counter, show r.1.order = UInt32.ofNat g.seq from congrArg View.order hrg]
  have hmax : maxByKey (fun r => q.waited r.1) ((waiting q).filter fun r => r.1.dstAddr == child) = some (e, f.slot) := by
    refine maxByKey_of_perm hperm fun r hr => ?_
    obtain ⟨g, hg, hrg⟩ := List.mem_map.mp (hothers.mem_iff.mp (List.mem_map_of_mem hr))
    rw [hkey r g hrg.symm, hkey _ f hview]
    exact age_lt_age (hsorted.1 g hg) (Nat.le_of_lt (h.past g (hframes g (List.mem_cons_of_mem _ hg))))
      (hfirst hg)
  constructor
  · unfold oldestIndex
    rw [waiting_for, hmax]
    rfl
  · exact ⟨e, (mem_live.mp (List.mem_of_mem_filter (maxByKey_mem hmax))).1, hview⟩

theorem Represents.oldest_none (h : Represents maxIndirect q a) (hof : a.of child = []) : q.oldestIndex child = none := by
  have hfilter := h.filter fun v => v.child == child
  rw [show (a.frames.filter fun f => (viewFrame f).child == child) = [] from hof, List.map_nil] at hfilter
  have hnone := List.map_eq_nil_iff.mp hfilter.eq_nil
  unfold oldestIndex
  rw [waiting_for, show ((waiting q).filter fun r => r.1.dstAddr == child) = [] from hnone]
  rfl

/-! ## Taking frames out -/

theorem filter_eraseP {α : Type} (p : α → Bool) (l : List α) : (l.eraseP p).filter p = (l.filter p).tail := by
  induction l with
  | nil => rfl
  | cons x l ih =>
    cases hx : p x <;> simp [hx, ih]

theorem filter_eraseP_other {α : Type} {p p' : α → Bool} (hne : ∀ x, p x = true → p' x = false) (l : List α) :
    (l.eraseP p).filter p' = l.filter p' := by
  induction l with
  | nil => rfl
  | cons x l ih =>
    cases hx : p x with
    | false =>
      rw [List.eraseP_cons_of_neg (by simp [hx]), List.filter_cons, List.filter_cons, ih]
    | true =>
      rw [List.eraseP_cons_of_pos hx, List.filter_cons_of_neg (by simp [hne x hx])]

theorem of_pop (a : Fifo) (child : ShortAddress) : (a.pop child).of child = (a.of child).tail := filter_eraseP _ _

/-- A child's first frame is the one with its handle. -/
theorem Represents.pop_eq (h : Represents maxIndirect q a) {rest : List Frame} (hof : a.of child = f :: rest) :
    a.pop child = a.drop fun g => g.slot == f.slot := by
  obtain ⟨before, after, hframes, hbefore, hfirst⟩ : ∃ before after, a.frames = before ++ f :: after ∧
      (∀ g ∈ before, (g.child == child) = false) ∧ (f.child == child) = true := by
    obtain ⟨before, after, heq, hnone, hf, -⟩ := List.filter_eq_cons_iff.mp hof
    exact ⟨before, after, heq, fun g hg => by simpa using hnone g hg, hf⟩
  have hnodup := h.slots_nodup
  rw [hframes, (List.perm_middle.map Frame.slot).nodup_iff, List.map_cons, List.nodup_cons] at hnodup
  have hother : ∀ g ∈ before ++ after, (!(g.slot == f.slot)) = true := by
    intro g hg
    have hne : g.slot ≠ f.slot := fun heq => hnodup.1 (heq ▸ List.mem_map_of_mem hg)
    simpa using hne
  unfold Fifo.pop Fifo.drop
  rw [hframes, List.eraseP_append_right _ (fun g hg => by simp [hbefore g hg]), List.eraseP_cons_of_pos (p := fun g : Frame => g.child == child) hfirst,
    List.filter_append, List.filter_cons_of_neg (by simp), ← List.filter_append, List.filter_eq_self.mpr hother]

theorem pop_empty (hof : a.of child = []) : a.pop child = a := by
  have hnone : a.frames.eraseP (fun f => f.child == child) = a.frames :=
    List.eraseP_of_forall_not fun g hg => by simpa using List.filter_eq_nil_iff.mp hof g hg
  unfold Fifo.pop
  rw [hnone]

/-- **The first frame of a child is taken out.** -/
theorem Represents.taken (h : Represents maxIndirect q a) {rest : List Frame} (hof : a.of child = f :: rest) :
    Represents maxIndirect (q.deactivate f.slot) (a.pop child) ∧
      ((q.deactivate f.slot).hasPending child) = !(a.of child).tail.isEmpty := by
  have hnext := h.deactivate f.slot
  rw [← h.pop_eq hof] at hnext
  refine ⟨hnext, ?_⟩
  rw [hnext.hasPending, any_of, of_pop]

/-! ## Enqueueing -/

theorem Represents.freeSlot (h : Represents maxIndirect q a) :
    a.freeSlot maxIndirect = q.entries.findIdx? fun entry => !entry.active := by
  unfold Fifo.freeSlot
  rw [findIdx?_free (u := IndirectEntry.active), h.size]
  congr 1
  funext i
  have hany := h.any fun v => v.slot == i
  rw [List.all_eq_not_any_not, List.all_eq_not_any_not]
  simp only [bne, Bool.not_not]
  exact congrArg (!·) hany.symm

/-- A frame is put into a free slot. -/
theorem Represents.push (h : Represents maxIndirect q a) {index : Nat} {old : IndirectEntry} (hget : q.entries[index]? = some old)
    (hfree : old.active = false) (dst : ShortAddress) (bytes rest : Buf) (kind : IndirectFrameKind) :
    Represents maxIndirect
      ⟨q.entries.set index ⟨dst, bytes ++ rest, bytes.length, kind, 8, q.nextOrder, true⟩, q.nextOrder + 1⟩
      ⟨a.frames ++ [⟨dst, bytes, kind, 8, index, a.enqueued⟩], a.enqueued + 1⟩ where
  size := List.length_set.trans h.size
  counter := by
    dsimp only
    rw [h.counter, UInt32.ofNat_add]
    rfl
  frames := by
    have hset : (waiting ⟨q.entries.set index ⟨dst, bytes ++ rest, bytes.length, kind, 8, q.nextOrder, true⟩, q.nextOrder + 1⟩).Perm
        ((⟨dst, bytes ++ rest, bytes.length, kind, 8, q.nextOrder, true⟩, index) :: waiting q) := live_set hget hfree rfl
    have hnew : viewEntry (⟨dst, bytes ++ rest, bytes.length, kind, 8, q.nextOrder, true⟩, index) =
        viewFrame ⟨dst, bytes, kind, 8, index, a.enqueued⟩ := by
      unfold viewEntry viewFrame IndirectEntry.bytes
      dsimp only
      rw [List.take_left, h.counter]
    have hviews := hset.map viewEntry
    rw [List.map_cons, hnew] at hviews
    rw [List.map_append, List.map_singleton]
    exact (hviews.trans (h.frames.cons _)).trans (List.perm_append_singleton _ _).symm
  sorted := by
    rw [List.pairwise_append]
    refine ⟨h.sorted, List.pairwise_singleton _ _, fun f hf g hg => ?_⟩
    rw [List.mem_singleton.mp hg]
    exact h.past f hf
  past := by
    intro f hf
    rcases List.mem_append.mp hf with hf | hf
    · exact Nat.lt_succ_of_lt (h.past f hf)
    · rw [List.mem_singleton.mp hf]
      exact Nat.lt_succ_self _

theorem Represents.enqueue (h : Represents maxIndirect q a) (dst : ShortAddress) (bytes : Buf) (kind : IndirectFrameKind) :
    (q.enqueueTaggedWithSlot dst bytes kind).2 = (a.enqueue maxIndirect dst bytes kind).2 ∧
      Represents maxIndirect (q.enqueueTaggedWithSlot dst bytes kind).1 (a.enqueue maxIndirect dst bytes kind).1 := by
  unfold enqueueTaggedWithSlot Fifo.enqueue
  rw [h.freeSlot]
  split
  · exact ⟨rfl, h⟩
  · cases hfind : q.entries.findIdx? fun entry => !entry.active with
    | none => exact ⟨rfl, h⟩
    | some index =>
      obtain ⟨hindex, hfree, -⟩ := List.findIdx?_eq_some_iff_getElem.mp hfind
      have hget := List.getElem?_eq_getElem hindex
      refine ⟨rfl, ?_⟩
      dsimp only
      rw [Table.modify_eq_set hget]
      exact h.push hget (by simpa using hfree) dst bytes _ kind

/-! ## Ageing -/

theorem Represents.age (h : Represents maxIndirect q a) : Represents maxIndirect q.age.1 a.age := by
  have hfilter : a.age = { a with
      frames := a.frames.filterMap fun f => if 1 < f.ttl then some { f with ttl := f.ttl - 1 } else none } := by
    unfold Fifo.age
    rw [← List.filterMap_eq_map, ← List.filterMap_eq_filter, List.filterMap_filterMap]
    congr 2
    funext f
    by_cases hf : 1 < f.ttl <;> simp [Option.guard, hf]
  rw [hfilter]
  show Represents maxIndirect { q with entries := q.entries.map tick } _
  rw [← mapIdx_const]
  apply h.change (H := fun v => if 1 < v.ttl then some { v with ttl := v.ttl - 1 } else none)
  · intro i e hfree
    unfold tick
    rw [if_neg (by simp [hfree])]
    exact hfree
  · rintro ⟨e, i⟩ hactive
    unfold tick viewEntry
    dsimp only
    rw [if_pos hactive]
    by_cases httl : 1 < e.ttl
    · rw [if_pos httl, if_pos (by simp; omega)]
      rfl
    · rw [if_neg httl, if_neg (by simp; omega)]
  · intro f
    by_cases hf : 1 < f.ttl <;> simp [viewFrame, hf]
  · intro f g hG
    split at hG
    · cases hG
      rfl
    · cases hG

variable (maxIndirect) in
/-- The vector of expired children has room for all of them. -/
theorem report_spec (entries : List IndirectEntry) (done : Nat) (expired : List ShortAddress)
    (hroom : expired.length ≤ done) (hdone : done + entries.length ≤ maxIndirect) (hnodup : expired.Nodup) :
    (entries.foldl (report maxIndirect) expired).Nodup ∧
      ∀ child, child ∈ entries.foldl (report maxIndirect) expired ↔
        child ∈ expired ∨ ∃ e ∈ entries, e.active = true ∧ e.ttl ≤ 1 ∧ e.dstAddr = child := by
  induction entries generalizing done expired with
  | nil => exact ⟨hnodup, by simp⟩
  | cons e entries ih =>
    rw [List.length_cons] at hdone
    rw [List.foldl_cons]
    obtain ⟨hlen, hnodup', hmem⟩ : (report maxIndirect expired e).length ≤ done + 1 ∧
        (report maxIndirect expired e).Nodup ∧ ∀ child, child ∈ report maxIndirect expired e ↔
          child ∈ expired ∨ (e.active = true ∧ e.ttl ≤ 1 ∧ e.dstAddr = child) := by
      unfold report
      by_cases hreport : (e.active && e.ttl - 1 == 0 && !expired.contains e.dstAddr && expired.length < maxIndirect) = true
      · rw [if_pos hreport]
        simp only [Bool.and_eq_true, beq_iff_eq, Bool.not_eq_true', List.contains_eq_mem, decide_eq_false_iff_not,
          decide_eq_true_eq] at hreport
        obtain ⟨⟨⟨hactive, httl⟩, hnew⟩, -⟩ := hreport
        refine ⟨by simp; omega, ?_, fun child => ?_⟩
        · rw [List.nodup_append]
          refine ⟨hnodup, List.nodup_singleton _, fun x hx y hy => ?_⟩
          rw [List.mem_singleton.mp hy]
          rintro rfl
          exact hnew hx
        · rw [List.mem_append, List.mem_singleton]
          constructor
          · rintro (hmem | rfl)
            · exact Or.inl hmem
            · exact Or.inr ⟨hactive, by omega, rfl⟩
          · rintro (hmem | ⟨-, -, rfl⟩)
            · exact Or.inl hmem
            · exact Or.inr rfl
      · rw [if_neg hreport]
        simp only [Bool.and_eq_true, beq_iff_eq, Bool.not_eq_true', List.contains_eq_mem, decide_eq_false_iff_not,
          decide_eq_true_eq, not_and, not_lt] at hreport
        refine ⟨by omega, hnodup, fun child => ⟨Or.inl, ?_⟩⟩
        rintro (hmem | ⟨hactive, httl, rfl⟩)
        · exact hmem
        · by_contra habsent
          have hfull := hreport ⟨⟨hactive, by omega⟩, habsent⟩
          omega
    obtain ⟨hfinal, hall⟩ := ih (done + 1) _ hlen (by omega) hnodup'
    refine ⟨hfinal, fun child => ?_⟩
    rw [hall, hmem]
    simp only [List.mem_cons, exists_eq_or_imp, or_assoc]

theorem Represents.expired (h : Represents maxIndirect q a) :
    q.age.2.Nodup ∧ ∀ child, child ∈ q.age.2 ↔ child ∈ (a.frames.filter fun f => f.ttl ≤ 1).map (·.child) := by
  obtain ⟨hnodup, hmem⟩ := report_spec q.entries.length q.entries 0 [] (Nat.le_refl 0) (by omega) List.nodup_nil
  refine ⟨hnodup, fun child => ?_⟩
  have hany := h.any fun v => v.ttl ≤ 1 && v.child == child
  have hleft : child ∈ q.age.2 ↔ ((waiting q).any fun r => (viewEntry r).ttl ≤ 1 && (viewEntry r).child == child) = true := by
    rw [show q.age.2 = q.entries.foldl (report q.entries.length) [] from rfl, hmem, List.any_eq_true]
    constructor
    · rintro (hbad | ⟨e, he, hactive, httl, hchild⟩)
      · cases hbad
      · obtain ⟨i, hi⟩ := List.getElem?_of_mem he
        refine ⟨(e, i), mem_live.mpr ⟨hi, hactive⟩, ?_⟩
        simp [viewEntry, httl, hchild]
    · rintro ⟨⟨e, i⟩, hlive, hp⟩
      obtain ⟨hget, hactive⟩ := mem_live.mp hlive
      simp only [viewEntry, Bool.and_eq_true, beq_iff_eq] at hp
      exact Or.inr ⟨e, List.mem_of_getElem? hget, hactive, of_decide_eq_true hp.1, hp.2⟩
  rw [hleft, hany, List.any_eq_true]
  simp only [viewFrame, Bool.and_eq_true, beq_iff_eq, List.mem_map, List.mem_filter, and_assoc]
  exact Iff.rfl

/-! ## Calls -/

/-- What is peeked at is the frame. -/
theorem Represents.peek (h : Represents maxIndirect q a) (child : ShortAddress)
    (hyoung : ∀ f g rest, a.of child = f :: g :: rest → a.enqueued - f.seq < 2 ^ 32) :
    (q.peek child).map (fun p => (p.asSlice, p.kind)) = (a.of child).head?.map fun f => (f.bytes, f.kind) := by
  cases hof : a.of child with
  | nil =>
    unfold IndirectQueue.peek
    rw [h.oldest_none hof]
    rfl
  | cons f rest =>
    obtain ⟨hindex, e, hget, hview⟩ := h.oldest hof hyoung
    have hbytes : e.bytes = f.bytes := congrArg View.bytes hview
    have hkind : e.kind = f.kind := congrArg View.kind hview
    have hlen : e.len = f.bytes.length := congrArg View.len hview
    unfold IndirectQueue.peek
    rw [hindex]
    simp only [Option.bind_eq_bind, Option.bind_some, hget, Option.map_some, PendingIndirectFrame.asSlice, hlen, hbytes, hkind,
      List.head?_cons, List.take_left]

/-- What is dequeued is the frame. -/
theorem Represents.dequeue (h : Represents maxIndirect q a) (child : ShortAddress)
    (hyoung : ∀ f g rest, a.of child = f :: g :: rest → a.enqueued - f.seq < 2 ^ 32) :
    (q.dequeue child).2 = ((a.of child).head?.map fun f => (f.bytes, !(a.of child).tail.isEmpty)) ∧
      Represents maxIndirect (q.dequeue child).1 (a.pop child) := by
  unfold IndirectQueue.dequeue
  cases hof : a.of child with
  | nil =>
    rw [h.oldest_none hof, pop_empty hof]
    exact ⟨rfl, h⟩
  | cons f rest =>
    obtain ⟨hindex, e, hget, hview⟩ := h.oldest hof hyoung
    obtain ⟨hnext, hmore⟩ := h.taken hof
    have hentry : (q.deactivate f.slot).entries[f.slot]? = some { e with active := false } := by
      unfold IndirectQueue.deactivate
      rw [List.getElem?_modify_eq, hget]
      rfl
    have hbytes : IndirectEntry.bytes { e with active := false } = f.bytes := congrArg View.bytes hview
    rw [hof] at hmore
    unfold IndirectQueue.hasPending at hmore
    rw [hindex]
    dsimp only
    rw [hentry, hmore, Option.map_some, hbytes]
    exact ⟨rfl, hnext⟩

theorem Represents.completeOne (h : Represents maxIndirect q a) (child : ShortAddress)
    (hyoung : ∀ f g rest, a.of child = f :: g :: rest → a.enqueued - f.seq < 2 ^ 32) :
    (q.completeOne child).2 = ((a.of child).head?.map fun _ => !(a.of child).tail.isEmpty) ∧
      Represents maxIndirect (q.completeOne child).1 (a.pop child) := by
  unfold IndirectQueue.completeOne
  cases hof : a.of child with
  | nil =>
    rw [h.oldest_none hof, pop_empty hof]
    exact ⟨rfl, h⟩
  | cons f rest =>
    obtain ⟨hindex, -⟩ := h.oldest hof hyoung
    obtain ⟨hnext, hmore⟩ := h.taken hof
    rw [hof] at hmore
    rw [hindex]
    dsimp only
    rw [hmore]
    exact ⟨rfl, hnext⟩

/-- **One call.** -/
theorem Represents.call (h : Represents maxIndirect q a) (c : Call) (htimely : Timely a c) :
    Agrees (q.call c).2 (a.call maxIndirect c).2 ∧ Represents maxIndirect (q.call c).1 (a.call maxIndirect c).1 := by
  cases c with
  | enqueue dst frame kind =>
    obtain ⟨hslot, hnext⟩ := h.enqueue dst frame kind
    exact ⟨congrArg Answer.slot hslot, hnext⟩
  | peek child => exact ⟨congrArg Answer.frame (h.peek child htimely), h⟩
  | dequeue child =>
    obtain ⟨htaken, hnext⟩ := h.dequeue child htimely
    exact ⟨congrArg Answer.taken htaken, hnext⟩
  | completeOne child =>
    obtain ⟨hmore, hnext⟩ := h.completeOne child htimely
    exact ⟨congrArg Answer.more hmore, hnext⟩
  | hasPending child => exact ⟨congrArg Answer.flag ((h.hasPending child).trans (any_of a child)), h⟩
  | hasPendingKind child kind => exact ⟨congrArg Answer.flag ((h.hasPendingKind child kind).trans (any_of_kind a child kind)), h⟩
  | pendingCount child => exact ⟨congrArg Answer.count (h.pendingCount child), h⟩
  | pendingChildren => exact ⟨h.pendingChildren, h⟩
  | removeSlot index => exact ⟨rfl, h.deactivate index⟩
  | removeKind child kind =>
    refine ⟨congrArg Answer.flag ((h.hasPendingKind child kind).trans (any_of_kind a child kind)), ?_⟩
    exact h.removeWhere fun dst k => dst == child && k == kind
  | removeAll child => exact ⟨rfl, h.removeWhere fun dst _ => dst == child⟩
  | age => exact ⟨h.expired, h.age⟩

/-! ## Other children -/

theorem of_drop (a : Fifo) {p : Frame → Bool} {other : ShortAddress} (hp : ∀ f, p f = true → f.child ≠ other) :
    (a.drop p).of other = a.of other := by
  unfold Fifo.drop Fifo.of
  rw [List.filter_filter]
  apply List.filter_congr
  intro f _
  cases hf : p f with
  | false => simp
  | true => simpa using hp f hf

/-- **A call about a child leaves the queues of the others alone.** -/
theorem of_other (maxIndirect : Nat) (a : Fifo) {c : Call} {other : ShortAddress} (hchild : c.child = some child)
    (hne : other ≠ child) : (a.call maxIndirect c).1.of other = a.of other := by
  have hpop : (a.pop child).of other = a.of other := by
    apply filter_eraseP_other
    intro f hf
    rw [beq_iff_eq] at hf
    rw [beq_eq_false_iff_ne, hf]
    exact hne.symm
  cases c with
  | enqueue dst frame kind =>
    obtain rfl : dst = child := Option.some.inj hchild
    show (a.enqueue maxIndirect dst frame kind).1.of other = a.of other
    unfold Fifo.enqueue
    split
    · rfl
    · split
      · rfl
      · unfold Fifo.of
        rw [List.filter_append, List.filter_cons_of_neg (by simpa using hne.symm), List.filter_nil, List.append_nil]
  | dequeue c =>
    obtain rfl : c = child := Option.some.inj hchild
    exact hpop
  | completeOne c =>
    obtain rfl : c = child := Option.some.inj hchild
    exact hpop
  | removeKind c kind =>
    obtain rfl : c = child := Option.some.inj hchild
    apply of_drop
    intro f hf
    rw [Bool.and_eq_true, beq_iff_eq] at hf
    rw [hf.1]
    exact hne.symm
  | removeAll c =>
    obtain rfl : c = child := Option.some.inj hchild
    apply of_drop
    intro f hf
    rw [beq_iff_eq] at hf
    rw [hf]
    exact hne.symm
  | peek => rfl
  | hasPending => rfl
  | hasPendingKind => rfl
  | pendingCount => rfl
  | pendingChildren => cases hchild
  | removeSlot => cases hchild
  | age => cases hchild

end

/-! ## Runs -/

/-- **The array is a first-in first-out queue for each child**, and a call about one of them does not touch the others. -/
theorem indirect_fifo (maxIndirect : Nat) (calls : List Call)
    (h : Along (fun a c => (a.call maxIndirect c).1) Timely Fifo.empty calls) :
    List.Forall₂ Agrees (outputs call (.new maxIndirect) calls) (outputs (Fifo.call maxIndirect) .empty calls) ∧
      ∀ (a : Fifo) (c : Call) (child other : ShortAddress), c.child = some child → other ≠ child →
        (a.call maxIndirect c).1.of other = a.of other :=
  ⟨outputs_of_simulation (fun _ _ c hrepresents htimely => hrepresents.call c htimely) (represents_new maxIndirect) h,
    fun a _ _ _ hchild hne => of_other maxIndirect a hchild hne⟩

/-- Two frames for one child, one for another; the first two are served in their order. -/
theorem two_children_served :
    List.Forall₂ Agrees
      (outputs call (.new 2)
        [.enqueue 1 [10] .data, .enqueue 1 [11] .leave, .completeOne 1, .enqueue 2 [20] .data, .peek 1, .age, .dequeue 2])
      (outputs (Fifo.call 2) .empty
        [.enqueue 1 [10] .data, .enqueue 1 [11] .leave, .completeOne 1, .enqueue 2 [20] .data, .peek 1, .age, .dequeue 2]) ∧
      ∀ (a : Fifo) (c : Call) (child other : ShortAddress), c.child = some child → other ≠ child →
        (a.call 2 c).1.of other = a.of other := by
  apply indirect_fifo 2
  refine ⟨trivial, trivial, ?_, trivial, ?_, trivial, ?_, trivial⟩
  · intro f g rest hof
    obtain rfl : (⟨1, [10], .data, 8, 0, 0⟩ : Frame) = f := (List.cons.inj hof).1
    decide
  · intro f g rest hof
    cases (List.cons.inj hof).2
  · intro f g rest hof
    cases (List.cons.inj hof).2

/-! ## A run of `2 ^ 32` frames -/

/-- Frames for the child 2, each of which is delivered at once. -/
def traffic : Nat → List Call
  | 0 => []
  | n + 1 => .enqueue 2 [3] .data :: .completeOne 2 :: traffic n

/-- Two frames for the child 1, and as many for the child 2 as make the counter start again. -/
def wrappingRun : List Call := [.enqueue 1 [1] .data, .enqueue 1 [2] .data] ++ (traffic (2 ^ 32 - 2) ++ [.peek 1])

theorem outputs_append {σ ε ω : Type} (trans : σ → ε → σ × ω) (s : σ) (es es' : List ε) :
    outputs trans s (es ++ es') = outputs trans s es ++ outputs trans (run (fun s e => (trans s e).1) s es) es' := by
  induction es generalizing s with
  | nil => rfl
  | cons e es ih => exact congrArg _ (ih _)

theorem length_outputs {σ ε ω : Type} (trans : σ → ε → σ × ω) (s : σ) (es : List ε) : (outputs trans s es).length = es.length := by
  induction es generalizing s with
  | nil => rfl
  | cons e es ih => exact congrArg Nat.succ (ih _)

/-- The slots of two frames for the child 1. -/
def firstSlot : IndirectEntry := ⟨1, 1 :: List.replicate 127 0, 1, .data, 8, 0, true⟩
def secondSlot : IndirectEntry := ⟨1, 2 :: List.replicate 127 0, 1, .data, 8, 1, true⟩
def freeSlots : List IndirectEntry := [.empty, .empty, .empty, .empty, .empty]

theorem traffic_entries (n : Nat) (free : IndirectEntry) (hfree : free.active = false) (order : UInt32) :
    ∃ free', free'.active = false ∧
      run (fun q c => (call q c).1) ⟨firstSlot :: secondSlot :: free :: freeSlots, order⟩ (traffic n) =
        ⟨firstSlot :: secondSlot :: free' :: freeSlots, order + UInt32.ofNat n⟩ := by
  induction n generalizing free order with
  | zero => exact ⟨free, hfree, by simp [traffic]⟩
  | succ n ih =>
    have hpair : run (fun q c => (call q c).1) ⟨firstSlot :: secondSlot :: free :: freeSlots, order⟩
        [.enqueue 2 [3] .data, .completeOne 2] =
          ⟨firstSlot :: secondSlot :: ⟨2, 3 :: free.frame.drop 1, 1, .data, 8, order, false⟩ :: freeSlots, order + 1⟩ := by
      simp [call, enqueueTaggedWithSlot, IndirectQueue.completeOne, oldestIndex,
        IndirectQueue.deactivate, maxByKey, List.findIdx?_cons, firstSlot, secondSlot, freeSlots, IndirectEntry.empty, hfree, MAX_FRAME_SIZE]
    obtain ⟨free', hfree', hrun⟩ := ih ⟨2, 3 :: free.frame.drop 1, 1, .data, 8, order, false⟩ rfl (order + 1)
    refine ⟨free', hfree', ?_⟩
    rw [show traffic (n + 1) = [.enqueue 2 [3] .data, .completeOne 2] ++ traffic n from rfl, run_append, hpair, hrun,
      UInt32.ofNat_add, UInt32.add_assoc, UInt32.add_comm 1]
    rfl

theorem traffic_frames (n : Nat) (enqueued : Nat) :
    run (fun a c => (Fifo.call 8 a c).1) ⟨[⟨1, [1], .data, 8, 0, 0⟩, ⟨1, [2], .data, 8, 1, 1⟩], enqueued⟩ (traffic n) =
      ⟨[⟨1, [1], .data, 8, 0, 0⟩, ⟨1, [2], .data, 8, 1, 1⟩], enqueued + n⟩ := by
  induction n generalizing enqueued with
  | zero => rfl
  | succ n ih =>
    have hpair : run (fun a c => (Fifo.call 8 a c).1) ⟨[⟨1, [1], .data, 8, 0, 0⟩, ⟨1, [2], .data, 8, 1, 1⟩], enqueued⟩
        [.enqueue 2 [3] .data, .completeOne 2] =
          ⟨[⟨1, [1], .data, 8, 0, 0⟩, ⟨1, [2], .data, 8, 1, 1⟩], enqueued + 1⟩ := rfl
    rw [show traffic (n + 1) = [.enqueue 2 [3] .data, .completeOne 2] ++ traffic n from rfl, run_append, hpair, ih,
      Nat.add_right_comm, Nat.add_assoc]

/-- **With `2 ^ 32` frames enqueued while it waits, a frame is passed by a later one** of its child. -/
theorem wrapped_counter :
    ¬ ∀ (maxIndirect : Nat) (calls : List Call),
      List.Forall₂ Agrees (outputs call (.new maxIndirect) calls) (outputs (Fifo.call maxIndirect) .empty calls) := by
  intro hall
  have hrun := hall 8 wrappingRun
  obtain ⟨free, hfree, hentries⟩ := traffic_entries (2 ^ 32 - 2) .empty rfl 2
  have hframes := traffic_frames (2 ^ 32 - 2) 2
  rw [show (2 : UInt32) + UInt32.ofNat (2 ^ 32 - 2) = 0 by decide] at hentries
  unfold wrappingRun at hrun
  generalize 2 ^ 32 - 2 = n at hrun hentries hframes
  have hlen : (outputs call (.new 8) ([.enqueue 1 [1] .data, .enqueue 1 [2] .data] ++ traffic n)).length =
      (outputs (Fifo.call 8) .empty ([.enqueue 1 [1] .data, .enqueue 1 [2] .data] ++ traffic n)).length := by
    rw [length_outputs, length_outputs]
  rw [← List.append_assoc, outputs_append call, outputs_append (Fifo.call 8)] at hrun
  have hlast := List.forall₂_drop
    (outputs call (.new 8) ([.enqueue 1 [1] .data, .enqueue 1 [2] .data] ++ traffic n)).length hrun
  rw [List.drop_left, hlen, List.drop_left, run_append, run_append] at hlast
  rw [show run (fun q c => (call q c).1) (.new 8) [.enqueue 1 [1] .data, .enqueue 1 [2] .data] =
    ⟨firstSlot :: secondSlot :: .empty :: freeSlots, 2⟩ from rfl, hentries] at hlast
  rw [show run (fun a c => (Fifo.call 8 a c).1) Fifo.empty [.enqueue 1 [1] .data, .enqueue 1 [2] .data] =
    ⟨[⟨1, [1], .data, 8, 0, 0⟩, ⟨1, [2], .data, 8, 1, 1⟩], 2⟩ from rfl, hframes] at hlast
  have hpeek : (call ⟨firstSlot :: secondSlot :: free :: freeSlots, 0⟩ (.peek 1)).2 = .frame (some ([2], .data)) := by
    simp [call, IndirectQueue.peek, oldestIndex, waited, maxByKey, firstSlot, secondSlot, freeSlots, IndirectEntry.empty, hfree,
      PendingIndirectFrame.asSlice, IndirectEntry.bytes]
  have hanswers := (List.forall₂_cons.mp hlast).1
  rw [hpeek] at hanswers
  have hbytes : Answer.frame (some ([2], .data)) = .frame (some ([1], .data)) := hanswers
  exact absurd hbytes (by decide)

end Zigbee.Nwk.Indirect
